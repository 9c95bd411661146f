import ContractAudit.Impact.Basic
import ContractAudit.Report.Text

/-!
# Impact as text

A headline for the node, then each kind of thing that touches it under its count. Only the word for
edges whose ends change together takes a colour.
-/

namespace ContractAudit

/-- A role in words, steps counted from one. -/
def FlowRole.text : FlowRole → String
  | .step index => "step " ++ toString (index + 1)
  | .jump index => "jump from step " ++ toString (index + 1)
  | .branch index label => "branch `" ++ label ++ "` of step " ++ toString (index + 1)

def ImpactEdge.lineText (style : Style) (e : ImpactEdge) : String :=
  "  " ++ e.source ++ " --" ++ e.rel ++ "--> " ++ e.target ++
    (if e.coChange then " " ++ style.paint "1;35" "[co_change]" else "") ++
    match e.note.bind Text.nonBlank? with
    | some note => " (" ++ note ++ ")"
    | none => ""

def ImpactFlow.lineText (f : ImpactFlow) : String :=
  "  " ++ f.name ++
    (match Text.nonBlank? f.trigger with
     | some trigger => " [" ++ trigger ++ "]"
     | none => "") ++
    ": " ++ Text.joinWith ", " (f.roles.map FlowRole.text)

def ImpactInvariant.lineText (i : ImpactInvariant) : String :=
  "  " ++ i.id ++ ": " ++ i.rule ++
    match i.enforce with
    | some enforce => " (enforce: " ++ enforce ++ ")"
    | none => ""

def countedLines (title : String) (lines : List String) : List String :=
  (title ++ ": " ++ toString lines.length) :: lines

namespace ImpactReport

def headline (r : ImpactReport) : String :=
  "Impact: " ++ r.nodeId ++ " (" ++ r.kind ++
    (match r.loc with
     | some loc => ", " ++ loc
     | none => "") ++ ")"

def lines (style : Style) (r : ImpactReport) : List String :=
  r.headline ::
    countedLines "Outgoing edges" (r.outgoing.map (ImpactEdge.lineText style)) ++
    countedLines "Incoming edges" (r.incoming.map (ImpactEdge.lineText style)) ++
    countedLines "Flows" (r.flows.map ImpactFlow.lineText) ++
    countedLines "Invariants" (r.invariants.map ImpactInvariant.lineText) ++
    if r.isIsolated then ["Note: no edges, flows or invariants reference this node."] else []

end ImpactReport

namespace ImpactOutcome

def lines (style : Style) : ImpactOutcome → List String
  | .found report => report.lines style
  | .notFound id known =>
    ["Unknown node id: " ++ id, "Known node ids (" ++ toString known.length ++ "):"] ++
      known.map ("  - " ++ ·)

def text (style : Style) (o : ImpactOutcome) : String := linesText (o.lines style)

end ImpactOutcome

end ContractAudit
