import ContractAudit.Document.Basic

/-!
# Impact of a node

What a map says about one declared node: the edges that leave and reach it, the flows in which it
plays a role, and the invariants whose scope holds it. Only direct neighbours count. An id that is
not declared is answered with the ids that are.
-/

namespace ContractAudit

/-- The part a node plays at a step, counted from zero. -/
inductive FlowRole where
  | step (index : Nat)
  | jump (index : Nat)
  | branch (index : Nat) (label : String)
  deriving DecidableEq, Repr

/-- An edge of a node, and whether its two ends change together. -/
structure ImpactEdge where
  source : String
  target : String
  rel : String
  note : Option String := none
  coChange : Bool
  deriving DecidableEq, Repr

/-- A flow in which a node plays a role. -/
structure ImpactFlow where
  name : String
  trigger : String
  roles : List FlowRole
  deriving DecidableEq, Repr

/-- An invariant that spans a node. -/
structure ImpactInvariant where
  id : String
  rule : String
  enforce : Option String := none
  deriving DecidableEq, Repr

structure ImpactReport where
  nodeId : String
  kind : String
  loc : Option String := none
  outgoing : List ImpactEdge := []
  incoming : List ImpactEdge := []
  flows : List ImpactFlow := []
  invariants : List ImpactInvariant := []
  deriving DecidableEq, Repr

def ImpactReport.isIsolated (r : ImpactReport) : Bool :=
  r.outgoing.isEmpty && r.incoming.isEmpty && r.flows.isEmpty && r.invariants.isEmpty

/-- The answer to a query. A node that nothing touches is found all the same. -/
inductive ImpactOutcome where
  | found (report : ImpactReport)
  | notFound (nodeId : String) (knownIds : List String)
  deriving DecidableEq, Repr

/-- Zero for a declared node and one otherwise. -/
def ImpactOutcome.exitCode : ImpactOutcome → Nat
  | .found _ => 0
  | .notFound .. => 1

/-! ## Roles -/

/-- The roles that a continuation gives a node. -/
def Continuation.rolesOf (id : String) (index : Nat) : Continuation → List FlowRole
  | .target raw => if (Destination.ofString raw).node? = some id then [.jump index] else []
  | .branch arms =>
    arms.entries.filterMap fun (label, raw) =>
      if (Destination.ofString raw).node? = some id then some (.branch index label) else none

def Step.rolesOf (id : String) (index : Nat) (s : Step) : List FlowRole :=
  (if s.node = id then [.step index] else []) ++ s.next.rolesOf id index

/-- The roles a node plays in a flow, in the order of the steps. -/
def FlowRecord.rolesOf (id : String) (f : FlowRecord) : List FlowRole :=
  f.steps.zipIdx.flatMap fun (s, index) => s.rolesOf id index

/-! ## Queries -/

def EdgeRecord.impact (e : EdgeRecord) : ImpactEdge :=
  ⟨e.source, e.target, e.rel, e.note, e.relation = .coChange⟩

def InvariantRecord.impact (i : InvariantRecord) : ImpactInvariant := ⟨i.id, i.rule, i.enforce⟩

namespace Document

/-- The flows in which a node plays a role, in order. -/
def flowsOf (d : Document) (id : String) : List ImpactFlow :=
  d.flows.entries.filterMap fun (name, flow) =>
    match flow.rolesOf id with
    | [] => none
    | roles => some ⟨name, flow.trigger, roles⟩

def impact (d : Document) (id : String) : ImpactOutcome :=
  match d.node? id with
  | none => .notFound id d.nodeIds
  | some node => .found {
      nodeId := id
      kind := (d.nodeKind id).text
      loc := node.loc
      outgoing := (d.edgesFrom id).map EdgeRecord.impact
      incoming := (d.edgesTo id).map EdgeRecord.impact
      flows := d.flowsOf id
      invariants := (d.invariants.filter (·.scope.contains id)).map InvariantRecord.impact }

end Document

end ContractAudit
