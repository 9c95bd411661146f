import ContractAudit.Audit.Basic

/-!
# Checking flows

A flow refers to the nodes of its steps and to the nodes its steps lead to; all must be declared.
An arm of a branch should lead to a step of the same flow; plain jumps may leave it. Files play no
part.
-/

namespace ContractAudit

def flowRecord (name check : String) (status : Status) (message : String) : CheckRecord :=
  { phase := .flows, subject := name, check, status, message }

/-- The ids a step refers to, its own node first. -/
def Step.references (s : Step) : List String := s.node :: s.next.nodeTargets

/-- An arm that leads to a node: its label, that node, and its step counted from one. -/
structure ArmTarget where
  label : String
  target : String
  position : Nat
  deriving DecidableEq, Repr

namespace FlowRecord

/-- The ids a flow refers to, each once, in the order of their first mention. -/
def references (f : FlowRecord) : List String :=
  (f.steps.flatMap Step.references).foldl
    (fun seen id => if seen.contains id then seen else seen ++ [id]) []

def stepNodes (f : FlowRecord) : List String := f.steps.map Step.node

/-- The arms that lead to a node, in order. -/
def armTargets (f : FlowRecord) : List ArmTarget :=
  f.steps.zipIdx.flatMap fun (s, index) =>
    s.next.branchTargets.map fun (label, target) => ⟨label, target, index + 1⟩

/-- The arms that lead out of the flow. -/
def strayArms (f : FlowRecord) : List ArmTarget :=
  f.armTargets.filter fun arm => !f.stepNodes.contains arm.target

/-- The record of the existence of all nodes a flow refers to. -/
def existence (f : FlowRecord) (name : String) (declared : String → Bool) : CheckRecord :=
  match f.references.filter (!declared ·) with
  | [] => flowRecord name "existence" .pass
      ("all nodes referenced by " ++ toString f.steps.length ++ " steps exist")
  | missing => flowRecord name "existence" .fail ("missing nodes: " ++ Text.joinWith ", " missing)

def strayRecord (name : String) (arm : ArmTarget) : CheckRecord :=
  flowRecord name "reachability" .warn
    ("branch " ++ arm.label ++ " -> " ++ arm.target ++ " (step " ++ toString arm.position ++
      ") is not a step of this flow")

/-- The records of the arms of a flow: one for each that leads out of it, else a single one. -/
def reachability (f : FlowRecord) (name : String) : List CheckRecord :=
  match f.strayArms with
  | [] => [flowRecord name "reachability" .pass "every branch target is a step of this flow"]
  | stray => stray.map (strayRecord name)

end FlowRecord

namespace Audit

def flowBlock (a : Audit) (name : String) (f : FlowRecord) : Block :=
  { records := f.existence name a.document.declares :: f.reachability name }

def flowBlocks (a : Audit) : List Block :=
  a.document.flows.entries.map fun (name, flow) => a.flowBlock name flow

end Audit

end ContractAudit
