import ContractAudit.Document.Names
import ContractAudit.Json.Basic
import ContractAudit.Registry

/-!
# Contract maps

A contract map declares nodes, the edges between them, the flows that run over them and the
invariants that span them. Nodes, flows and the arms of a branch are registries: names are unique
and their order is the order of the document. Node fields that nothing checks are kept as the free
values they are.
-/

namespace ContractAudit

/-- Name of a map and the directory its locations start from. -/
structure Meta where
  name : String := ""
  root : String := ""
  deriving DecidableEq

/-- What the map declares about one node. -/
structure NodeRecord where
  kind : Option String := none
  loc : Option String := none
  note : Option String := none
  schema : Option String := none
  values : List String := []
  fk : List String := []
  indexes : Option Json := none
  triggers : Option Json := none
  request : Option Json := none
  response : Option Json := none
  payload : Option Json := none
  pre : Option Json := none
  post : Option Json := none
  sideEffects : Option Json := none
  errors : Option Json := none
  deriving DecidableEq

/-- A dependency between two node ids, declared or not. -/
structure EdgeRecord where
  source : String
  target : String
  rel : String
  note : Option String := none
  deriving DecidableEq

namespace EdgeRecord

/-- The relation the edge's word names. -/
def relation (e : EdgeRecord) : Relation := Relation.ofString e.rel

/-- How an edge is named in records. -/
def label (e : EdgeRecord) : String := e.source ++ " --" ++ e.rel ++ "--> " ++ e.target

end EdgeRecord

/-! ## Flows -/

/-- Where a word after a step leads: on to the next step, to one of the two ends, or to a node. -/
inductive Destination where
  | next
  | done
  | fail
  | node (id : String)
  deriving DecidableEq, Repr

namespace Destination

/-- The three keywords are exact; any other word is a node id. -/
def ofString (raw : String) : Destination :=
  if raw = "next" then .next
  else if raw = "DONE" then .done
  else if raw = "FAIL" then .fail
  else .node raw

def node? : Destination → Option String
  | .node id => some id
  | _ => none

end Destination

/-- What follows a step: one destination, or arms that lead from a label to a destination. -/
inductive Continuation where
  | target (raw : String)
  | branch (arms : Registry String)
  deriving DecidableEq

namespace Continuation

/-- Without a word of its own a step goes on to the next. -/
instance : Inhabited Continuation := ⟨.target "next"⟩

/-- The nodes led to, in order. -/
def nodeTargets : Continuation → List String
  | .target raw => (Destination.ofString raw).node?.toList
  | .branch arms => arms.values.filterMap fun raw => (Destination.ofString raw).node?

/-- The arms that lead to a node, as label and node, in order. -/
def branchTargets : Continuation → List (String × String)
  | .target _ => []
  | .branch arms => arms.entries.filterMap fun (label, raw) =>
      (Destination.ofString raw).node?.map (label, ·)

end Continuation

/-- One step of a flow. -/
structure Step where
  node : String
  next : Continuation := default
  deriving DecidableEq

/-- A sequence of steps and what sets it off. -/
structure FlowRecord where
  trigger : String := ""
  steps : List Step := []
  deriving DecidableEq

/-- A rule that spans several nodes and is left to people. -/
structure InvariantRecord where
  id : String
  rule : String := ""
  scope : List String := []
  enforce : Option String := none
  deriving DecidableEq

/-! ## The map -/

/-- A contract map. -/
structure Document where
  version : String := "1"
  metadata : Meta := {}
  nodes : Registry NodeRecord := .empty
  edges : List EdgeRecord := []
  flows : Registry FlowRecord := .empty
  invariants : List InvariantRecord := []
  deriving DecidableEq

namespace Document

def node? (d : Document) (id : String) : Option NodeRecord := d.nodes.get? id

def declares (d : Document) (id : String) : Bool := d.nodes.contains id

def nodeIds (d : Document) : List String := d.nodes.names

/-- The kind of a record kept under an id: the declared one, or else the kind in the id. -/
def kindOf (id : String) (record : Option NodeRecord) : NodeKind :=
  match record.bind NodeRecord.kind with
  | some kind => NodeKind.ofString kind
  | none => NodeKind.ofString (NodeId.ofString id).kind

def nodeKind (d : Document) (id : String) : NodeKind := kindOf id (d.node? id)

def edgesFrom (d : Document) (id : String) : List EdgeRecord := d.edges.filter (·.source == id)

def edgesTo (d : Document) (id : String) : List EdgeRecord := d.edges.filter (·.target == id)

end Document

end ContractAudit
