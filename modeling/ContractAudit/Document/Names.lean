import ContractAudit.Text.Blank
import ContractAudit.Text.Split

/-!
# Names in a contract map

A node id is a kind and an identifier with a colon between them. The identifier of an endpoint is
a route, the one of a method may be qualified by dots. Kinds and relations come from small
vocabularies; a word outside them is kept as it stands and is never inspected.
-/

namespace ContractAudit

/-! ## Node ids -/

/-- A node id cut at its first colon. Without a colon there is no kind. -/
structure NodeId where
  kind : String
  identifier : String
  deriving DecidableEq, Repr

namespace NodeId

/-- The two parts of an id. -/
def ofString (raw : String) : NodeId :=
  match Text.cutFirst (· == ':') raw.toList with
  | some (kind, identifier) => ⟨String.ofList kind, String.ofList identifier⟩
  | none => ⟨"", raw⟩

def name (id : NodeId) : String := Text.trim id.identifier

/-- The last of the parts of an identifier that dots separate, without blanks around it. -/
def methodName (id : NodeId) : String :=
  match Text.cutLast (· == '.') id.identifier.toList with
  | some (_, last) => Text.trim (String.ofList last)
  | none => Text.trim id.identifier

end NodeId

/-! ## Routes -/

/-- What an endpoint answers: perhaps an HTTP method, and a path. -/
structure Route where
  method : Option String
  path : String
  deriving DecidableEq, Repr

namespace Route

/-- The words that are HTTP methods, and the two that stand for any of them. -/
def httpMethods : List String :=
  ["GET", "POST", "PUT", "PATCH", "DELETE", "HEAD", "OPTIONS", "ANY", "ALL"]

/-- Equality of texts up to the case of ASCII letters. -/
def sameWord (a b : String) : Bool := a.toList.map Char.toLower == b.toList.map Char.toLower

/-- A first word that is an HTTP method is the method and the rest is the path; otherwise all of
the identifier is the path. -/
def ofIdentifier (identifier : String) : Route :=
  let trimmed := Text.trim identifier
  match Text.cutFirst Text.isBlank trimmed.toList with
  | some (head, rest) =>
    let head := String.ofList head
    if httpMethods.any (sameWord · head) then ⟨some head, Text.trim (String.ofList rest)⟩
    else ⟨none, trimmed⟩
  | none => ⟨none, trimmed⟩

def upperCase (s : String) : String := String.ofList (s.toList.map Char.toUpper)

end Route

/-! ## Kinds and relations -/

/-- What a node is. -/
inductive NodeKind where
  | type
  | method
  | table
  | endpoint
  | event
  | custom (name : String)
  deriving DecidableEq, Repr

namespace NodeKind

/-- The kind a word names, blanks around it aside. -/
def ofString (raw : String) : NodeKind :=
  match Text.trim raw with
  | "type" => .type
  | "method" => .method
  | "table" => .table
  | "endpoint" => .endpoint
  | "event" => .event
  | other => .custom other

def text : NodeKind → String
  | .type => "type"
  | .method => "method"
  | .table => "table"
  | .endpoint => "endpoint"
  | .event => "event"
  | .custom name => name

def isCustom : NodeKind → Bool
  | .custom _ => true
  | _ => false

end NodeKind

/-- How one node depends on another. -/
inductive Relation where
  | coChange
  | validates
  | calls
  | writes
  | reads
  | emits
  | listens
  | custom (name : String)
  deriving DecidableEq, Repr

namespace Relation

/-- The relation a word names, blanks around it aside. -/
def ofString (raw : String) : Relation :=
  match Text.trim raw with
  | "co_change" => .coChange
  | "validates" => .validates
  | "calls" => .calls
  | "writes" => .writes
  | "reads" => .reads
  | "emits" => .emits
  | "listens" => .listens
  | other => .custom other

def text : Relation → String
  | .coChange => "co_change"
  | .validates => "validates"
  | .calls => "calls"
  | .writes => "writes"
  | .reads => "reads"
  | .emits => "emits"
  | .listens => "listens"
  | .custom name => name

def isCustom : Relation → Bool
  | .custom _ => true
  | _ => false

end Relation

end ContractAudit
