import ContractAudit.Decoding.Mismatch
import ContractAudit.Json.Basic
import ContractAudit.Yaml.Scalar

/-!
# Decoding nodes

A decoder reads a value off a node. It carries the path to the node and the number of collections
that may still be entered, and counts the aliases it follows; both limits keep a tree that refers to
itself from being read forever. A mismatch takes the place of the innermost node that was being
read when it arose. A record reads its fields in the order of the document; fields it does not know
are passed over unread.
-/

namespace ContractAudit.Decoding

open Yaml (Node Mark ScalarStyle Meaning)

/-! ## Places and faults -/

/-- A step from a collection to a part of it. -/
inductive PathStep where
  | index (i : Nat)
  | field (name : String)
  | unnamed
  deriving DecidableEq, Repr

/-- The text of a path, given innermost step first. -/
def pathText : List PathStep → String
  | [] => ""
  | .index i :: outer => pathText outer ++ "[" ++ toString i ++ "]"
  | .field name :: outer => (if outer.isEmpty then "" else pathText outer ++ ".") ++ name
  | .unnamed :: outer => (if outer.isEmpty then "" else pathText outer ++ ".") ++ "?"

/-- Where in a document a mismatch arose. -/
structure Place where
  path : List PathStep
  mark : Mark
  deriving DecidableEq, Repr

/-- Why decoding ended without a value. -/
inductive Fault where
  | mismatch (m : Mismatch) (place : Option Place)
  | tooDeep (mark : Mark)
  | tooManyAliases
  | cut
  deriving DecidableEq, Repr

/-- The place of a mark in words; the very start of a text is not mentioned. -/
def atMark (m : Mark) : String :=
  if m.line = 0 ∧ m.column = 0 then "" else " at " ++ m.text

def Fault.message : Fault → String
  | .mismatch m none => m.message .yaml
  | .mismatch m (some p) =>
    (if p.path.isEmpty then "" else pathText p.path ++ ": ") ++ m.message .yaml ++ atMark p.mark
  | .tooDeep mark => "recursion limit exceeded" ++ atMark mark
  | .tooManyAliases => "repetition limit exceeded"
  | .cut => "the document was cut off"

/-! ## Decoders -/

/-- What a decoder knows about where it is. -/
structure Context where
  targets : List (Nat × Node)
  jumpLimit : Nat
  levels : Nat := 128
  path : List PathStep := []

/-- A decoder counts the aliases followed so far. -/
abbrev Decode (α : Type) := StateT Nat (Except Fault) α

/-- A mismatch whose place is still open. -/
def mismatch {α : Type} (m : Mismatch) : Decode α := throw (.mismatch m none)

namespace Context

def step (ctx : Context) (s : PathStep) : Context := { ctx with path := s :: ctx.path }

/-- The step to the value under a key. -/
def under (ctx : Context) (key : Node) : Context :=
  ctx.step (match key with
    | .scalar _ _ text => .field text
    | _ => .unnamed)

/-- Gives a mismatch that arises in a decoder this place, unless it has one. -/
def placed {α : Type} (ctx : Context) (mark : Mark) (d : Decode α) : Decode α := fun jumps =>
  match d.run jumps with
  | .error (.mismatch m none) => .error (.mismatch m (some ⟨ctx.path, mark⟩))
  | result => result

def follow (ctx : Context) (target : Nat) : Decode Node := fun jumps =>
  if ctx.jumpLimit < jumps + 1 then .error .tooManyAliases
  else match ctx.targets.lookup target with
    | some node => .ok (node, jumps + 1)
    | none => .error .cut

/-- Reads a node, or the one its alias stands for. -/
def visit {α : Type} (ctx : Context) (node : Node) (body : Node → Decode α) : Decode α :=
  match node with
  | .cut => throw .cut
  | .alias mark target => ctx.placed mark do
      let node ← ctx.follow target
      ctx.placed node.mark (body node)
  | node => ctx.placed node.mark (body node)

/-- Enters a collection. -/
def enter {α : Type} (ctx : Context) (mark : Mark) (body : Context → Decode α) : Decode α :=
  match ctx.levels with
  | 0 => throw (.tooDeep mark)
  | levels + 1 => body { ctx with levels }

end Context

/-- What a scalar's meaning is called when it is not wanted. -/
def foundMeaning : Meaning → Found
  | .null => .unit
  | .bool b => .bool b
  | .int n => .int n
  | .wide n => .wide n
  | .float x => .float x
  | .text s => .text s

/-- How a node fails to be what is expected. -/
def unexpected (node : Node) (expected : String) : Mismatch :=
  match node with
  | .scalar p style text =>
    match Yaml.scalarMeaning p.tag style text with
    | .ok m => .invalidType (foundMeaning m) expected
    | .error core => .invalidValue (.text text) core.wanted
  | .sequence .. => .invalidType .sequence expected
  | .mapping .. => .invalidType .map expected
  | .alias .. => .invalidType .unit expected
  | .cut => .invalidType .unit expected

/-- The text of a scalar, whatever it means. -/
def textOf (expected : String) (ctx : Context) (node : Node) : Decode String :=
  ctx.visit node fun
    | .scalar _ _ text => pure text
    | other => mismatch (unexpected other expected)

def text : Context → Node → Decode String := textOf "a string"

/-- An optional value: a plain null, or nothing at all, is absent. -/
def optional {α : Type} (read : Context → Node → Decode α) (ctx : Context) (node : Node) :
    Decode (Option α) := do
  let node ← match node with
    | .alias _ target => ctx.follow target
    | node => pure node
  let present : Decode (Option α) := do return some (← read ctx node)
  match node with
  | .cut => throw .cut
  | .scalar p .plain s =>
    match p.tag with
    | none => if s.isEmpty || Yaml.isNullWord s then pure none else present
    | some t =>
      if Yaml.CoreTag.ofString? t = some .null then
        if Yaml.isNullWord s then pure none else mismatch (.invalidValue (.text s) "null")
      else present
  | _ => present

/-- Passes over a node. -/
def ignore (node : Node) : Decode Unit := if node.isCut then throw .cut else pure ()

/-! ## Collections -/

def items {α : Type} (read : Context → Node → Decode α) (ctx : Context) (node : Node) :
    Decode (List α) :=
  ctx.visit node fun
    | .sequence p nodes => ctx.enter p.mark fun ctx =>
      nodes.zipIdx.mapM fun (node, i) => read (ctx.step (.index i)) node
    | .scalar p style s =>
      if s.isEmpty && style = .plain then pure []
      else mismatch (unexpected (.scalar p style s) "a sequence")
    | other => mismatch (unexpected other "a sequence")

/-- Reads the entries of a mapping one after the other into an accumulator, and finishes with it; a
plain scalar without text has no entries. -/
def entries {α β : Type} (expected : String) (start : α)
    (read : Context → α → Node × Node → Decode α) (finish : α → Decode β)
    (ctx : Context) (node : Node) : Decode β :=
  ctx.visit node fun
    | .mapping p es => ctx.enter p.mark fun ctx => do finish (← es.foldlM (read ctx) start)
    | .scalar p style s =>
      if s.isEmpty && style = .plain then finish start
      else mismatch (unexpected (.scalar p style s) expected)
    | other => mismatch (unexpected other expected)

/-- Values under names, in the order of the document. -/
def named {α : Type} (read : Context → Node → Decode α) :
    Context → Node → Decode (List (String × α)) :=
  entries "a map" []
    (fun ctx done (key, value) => do
      let name ← text ctx key
      let v ← read (ctx.under key) value
      pure ((name, v) :: done))
    (fun done => pure done.reverse)

/-! ## Records -/

/-- A field of a record: its name and how its value goes into the record. -/
structure RecordField (δ : Type) where
  name : String
  read : Context → Node → δ → Decode δ

/-- Reads one entry of a record. `seen` holds the names of the fields read so far. -/
def readField {δ : Type} (fields : List (RecordField δ)) (ctx : Context) (state : List String × δ)
    (entry : Node × Node) : Decode (List String × δ) := do
  let name ← textOf "field identifier" ctx entry.1
  match fields.find? (·.name == name) with
  | none =>
    ignore entry.2
    pure state
  | some field =>
    if state.1.contains name then mismatch (.duplicateField name)
    else
      let d ← field.read (ctx.under entry.1) entry.2 state.2
      pure (name :: state.1, d)

/-- A record of the given fields, of which the `needed` ones must be there. -/
def record {δ : Type} (typeName : String) (fields : List (RecordField δ)) (needed : List String)
    (start : δ) : Context → Node → Decode δ :=
  entries ("struct " ++ typeName) ([], start) (readField fields) fun (seen, d) =>
    match needed.find? (!seen.contains ·) with
    | some name => mismatch (.missingField name)
    | none => pure d

/-- A field whose value is set once read. -/
def RecordField.of {δ α : Type} (name : String) (read : Context → Node → Decode α) (set : δ → α → δ) :
    RecordField δ :=
  { name, read := fun ctx node d => do return set d (← read ctx node) }

/-! ## Free values -/

/-- The value of a scalar in a free value; infinities and what is not a number are null. -/
def freeScalar (m : Meaning) : Decode Json :=
  match m with
  | .null => pure .null
  | .bool b => pure (.bool b)
  | .int n => pure (.number (.int n))
  | .wide _ => mismatch .numberOutOfRange
  | .float x => pure (if x.isFinite then .number (.float x) else .null)
  | .text s => pure (.string s)

/-- Whether a tag belongs to the document alone. -/
def hasLocalTag (p : Yaml.Props) : Bool := p.tag.any Yaml.isLocalTag

/-- A free value: any node without local tags, its fields in ascending order. -/
def freeAt : Nat → Context → Node → Decode Json
  | levels, ctx, node => ctx.visit node fun
    | .scalar p style s =>
      if hasLocalTag p then mismatch (.invalidType .tagged "any valid JSON value")
      else match Yaml.scalarMeaning p.tag style s with
        | .ok m => freeScalar m
        | .error core => mismatch (.invalidValue (.text s) core.wanted)
    | .sequence p nodes =>
      if hasLocalTag p then mismatch (.invalidType .tagged "any valid JSON value")
      else match levels with
        | 0 => throw (.tooDeep p.mark)
        | levels + 1 => do
          let vs ← nodes.zipIdx.mapM fun (node, i) => freeAt levels (ctx.step (.index i)) node
          pure (.array vs)
    | .mapping p es =>
      if hasLocalTag p then mismatch (.invalidType .tagged "any valid JSON value")
      else match levels with
        | 0 => throw (.tooDeep p.mark)
        | levels + 1 => do
          let fields ← es.zipIdx.mapM fun ((key, value), i) => do
            let name ← textOf (if i = 0 then "a string key" else "a string") ctx key
            let v ← freeAt levels (ctx.under key) value
            pure (name, v)
          pure (.object (Json.sortFields fields))
    | _ => throw .cut

def free (ctx : Context) (node : Node) : Decode Json := freeAt ctx.levels ctx node

/-! ## Values of several shapes -/

/-- A value taken apart before its shape is decided. -/
inductive Content where
  | scalar (m : Meaning)
  | sequence
  | mapping (entries : List (Content × Content))

def contentAt : Nat → Context → Node → Decode Content
  | levels, ctx, node => ctx.visit node fun
    | .scalar p style s =>
      if hasLocalTag p then mismatch .taggedValue
      else match Yaml.scalarMeaning p.tag style s with
        | .ok (.wide n) => mismatch (.invalidType (.wide n) "any value")
        | .ok m => pure (.scalar m)
        | .error core => mismatch (.invalidValue (.text s) core.wanted)
    | .sequence p nodes =>
      if hasLocalTag p then mismatch .taggedValue
      else match levels with
        | 0 => throw (.tooDeep p.mark)
        | levels + 1 => do
          nodes.zipIdx.forM fun (node, i) => discard (contentAt levels (ctx.step (.index i)) node)
          pure .sequence
    | .mapping p es =>
      if hasLocalTag p then mismatch .taggedValue
      else match levels with
        | 0 => throw (.tooDeep p.mark)
        | levels + 1 => do
          let es ← es.mapM fun (key, value) => do
            let k ← contentAt levels ctx key
            let v ← contentAt levels (ctx.under key) value
            pure (k, v)
          pure (.mapping es)
    | _ => throw .cut

def content (ctx : Context) (node : Node) : Decode Content := contentAt ctx.levels ctx node

def Content.text? : Content → Option String
  | .scalar (.text s) => some s
  | _ => none

/-- The text that stands for a scalar: text itself, or a number or boolean written out. -/
def Content.scalarText? : Content → Option String
  | .scalar (.text s) => some s
  | .scalar (.int n) =>
    some (if n < Int.pow 2 63 then toString n else Decimal.positional (Binary64.ofInt n))
  | .scalar (.float x) => some (Decimal.positional x)
  | .scalar (.bool b) => some (if b then "true" else "false")
  | _ => none

/-- A scalar of any meaning but null, as text. -/
def scalarText (ctx : Context) (node : Node) : Decode String := do
  match (← content ctx node).scalarText? with
  | some s => pure s
  | none => mismatch (.noVariant "Scalar")

end ContractAudit.Decoding
