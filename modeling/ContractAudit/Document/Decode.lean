import ContractAudit.Decoding.FromNode
import ContractAudit.Document.Basic
import ContractAudit.Yaml.Node.Reading

/-!
# Decoding contract maps

Each record of a map names its fields and how they are read. Texts are taken as they are written,
whatever they might mean; the version, enumerated values and foreign keys are scalars of any meaning
but null, written out as text. A text is a contract map if it is one YAML document and that decodes.
-/

namespace ContractAudit

open Decoding

/-! ## Records -/

/-- A field that holds a text. -/
def textField {δ : Type} (name : String) (set : δ → String → δ) : RecordField δ := .of name text set

/-- A field that holds a text or nothing. -/
def optionalTextField {δ : Type} (name : String) (set : δ → Option String → δ) : RecordField δ :=
  .of name (optional text) set

/-- A field that holds a free value or nothing. -/
def freeField {δ : Type} (name : String) (set : δ → Option Json → δ) : RecordField δ :=
  .of name (optional free) set

/-- A field that holds a list of scalars, or nothing for an empty list. -/
def scalarsField {δ : Type} (name : String) (set : δ → List String → δ) : RecordField δ :=
  .of name (optional (items scalarText)) fun d l => set d (l.getD [])

def Meta.decode : Context → Yaml.Node → Decode Meta :=
  record "Meta" [
    textField "name" fun m s => { m with name := s },
    textField "root" fun m s => { m with root := s }] [] {}

def NodeRecord.fields : List (RecordField NodeRecord) := [
  optionalTextField "kind" fun n s => { n with kind := s },
  optionalTextField "loc" fun n s => { n with loc := s },
  optionalTextField "note" fun n s => { n with note := s },
  optionalTextField "schema" fun n s => { n with schema := s },
  scalarsField "values" fun n l => { n with values := l },
  scalarsField "fk" fun n l => { n with fk := l },
  freeField "indexes" fun n v => { n with indexes := v },
  freeField "triggers" fun n v => { n with triggers := v },
  freeField "request" fun n v => { n with request := v },
  freeField "response" fun n v => { n with response := v },
  freeField "payload" fun n v => { n with payload := v },
  freeField "pre" fun n v => { n with pre := v },
  freeField "post" fun n v => { n with post := v },
  freeField "side_effects" fun n v => { n with sideEffects := v },
  freeField "errors" fun n v => { n with errors := v }]

def NodeRecord.decode : Context → Yaml.Node → Decode NodeRecord :=
  record "NodeRecord" NodeRecord.fields [] {}

def EdgeRecord.decode : Context → Yaml.Node → Decode EdgeRecord :=
  record "EdgeRecord" [
    textField "from" fun e s => { e with source := s },
    textField "to" fun e s => { e with target := s },
    textField "rel" fun e s => { e with rel := s },
    optionalTextField "note" fun e s => { e with note := s }]
    ["from", "to", "rel"] ⟨"", "", "", none⟩

/-- What follows a step, by its shape: a text is a destination, a mapping from texts to texts a
branch. -/
def Continuation.ofContent? : Content → Option Continuation
  | .mapping es =>
    (es.mapM fun (arm : Content × Content) => do
      let label ← arm.1.text?
      let raw ← arm.2.text?
      some (label, raw)).map fun arms => .branch (.ofList arms)
  | c => c.text?.map .target

def Continuation.decode (ctx : Context) (node : Yaml.Node) : Decode Continuation := do
  match Continuation.ofContent? (← content ctx node) with
  | some next => pure next
  | none => mismatch (.noVariant "Then")

def Step.fields : List (RecordField Step) := [
  textField "node" fun s id => { s with node := id },
  .of "then" Continuation.decode fun s next => { s with next }]

def Step.decode : Context → Yaml.Node → Decode Step :=
  record "Step" Step.fields ["node"] { node := "" }

def FlowRecord.fields : List (RecordField FlowRecord) := [
  textField "trigger" fun f s => { f with trigger := s },
  .of "steps" (items Step.decode) fun f steps => { f with steps }]

def FlowRecord.decode : Context → Yaml.Node → Decode FlowRecord :=
  record "FlowRecord" FlowRecord.fields [] {}

def InvariantRecord.decode : Context → Yaml.Node → Decode InvariantRecord :=
  record "InvariantRecord" [
    textField "id" fun i s => { i with id := s },
    textField "rule" fun i s => { i with rule := s },
    .of "scope" (items text) fun i scope => { i with scope },
    optionalTextField "enforce" fun i s => { i with enforce := s }] ["id"] { id := "" }

def Document.fields : List (RecordField Document) := [
  .of "version" scalarText fun d version => { d with version },
  .of "meta" Meta.decode fun d metadata => { d with metadata },
  .of "nodes" (named NodeRecord.decode) fun d l => { d with nodes := .ofList l },
  .of "edges" (items EdgeRecord.decode) fun d edges => { d with edges },
  .of "flows" (named FlowRecord.decode) fun d l => { d with flows := .ofList l },
  .of "invariants" (items InvariantRecord.decode) fun d invariants => { d with invariants }]

def Document.decode : Context → Yaml.Node → Decode Document :=
  record "Document" Document.fields [] {}

/-- The contract map a tree of nodes amounts to. `events` is the number of node boundaries in its
text, which bounds the aliases that may be followed. -/
def Document.ofNode (root : Yaml.Node) (events : Nat) : Except Fault Document :=
  let ctx : Context := { targets := root.anchored.reverse, jumpLimit := 100 * events }
  ((Document.decode ctx root).run 0).map Prod.fst

/-! ## Texts -/

/-- Why a text is not a contract map. -/
inductive ParseError where
  | malformed (e : Option Yaml.SyntaxError)
  | unknownAnchor (mark : Yaml.Mark)
  | severalDocuments
  | fault (f : Fault)
  deriving DecidableEq, Repr

def ParseError.message : ParseError → String
  | .malformed (some e) => e.message
  | .malformed none => "the text is not one YAML document"
  | .unknownAnchor mark => "unknown anchor" ++ atMark mark
  | .severalDocuments =>
    "deserializing from YAML containing more than one document is not supported"
  | .fault f => f.message

/-- Whether a text is refused before it is decoded. -/
def ParseError.isMalformed : ParseError → Bool
  | .malformed _ => true
  | _ => false

/-- The contract map of a text. The limits of decoding come first; then a text that is not one
document is refused whatever else is wrong with it. -/
def Document.parse (s : String) : Except ParseError Document :=
  let l := Yaml.load s
  match Document.ofNode l.root l.events with
  | .error (.tooDeep mark) => .error (.fault (.tooDeep mark))
  | .error .tooManyAliases => .error (.fault .tooManyAliases)
  | .error (.mismatch m place) =>
    match l.stop with
    | some (.malformed e) => .error (.malformed (some e))
    | some (.unknownAnchor _) => .error (.malformed none)
    | none => .error (if l.more then .malformed none else .fault (.mismatch m place))
  | .error .cut =>
    match l.stop with
    | some (.malformed e) => .error (.malformed (some e))
    | some (.unknownAnchor mark) => .error (.unknownAnchor mark)
    | none => .error (.malformed none)
  | .ok d =>
    match l.stop with
    | some (.malformed e) => .error (.malformed (some e))
    | some (.unknownAnchor mark) => .error (.unknownAnchor mark)
    | none => if l.more then .error .severalDocuments else .ok d

end ContractAudit
