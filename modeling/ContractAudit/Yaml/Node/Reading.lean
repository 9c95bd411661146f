import ContractAudit.Yaml.Node
import ContractAudit.Yaml.Token.Lexer

/-!
# Nodes of a token list

Reading follows the structure of the tokens. A collection ends with its closing token, an entry
without content is an absent scalar right behind its mark. Reading never throws its work away: where
it fails, the open collections are closed around a `cut` node and the reason is kept.

An anchor's number is the number of distinct names seen before it. Naming an anchor again does not
add a name, so a number may be given twice; then the later node has it.
-/

namespace ContractAudit.Yaml

/-- Why reading stopped inside a document. -/
inductive Stop where
  | malformed (e : SyntaxError)
  | unknownAnchor (mark : Mark)
  deriving DecidableEq, Repr

/-- The state of reading nodes. -/
structure Reading where
  tokens : List Token
  problem : Option SyntaxError
  anchors : List (String × Nat) := []
  handles : List (String × String) := []
  events : Nat := 0
  stop : Option Stop := none

namespace Reading

def peek (r : Reading) : Option Token := r.tokens.head?

def peekKind (r : Reading) : Option TokenKind := r.peek.map Token.kind

def skip (r : Reading) : Reading := { r with tokens := r.tokens.drop 1 }

/-- One more node boundary. -/
def count (r : Reading) : Reading := { r with events := r.events + 1 }

/-- Stops at the next token; at the end of the tokens the problem that ended them is the reason. -/
def fail (r : Reading) (p : Problem) : Reading :=
  let mark := (r.peek.map Token.start).getD {}
  let reason := match r.peek, r.problem with
    | none, some e => e
    | _, _ => ⟨p, mark⟩
  { r with stop := some (.malformed reason) }

def stopped (r : Reading) : Bool := r.stop.isSome

def bind (r : Reading) : Option String → Option Nat × Reading
  | none => (none, r)
  | some name =>
    let number := r.anchors.length
    (some number, { r with anchors := (name, number) :: r.anchors.filter (·.1 != name) })

end Reading

/-! ## Properties of a node -/

/-- The anchor and tag in front of a node, and where the first of them stands. -/
structure Lead where
  anchor : Option String := none
  tag : Option (String × String) := none
  start : Option Mark := none

/-- Reads an anchor and a tag, in either order, each at most once. -/
def readLead (r : Reading) : Lead × Reading :=
  match r.tokens with
  | ⟨.anchor name, start, _⟩ :: ⟨.tag handle suffix, _, _⟩ :: _ =>
    ({ anchor := some name, tag := some (handle, suffix), start }, r.skip.skip)
  | ⟨.tag handle suffix, start, _⟩ :: ⟨.anchor name, _, _⟩ :: _ =>
    ({ anchor := some name, tag := some (handle, suffix), start }, r.skip.skip)
  | ⟨.anchor name, start, _⟩ :: _ => ({ anchor := some name, start }, r.skip)
  | ⟨.tag handle suffix, start, _⟩ :: _ => ({ tag := some (handle, suffix), start }, r.skip)
  | _ => ({}, r)

/-- A tag with its handle replaced by what the handle stands for. -/
def resolveTag (handles : List (String × String)) (tag : String × String) : Option String :=
  if tag.1.isEmpty then some tag.2 else (handles.lookup tag.1).map (· ++ tag.2)

/-- Whether a token ends an entry of a block collection that has no content. -/
def endsBlockEntry (k : Option TokenKind) : Bool :=
  k == some .key || k == some .value || k == some .closeBlock

def endsFlowItem (k : TokenKind) : Bool := k = .flowEntry || k = .closeFlowSequence

def endsFlowEntry (k : TokenKind) : Bool := k = .flowEntry || k = .closeFlowMapping

/-! ## Nodes -/

mutual

/-- A node. Block collections are allowed where `block` is set, and a sequence at the indentation of
its mapping where `indentless` is. -/
def readNode : Nat → Bool → Bool → Reading → Node × Reading
  | 0, _, _, r => (.cut, r.fail .missingContent)
  | fuel + 1, block, indentless, r =>
    match r.tokens with
    | ⟨.alias name, start, _⟩ :: _ =>
      match r.anchors.lookup name with
      | some number => (.alias start number, r.skip.count)
      | none => (.cut, { r with stop := some (.unknownAnchor start) })
    | _ =>
      let (lead, r) := readLead r
      match r.tokens with
      | [] => (.cut, r.fail .missingContent)
      | token :: _ =>
        let mark := lead.start.getD token.start
        match lead.tag.map (resolveTag r.handles) with
        | some none => (.cut, r.fail .unknownHandle)
        | resolved =>
          let tag := resolved.join
          let (anchor, named) := r.bind lead.anchor
          let props : Props := { mark, anchor, tag }
          match token.kind with
          | .scalar style text =>
            let tag := if tag = some "!" then none else tag
            (.scalar { props with tag } style text, named.skip.count)
          | .openFlowSequence =>
            let (items, r) := readFlowItems fuel true [] named.skip.count
            (.sequence props items, r)
          | .openFlowMapping =>
            let (entries, r) := readFlowEntries fuel true [] named.skip.count
            (.mapping props entries, r)
          | kind =>
            if indentless && kind = .blockEntry then
              let (items, r) := readIndentlessItems fuel [] named.count
              (.sequence props items, r)
            else if block && kind = .openBlockSequence then
              let (items, r) := readBlockItems fuel [] named.skip.count
              (.sequence props items, r)
            else if block && kind = .openBlockMapping then
              let (entries, r) := readBlockEntries fuel [] named.skip.count
              (.mapping props entries, r)
            else if lead.start.isSome then
              let tag := if tag = some "!" then none else tag
              (.scalar { props with tag } .plain "", named.count)
            else (.cut, r.fail .missingContent)

def readBlockItems : Nat → List Node → Reading → List Node × Reading
  | 0, done, r => ((.cut :: done).reverse, r.fail .missingEntry)
  | fuel + 1, done, r =>
    match r.tokens with
    | ⟨.blockEntry, _, stop⟩ :: _ =>
      let r := r.skip
      let next := r.peekKind
      if next == some .blockEntry || next == some .closeBlock then
        readBlockItems fuel (.absent stop :: done) r.count
      else
        let (node, r) := readNode fuel true false r
        if r.stopped then ((node :: done).reverse, r) else readBlockItems fuel (node :: done) r
    | ⟨.closeBlock, _, _⟩ :: _ => (done.reverse, r.skip.count)
    | _ => ((.cut :: done).reverse, r.fail .missingEntry)

/-- The further items of a sequence at the indentation of its mapping. -/
def readIndentlessItems : Nat → List Node → Reading → List Node × Reading
  | 0, done, r => ((.cut :: done).reverse, r.fail .missingEntry)
  | fuel + 1, done, r =>
    match r.tokens with
    | ⟨.blockEntry, _, stop⟩ :: _ =>
      let r := r.skip
      let next := r.peekKind
      if next == some .blockEntry || endsBlockEntry next then
        readIndentlessItems fuel (.absent stop :: done) r.count
      else
        let (node, r) := readNode fuel true false r
        if r.stopped then ((node :: done).reverse, r) else readIndentlessItems fuel (node :: done) r
    | [] => ((.cut :: done).reverse, r.fail .missingEntry)
    | _ => (done.reverse, r.count)

def readBlockEntries : Nat → List (Node × Node) → Reading → List (Node × Node) × Reading
  | 0, done, r => (((.cut, .cut) :: done).reverse, r.fail .missingKey)
  | fuel + 1, done, r =>
    match r.tokens with
    | ⟨.key, _, stop⟩ :: _ =>
      let (key, r) : Node × Reading :=
        if endsBlockEntry r.skip.peekKind then (.absent stop, r.skip.count)
        else readNode fuel true true r.skip
      if r.stopped then (((key, .cut) :: done).reverse, r)
      else
        match r.tokens with
        | [] => (((key, .cut) :: done).reverse, r.fail .missingKey)
        | ⟨.value, _, stop⟩ :: _ =>
          let (value, r) : Node × Reading :=
            if endsBlockEntry r.skip.peekKind then (.absent stop, r.skip.count)
            else readNode fuel true true r.skip
          if r.stopped then (((key, value) :: done).reverse, r)
          else readBlockEntries fuel ((key, value) :: done) r
        | token :: _ => readBlockEntries fuel ((key, .absent token.start) :: done) r.count
    | ⟨.closeBlock, _, _⟩ :: _ => (done.reverse, r.skip.count)
    | _ => (((.cut, .cut) :: done).reverse, r.fail .missingKey)

/-- The further items of a bracketed sequence; all but the first follow a comma. -/
def readFlowItems : Nat → Bool → List Node → Reading → List Node × Reading
  | 0, _, done, r => ((.cut :: done).reverse, r.fail .missingSeparator)
  | fuel + 1, first, done, r =>
    if r.peekKind == some .closeFlowSequence then (done.reverse, r.skip.count)
    else if !first && r.peekKind != some .flowEntry then
      ((.cut :: done).reverse, r.fail .missingSeparator)
    else
      let r := if first then r else r.skip
      match r.tokens with
      | ⟨.closeFlowSequence, _, _⟩ :: _ => (done.reverse, r.skip.count)
      | ⟨.key, start, _⟩ :: _ =>
        let (entry, r) := readPair fuel r.skip.count
        let node : Node := .mapping { mark := start } [entry]
        if r.stopped then ((node :: done).reverse, r)
        else readFlowItems fuel false (node :: done) r.count
      | _ =>
        let (node, r) := readNode fuel false false r
        if r.stopped then ((node :: done).reverse, r)
        else readFlowItems fuel false (node :: done) r

/-- The one entry of a mapping that stands without braces in a bracketed sequence. A key mark
without a key takes the token behind it along. -/
def readPair : Nat → Reading → (Node × Node) × Reading
  | 0, r => ((.cut, .cut), r.fail .missingSeparator)
  | fuel + 1, r =>
    match r.tokens with
    | [] => ((.cut, .cut), r.fail .missingContent)
    | token :: _ =>
      let (key, r) : Node × Reading :=
        if token.kind = .value || endsFlowItem token.kind then (.absent token.stop, r.skip.count)
        else readNode fuel false false r
      if r.stopped then ((key, .cut), r)
      else
        let (value, r) := readFlowValue fuel endsFlowItem r
        ((key, value), r)

/-- The value of a bracketed entry, absent where one of the `ends` follows. -/
def readFlowValue : Nat → (TokenKind → Bool) → Reading → Node × Reading
  | 0, _, r => (.cut, r.fail .missingSeparator)
  | fuel + 1, ends, r =>
    match r.tokens with
    | [] => (.cut, r.fail .missingContent)
    | ⟨.value, _, _⟩ :: rest =>
      match rest with
      | [] => (.cut, r.skip.fail .missingContent)
      | token :: _ =>
        if ends token.kind then (.absent token.start, r.skip.count)
        else readNode fuel false false r.skip
    | token :: _ => (.absent token.start, r.count)

/-- The further entries of a bracketed mapping; all but the first follow a comma. -/
def readFlowEntries : Nat → Bool → List (Node × Node) → Reading → List (Node × Node) × Reading
  | 0, _, done, r => (((.cut, .cut) :: done).reverse, r.fail .missingSeparator)
  | fuel + 1, first, done, r =>
    if r.peekKind == some .closeFlowMapping then (done.reverse, r.skip.count)
    else if !first && r.peekKind != some .flowEntry then
      (((.cut, .cut) :: done).reverse, r.fail .missingSeparator)
    else
      let r := if first then r else r.skip
      match r.tokens with
      | [] => (((.cut, .cut) :: done).reverse, r.fail .missingSeparator)
      | ⟨.closeFlowMapping, _, _⟩ :: _ => (done.reverse, r.skip.count)
      | ⟨.key, _, _⟩ :: rest =>
        match rest with
        | [] => (((.cut, .cut) :: done).reverse, r.skip.fail .missingContent)
        | token :: _ =>
          let (key, r) : Node × Reading :=
            if token.kind = .value || endsFlowEntry token.kind then
              (.absent token.start, r.skip.count)
            else readNode fuel false false r.skip
          if r.stopped then (((key, .cut) :: done).reverse, r)
          else
            let (value, r) := readFlowValue fuel endsFlowEntry r
            if r.stopped then (((key, value) :: done).reverse, r)
            else readFlowEntries fuel false ((key, value) :: done) r
      | _ =>
        let (key, r) := readNode fuel false false r
        if r.stopped then (((key, .cut) :: done).reverse, r)
        else
          match r.tokens with
          | [] => (((key, .cut) :: done).reverse, r.fail .missingSeparator)
          | token :: _ =>
            readFlowEntries fuel false ((key, .absent token.start) :: done) r.count

end

/-! ## Documents -/

/-- Reads the directives in front of a document; the two usual handles are known without. -/
def readDirectives : Nat → Bool → Reading → Reading
  | 0, _, r => r.fail .missingDocumentStart
  | fuel + 1, versionSeen, r =>
    match r.tokens with
    | ⟨.versionDirective major minor, _, _⟩ :: _ =>
      if versionSeen then r.fail .repeatedDirective
      else if major = 1 && (minor = 1 || minor = 2) then readDirectives fuel true r.skip
      else r.fail .foreignVersion
    | ⟨.tagDirective handle lead, _, _⟩ :: _ =>
      if (r.handles.lookup handle).isSome then r.fail .repeatedDirective
      else readDirectives fuel versionSeen { r.skip with handles := (handle, lead) :: r.handles }
    | _ => { r with handles := r.handles ++ [("!", "!"), ("!!", "tag:yaml.org,2002:")] }

/-- The first document of a stream: its root, the number of its node boundaries, why it was cut off
if it was, and whether anything but the end of the stream follows it. -/
structure Loaded where
  root : Node
  events : Nat
  stop : Option Stop
  more : Bool
  deriving Repr

def followed (r : Reading) : Bool :=
  let tokens := r.tokens.dropWhile fun t => t.kind = .documentEnd
  (tokens.head?.map Token.kind) != some .streamEnd

/-- The document with a root read up to here. -/
def finishDocument (root : Node) (r : Reading) : Loaded :=
  if r.stopped then ⟨root, r.events, r.stop, false⟩
  else if r.tokens.isEmpty then ⟨root, r.events, (r.fail .missingContent).stop, false⟩
  else ⟨root, r.events, none, followed r⟩

/-- The first document of a token list. A document without content, like an empty stream, has an
absent root. -/
def readDocument (r : Reading) : Loaded :=
  let fuel := 4 * r.tokens.length + 8
  let ended (k : TokenKind) : Bool :=
    match k with
    | .versionDirective .. | .tagDirective .. | .documentStart | .documentEnd | .streamEnd => true
    | _ => false
  match r.tokens with
  | [] => ⟨.cut, 0, (r.fail .missingContent).stop, false⟩
  | token :: _ =>
    if token.kind = .streamEnd then ⟨.absent token.start, 1, none, false⟩
    else if ended token.kind && token.kind ≠ .documentEnd then
      let r := readDirectives fuel false r
      if r.stopped then ⟨.cut, 0, r.stop, false⟩
      else if r.peekKind != some .documentStart then
        ⟨.cut, 0, (r.fail .missingDocumentStart).stop, false⟩
      else
        let r := r.skip
        match r.tokens with
        | [] => ⟨.cut, 0, (r.fail .missingContent).stop, false⟩
        | token :: _ =>
          if ended token.kind then finishDocument (.absent token.start) r.count
          else
            let (root, r) := readNode fuel true false r
            finishDocument root r
    else
      let (root, r) := readNode fuel true false (readDirectives fuel false r)
      finishDocument root r

def load (s : String) : Loaded :=
  let (words, problem) := tokens s
  readDocument { tokens := words, problem }

end ContractAudit.Yaml
