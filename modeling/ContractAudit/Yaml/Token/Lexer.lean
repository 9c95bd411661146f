import ContractAudit.Yaml.Token.Name

/-!
# Tokens of a text

The lexer keeps the indentations of the open block collections and, for each level of brackets, a
token that may turn out to be a key. Such a token stays on one line and within 1024 characters of
its colon; when the colon comes, the key token is put in front of it. So the tokens up to a pending
one are settled only once it is decided, and when reading fails, only the settled tokens stand.
-/

namespace ContractAudit.Yaml

/-- A token that may be a key: its number, its place, and whether it has to be one. -/
structure PendingKey where
  number : Nat
  mark : Mark
  required : Bool
  deriving Repr

/-- The state of reading tokens. `size` is the number of characters of the text, which bounds every
loop. `tokens` holds the tokens read so far, the last first, and `keys` the pending key of each
bracket level, the innermost first. -/
structure Lexer where
  cursor : Cursor
  size : Nat
  tokens : List Token := []
  count : Nat := 0
  keys : List (Option PendingKey) := [none]
  keyAllowed : Bool := true
  indent : Int := -1
  indents : List Int := []
  finished : Bool := false

namespace Lexer

/-- Whether a bracket is open. -/
def inFlow (l : Lexer) : Bool := l.keys.length ≠ 1

/-- The column of the cursor. -/
def column (l : Lexer) : Int := l.cursor.mark.column

/-- Adds a token at the end. -/
def push (l : Lexer) (kind : TokenKind) (start stop : Mark) : Lexer :=
  { l with tokens := ⟨kind, start, stop⟩ :: l.tokens, count := l.count + 1 }

/-- Puts a token of no extent in front of token `number`. -/
def insertAt (l : Lexer) (number : Nat) (kind : TokenKind) (mark : Mark) : Lexer :=
  let behind := l.count - number
  { l with tokens := l.tokens.take behind ++ ⟨kind, mark, mark⟩ :: l.tokens.drop behind
           count := l.count + 1 }

/-- Adds the token of a mark of `width` characters and moves past it. -/
def pushMark (l : Lexer) (kind : TokenKind) (width : Nat) : Lexer :=
  let stop := l.cursor.advance width
  { l.push kind l.cursor.mark stop.mark with cursor := stop }

/-! ## Indentation -/

/-- Closes the block collections indented deeper than `column`. -/
def unroll (column : Int) : List Int → Lexer → Lexer
  | [], l => l
  | outer :: rest, l =>
    if column < l.indent then
      unroll column rest
        { l.push .closeBlock l.cursor.mark l.cursor.mark with indent := outer, indents := rest }
    else l

/-- Closes what a token at this column ends; brackets ignore indentation. -/
def unrollTo (l : Lexer) (column : Int) : Lexer :=
  if l.inFlow then l else unroll column l.indents l

/-- Opens a block collection at `column` unless one is open there; its token goes in front of token
`number`. -/
def roll (l : Lexer) (column : Int) (number : Nat) (kind : TokenKind) (mark : Mark) : Lexer :=
  if !l.inFlow && l.indent < column then
    { l.insertAt number kind mark with indents := l.indent :: l.indents, indent := column }
  else l

/-! ## Pending keys -/

/-- Gives up a pending key. -/
def dropKey (l : Lexer) : Scan Lexer :=
  match l.keys with
  | some k :: rest =>
    if k.required then .error ⟨.missingColon, k.mark⟩ else .ok { l with keys := none :: rest }
  | _ => .ok l

/-- Notes that the next token may be a key. -/
def noteKey (l : Lexer) : Scan Lexer :=
  if l.keyAllowed then
    match l.dropKey with
    | .error e => .error e
    | .ok l =>
      let key : PendingKey := ⟨l.count, l.cursor.mark, !l.inFlow && l.indent = l.column⟩
      .ok { l with keys := some key :: l.keys.drop 1 }
  else .ok l

/-- Gives up the pending keys whose colon can no longer come. -/
def dropStaleKeys (l : Lexer) : Scan Lexer :=
  let here := l.cursor.mark
  let stale (k : PendingKey) : Bool := k.mark.line < here.line || k.mark.index + 1024 < here.index
  let checked : Scan (List (Option PendingKey)) := l.keys.mapM fun key =>
    match key with
    | none => .ok none
    | some k =>
      if stale k then if k.required then .error ⟨.missingColon, k.mark⟩ else .ok none
      else .ok (some k)
  match checked with
  | .error e => .error e
  | .ok keys => .ok { l with keys }

/-! ## White space -/

/-- Past blanks, comments and line ends. A tab separates tokens only where no key can start. -/
def skipSpace : Nat → Lexer → Lexer
  | 0, l => l
  | fuel + 1, l =>
    let tabs := l.inFlow || !l.keyAllowed
    let c := (l.cursor.skipWhile fun x => x = ' ' || (tabs && x = '\t')).skipComment
    if c.atBreak then
      skipSpace fuel { l with cursor := c.skipBreak, keyAllowed := l.keyAllowed || !l.inFlow }
    else { l with cursor := c }

/-! ## Tokens -/

/-- The end of the text closes everything. -/
def fetchEnd (l : Lexer) : Scan Lexer :=
  let m := l.cursor.mark
  let m := if m.column = 0 then m else { m with line := m.line + 1, column := 0 }
  let l := { l with cursor := { l.cursor with mark := m } }
  match (l.unrollTo (-1)).dropKey with
  | .error e => .error e
  | .ok l => .ok { l.push .streamEnd m m with keyAllowed := false, finished := true }

/-- A directive. -/
def fetchDirective (l : Lexer) : Scan Lexer :=
  match (l.unrollTo (-1)).dropKey with
  | .error e => .error e
  | .ok l =>
    match readDirective l.cursor.next with
    | .error e => .error e
    | .ok (kind, stop, c) =>
      .ok { l.push kind l.cursor.mark stop with cursor := c, keyAllowed := false }

/-- A document marker. -/
def fetchDocumentMarker (l : Lexer) (kind : TokenKind) : Scan Lexer :=
  match (l.unrollTo (-1)).dropKey with
  | .error e => .error e
  | .ok l => .ok { l.pushMark kind 3 with keyAllowed := false }

/-- An opening bracket may begin a key and starts a level of its own. -/
def fetchOpen (l : Lexer) (kind : TokenKind) : Scan Lexer :=
  match l.noteKey with
  | .error e => .error e
  | .ok l => .ok { l.pushMark kind 1 with keys := none :: l.keys, keyAllowed := true }

/-- A closing bracket ends the innermost level, if there is one. -/
def fetchClose (l : Lexer) (kind : TokenKind) : Scan Lexer :=
  match l.dropKey with
  | .error e => .error e
  | .ok l =>
    let keys := if l.inFlow then l.keys.drop 1 else l.keys
    .ok { l.pushMark kind 1 with keys, keyAllowed := false }

/-- A comma. -/
def fetchFlowEntry (l : Lexer) : Scan Lexer :=
  match l.dropKey with
  | .error e => .error e
  | .ok l => .ok { l.pushMark .flowEntry 1 with keyAllowed := true }

/-- A dash in front of an entry. -/
def fetchBlockEntry (l : Lexer) : Scan Lexer :=
  if !l.inFlow && !l.keyAllowed then l.cursor.fail .misplacedEntry
  else
    match (l.roll l.column l.count .openBlockSequence l.cursor.mark).dropKey with
    | .error e => .error e
    | .ok l => .ok { l.pushMark .blockEntry 1 with keyAllowed := true }

/-- A question mark in front of a key. -/
def fetchKey (l : Lexer) : Scan Lexer :=
  if !l.inFlow && !l.keyAllowed then l.cursor.fail .misplacedKey
  else
    match (l.roll l.column l.count .openBlockMapping l.cursor.mark).dropKey with
    | .error e => .error e
    | .ok l => .ok { l.pushMark .key 1 with keyAllowed := !l.inFlow }

/-- A colon in front of a value. It settles the pending key, or stands for itself. -/
def fetchValue (l : Lexer) : Scan Lexer :=
  match l.keys with
  | some k :: rest =>
    let l := { l.insertAt k.number .key k.mark with keys := none :: rest }
    let l := l.roll k.mark.column k.number .openBlockMapping k.mark
    .ok { l.pushMark .value 1 with keyAllowed := false }
  | _ =>
    if !l.inFlow && !l.keyAllowed then l.cursor.fail .misplacedValue
    else
      let l := l.roll l.column l.count .openBlockMapping l.cursor.mark
      .ok { l.pushMark .value 1 with keyAllowed := !l.inFlow }

/-- An anchor or alias. -/
def fetchAnchor (l : Lexer) (kind : String → TokenKind) : Scan Lexer :=
  match l.noteKey with
  | .error e => .error e
  | .ok l =>
    match readAnchorName l.cursor.next with
    | .error e => .error e
    | .ok (name, c) =>
      .ok { l.push (kind name) l.cursor.mark c.mark with cursor := c, keyAllowed := false }

/-- A tag. -/
def fetchTag (l : Lexer) : Scan Lexer :=
  match l.noteKey with
  | .error e => .error e
  | .ok l =>
    match readTag l.inFlow l.cursor with
    | .error e => .error e
    | .ok (handle, suffix, c) =>
      .ok { l.push (.tag handle suffix) l.cursor.mark c.mark with cursor := c, keyAllowed := false }

/-- A block scalar. -/
def fetchBlockScalar (l : Lexer) (literal : Bool) : Scan Lexer :=
  match l.dropKey with
  | .error e => .error e
  | .ok l =>
    match blockScalar (l.size + 1) literal l.indent l.cursor.next with
    | .error e => .error e
    | .ok (text, c) =>
      .ok { l.push (.scalar .block (String.ofList text)) l.cursor.mark c.mark with
            cursor := c, keyAllowed := true }

/-- A quoted scalar. -/
def fetchQuoted (l : Lexer) (single : Bool) : Scan Lexer :=
  match l.noteKey with
  | .error e => .error e
  | .ok l =>
    let c := l.cursor.next
    match readQuoted single (l.size + 1) [] c with
    | .error e => .error e
    | .ok (text, c) =>
      .ok { l.push (.scalar .quoted (String.ofList text.reverse)) l.cursor.mark c.mark with
            cursor := c, keyAllowed := false }

/-- A plain scalar. -/
def fetchPlain (l : Lexer) : Scan Lexer :=
  match l.noteKey with
  | .error e => .error e
  | .ok l =>
    let c := l.cursor
    match readPlain l.inFlow (l.indent + 1).toNat (l.size + 1) [] {} c.mark c with
    | .error e => .error e
    | .ok p =>
      .ok { l.push (.scalar .plain (String.ofList p.text.reverse)) c.mark p.stop with
            cursor := p.cursor, keyAllowed := p.broken }

/-- A character that cannot begin a plain scalar. -/
def isIndicator (c : Char) : Bool := "-?:,[]\x7b\x7d#&*!|>'\"%@`".toList.contains c

/-- Whether a plain scalar begins at a cursor. -/
def startsPlain (inFlow : Bool) (c : Cursor) : Bool :=
  match c.peek with
  | none => false
  | some x =>
    (isInk x && !isIndicator x) ||
      (x = '-' && !(c.peekAt 1).any isBlank) ||
      (!inFlow && (x = '?' || x = ':') && !c.spaceAt 1)

/-- The token at a cursor that stands on no white space. -/
def fetchToken (l : Lexer) : Scan Lexer :=
  let c := l.cursor
  match c.peek with
  | none => l.fetchEnd
  | some x =>
    if c.mark.column = 0 && x = '%' then l.fetchDirective
    else if c.atDocumentMarker then
      l.fetchDocumentMarker (if x = '-' then .documentStart else .documentEnd)
    else if x = '[' then l.fetchOpen .openFlowSequence
    else if x = '\x7b' then l.fetchOpen .openFlowMapping
    else if x = ']' then l.fetchClose .closeFlowSequence
    else if x = '\x7d' then l.fetchClose .closeFlowMapping
    else if x = ',' then l.fetchFlowEntry
    else if x = '-' && c.spaceAt 1 then l.fetchBlockEntry
    else if x = '?' && (l.inFlow || c.spaceAt 1) then l.fetchKey
    else if x = ':' && (l.inFlow || c.spaceAt 1) then l.fetchValue
    else if x = '*' then l.fetchAnchor .alias
    else if x = '&' then l.fetchAnchor .anchor
    else if x = '!' then l.fetchTag
    else if x = '|' && !l.inFlow then l.fetchBlockScalar true
    else if x = '>' && !l.inFlow then l.fetchBlockScalar false
    else if x = '\'' then l.fetchQuoted true
    else if x = '"' then l.fetchQuoted false
    else if startsPlain l.inFlow c then l.fetchPlain
    else c.fail .noToken

/-- Reads on to the next token. -/
def advance (l : Lexer) : Scan Lexer :=
  match (skipSpace (l.size + 1) l).dropStaleKeys with
  | .error e => .error e
  | .ok l =>
    match (l.unrollTo l.column).fetchToken with
    | .error e => .error e
    | .ok l => l.dropStaleKeys

/-- The number of tokens that are settled: those in front of every pending key. -/
def settled (l : Lexer) : Nat :=
  l.keys.foldl (fun n key => match key with
    | some k => min n k.number
    | none => n) l.count

/-- Reads all tokens; where reading fails, the settled ones and the problem. -/
def run : Nat → Lexer → List Token × Option SyntaxError
  | 0, l => (l.tokens.reverse, none)
  | fuel + 1, l =>
    if l.finished then (l.tokens.reverse, none)
    else
      match l.advance with
      | .ok l => run fuel l
      | .error e => (l.tokens.reverse.take l.settled, some e)

end Lexer

/-- The tokens of a text, and the problem that ends them early if the text is no YAML stream. A
byte order mark in front of the text is skipped. -/
def tokens (s : String) : List Token × Option SyntaxError :=
  let cs := s.toList
  let c : Cursor := match cs with
    | '\uFEFF' :: rest => { rest }
    | _ => { rest := cs }
  match c.rest.find? (!isAllowed ·) with
  | some _ => ([], some ⟨.forbiddenCharacter, c.mark⟩)
  | none => Lexer.run (c.rest.length + 2) { cursor := c, size := c.rest.length }

end ContractAudit.Yaml
