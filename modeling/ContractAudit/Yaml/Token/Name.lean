import ContractAudit.Yaml.Token.Scalar

/-!
# Reading names, tags and directives

Anchors and aliases carry a name. A tag is a handle and a suffix, or one text between angle
brackets; bytes written as percent escapes are read as UTF-8. Directives stand at the start of a
line and end with it.
-/

namespace ContractAudit.Yaml

/-- The name of an anchor or alias behind its mark; what follows must not be part of a name. -/
def readAnchorName (c : Cursor) : Scan (String × Cursor) :=
  let (name, c) := c.span isNameChar
  let ends := c.spaceAt 0 || c.peek.any fun x =>
    x = '?' || x = ':' || x = ',' || x = ']' || x = '\x7d' || x = '%' || x = '@' || x = '`'
  if name.isEmpty || !ends then c.fail .badAnchor else .ok (String.ofList name, c)

/-! ## Tags -/

/-- A tag handle: an exclamation mark and name characters up to a second exclamation mark. In a
directive the second mark may be missing only from the handle that is a single mark. -/
def readTagHandle (directive : Bool) (c : Cursor) : Scan (List Char × Cursor) :=
  if !c.isAt '!' then c.fail .badTag
  else
    let (name, c) := c.next.span isNameChar
    if c.isAt '!' then .ok ('!' :: name ++ ['!'], c.next)
    else if directive && !name.isEmpty then c.fail .badTag
    else .ok ('!' :: name, c)

/-- A character of a tag; brackets and commas only where `verbatim` allows them. -/
def isUriChar (verbatim : Bool) (c : Char) : Bool :=
  isNameChar c || ";/?:@&=+$.%!~*'()".toList.contains c ||
    (verbatim && (c = ',' || c = '[' || c = ']'))

/-- The byte of a percent escape. -/
def percentByte? : List Char → Option Nat
  | '%' :: a :: b :: _ => do
    let a ← hexDigit? a
    let b ← hexDigit? b
    some (a * 16 + b)
  | _ => none

/-- The number of bytes of a character by its first one, and the bits that one holds. -/
def leadByte? (b : Nat) : Option (Nat × Nat) :=
  if b < 0x80 then some (1, b)
  else if 0xC0 ≤ b ∧ b < 0xE0 then some (2, b - 0xC0)
  else if 0xE0 ≤ b ∧ b < 0xF0 then some (3, b - 0xE0)
  else if 0xF0 ≤ b ∧ b < 0xF8 then some (4, b - 0xF0)
  else none

/-- The character that consecutive percent escapes spell, and how many escapes it takes. -/
def percentChar? (cs : List Char) : Option (Char × Nat) := do
  let b ← percentByte? cs
  let (width, bits) ← leadByte? b
  let bits ← (List.range (width - 1)).foldlM (fun bits i => do
    let b ← percentByte? (cs.drop (3 * (i + 1)))
    if 0x80 ≤ b ∧ b < 0xC0 then some (bits * 64 + (b - 0x80)) else none) bits
  some (Char.ofNat bits, width)

/-- The characters of a tag from here, put before `text`, which comes last character first. -/
def uriRun (verbatim : Bool) : Nat → List Char → Cursor → Scan (List Char × Cursor)
  | 0, text, c => .ok (text, c)
  | fuel + 1, text, c =>
    match c.peek with
    | none => .ok (text, c)
    | some x =>
      if x = '%' then
        match percentChar? c.rest with
        | none => c.fail .badUri
        | some (y, escapes) => uriRun verbatim fuel (y :: text) (c.advance (3 * escapes))
      else if isUriChar verbatim x then uriRun verbatim fuel (x :: text) c.next
      else .ok (text, c)

/-- A text of tag characters behind `head`, of which the leading exclamation mark is dropped. -/
def readUri (verbatim : Bool) (head : List Char) (c : Cursor) : Scan (List Char × Cursor) :=
  match uriRun verbatim (c.rest.length + 1) (head.drop 1).reverse c with
  | .error e => .error e
  | .ok (text, c') =>
    if head.isEmpty && text.isEmpty then c'.fail .badUri else .ok (text.reverse, c')

/-- A tag: its handle and its suffix. A tag between angle brackets has no handle, the lone
exclamation mark neither. -/
def readTag (inFlow : Bool) (c : Cursor) : Scan (String × String × Cursor) := do
  let (handle, suffix, c) ←
    if c.isAtOffset 1 '<' then do
      let (suffix, c) ← readUri true [] (c.advance 2)
      if c.isAt '>' then .ok (([] : List Char), suffix, c.next) else c.fail .badTag
    else do
      let (handle, c) ← readTagHandle false c
      if 1 < handle.length && handle.getLast? = some '!' then do
        let (suffix, c) ← readUri false [] c
        .ok (handle, suffix, c)
      else do
        let (suffix, c) ← readUri false handle c
        if suffix.isEmpty then .ok ([], ['!'], c) else .ok (['!'], suffix, c)
  if c.spaceAt 0 || (inFlow && c.isAt ',') then
    .ok (String.ofList handle, String.ofList suffix, c)
  else c.fail .badTag

/-! ## Directives -/

/-- A part of a version: at most nine digits. -/
def readVersionPart (c : Cursor) : Scan (Nat × Cursor) :=
  let (ds, c) := c.span Char.isDigit
  if ds.isEmpty || 9 < ds.length then c.fail .badDirective
  else .ok (ds.foldl (fun n d => n * 10 + (d.toNat - 48)) 0, c)

/-- A directive up to its last word. -/
def readDirectiveWords (c : Cursor) : Scan (TokenKind × Cursor) := do
  let (name, c) := c.span isNameChar
  if name.isEmpty || !c.spaceAt 0 then c.fail .badDirective
  else
    let c := c.skipWhile isBlank
    if name = ['Y', 'A', 'M', 'L'] then do
      let (major, c) ← readVersionPart c
      if !c.isAt '.' then c.fail .badDirective
      else do
        let (minor, c) ← readVersionPart c.next
        .ok (.versionDirective major minor, c)
    else if name = ['T', 'A', 'G'] then do
      let (handle, c) ← readTagHandle true c
      if !c.atBlank then c.fail .badDirective
      else do
        let (lead, c) ← readUri true [] (c.skipWhile isBlank)
        if !c.spaceAt 0 then c.fail .badDirective
        else .ok (.tagDirective (String.ofList handle) (String.ofList lead), c)
    else c.fail .badDirective

/-- A directive behind its percent sign: the token, where its words end, and the cursor on the next
line. -/
def readDirective (c : Cursor) : Scan (TokenKind × Mark × Cursor) := do
  let (kind, c) ← readDirectiveWords c
  let stop := c.mark
  let c := (c.skipWhile isBlank).skipComment
  if c.atLineEnd then .ok (kind, stop, c.skipBreak) else c.fail .badDirective

end ContractAudit.Yaml
