import ContractAudit.Yaml.Token

/-!
# Reading scalars

A scalar may run over several lines. Between two of its lines the white space is a gap: a single
line end becomes a space, further line ends stay. Plain scalars end where the text stops being
theirs, quoted ones at their quote, block scalars where the indentation falls back.
-/

namespace ContractAudit.Yaml

/-- Reading that may find a problem. -/
abbrev Scan (α : Type) := Except SyntaxError α

/-- A problem at a cursor. -/
def Cursor.fail {α : Type} (c : Cursor) (p : Problem) : Scan α := .error ⟨p, c.mark⟩

/-! ## Gaps -/

/-- White space inside a scalar: blanks, last first, or from the first line end on what that and
the further line ends contribute. -/
structure Gap where
  blanks : List Char := []
  broken : Bool := false
  lead : List Char := []
  trail : List Char := []

/-- What a gap contributes to the scalar. -/
def Gap.text (g : Gap) : List Char :=
  if g.broken then
    if g.lead = ['\n'] then (if g.trail.isEmpty then [' '] else g.trail) else g.lead ++ g.trail
  else g.blanks.reverse

/-- The gap at a cursor, continuing one begun before. Left of column `limit` a continuation line
must not be indented by tabs. -/
def readGap (limit : Nat) : Nat → Gap → Cursor → Scan (Gap × Cursor)
  | 0, g, c => .ok (g, c)
  | fuel + 1, g, c =>
    if c.atBlank then
      if g.broken then
        if c.isAt '\t' && c.mark.column < limit then c.fail .tabInIndentation
        else readGap limit fuel g c.next
      else readGap limit fuel { g with blanks := c.rest.take 1 ++ g.blanks } c.next
    else if c.atBreak then
      let (b, c') := c.takeBreak
      if g.broken then readGap limit fuel { g with trail := g.trail ++ b } c'
      else readGap limit fuel { g with blanks := [], broken := true, lead := b } c'
    else .ok (g, c)

/-! ## Plain scalars -/

/-- A mark that ends a plain scalar inside brackets. -/
def isFlowMark (c : Char) : Bool := c = ',' || c = '[' || c = ']' || c = '\x7b' || c = '\x7d'

/-- The ink of a plain scalar from here, last first; none where a colon runs into a bracket. -/
def plainRun (inFlow : Bool) : List Char → List Char → Option (List Char)
  | run, [] => some run
  | run, c :: cs =>
    if !isInk c then some run
    else if inFlow && c = ':' && cs.head?.any (fun d => isFlowMark d || d = '?') then none
    else if (c = ':' && !cs.head?.any isInk) || (inFlow && isFlowMark c) then some run
    else plainRun inFlow (c :: run) cs

/-- A scalar that has been read: its text, last character first, whether a gap with a line end
follows, where it stops and where reading goes on. -/
structure PlainText where
  text : List Char
  broken : Bool
  stop : Mark
  cursor : Cursor

/-- The rest of a plain scalar whose continuation lines must reach column `limit`. -/
def readPlain (inFlow : Bool) (limit : Nat) : Nat → List Char → Gap → Mark → Cursor → Scan PlainText
  | 0, text, gap, stop, c => .ok ⟨text, gap.broken, stop, c⟩
  | fuel + 1, text, gap, stop, c =>
    if c.atDocumentMarker || c.isAt '#' then .ok ⟨text, gap.broken, stop, c⟩
    else
      match plainRun inFlow [] c.rest with
      | none => c.fail .badFlowColon
      | some run =>
        let c' := c.advance run.length
        let (text, gap, stop) : List Char × Gap × Mark :=
          if run.isEmpty then (text, gap, stop) else (run ++ gap.text.reverse ++ text, {}, c'.mark)
        if c'.atBlank || c'.atBreak then
          match readGap limit (fuel + 1) gap c' with
          | .error e => .error e
          | .ok (gap, c'') =>
            if !inFlow && c''.mark.column < limit then .ok ⟨text, gap.broken, stop, c''⟩
            else readPlain inFlow limit fuel text gap stop c''
        else .ok ⟨text, gap.broken, stop, c'⟩

/-! ## Quoted scalars -/

/-- The character a one-letter escape stands for. -/
def simpleEscape? (c : Char) : Option Char :=
  match c with
  | '0' => some '\x00'
  | 'a' => some '\x07'
  | 'b' => some '\x08'
  | 't' => some '\t'
  | '\t' => some '\t'
  | 'n' => some '\n'
  | 'v' => some '\x0b'
  | 'f' => some '\x0c'
  | 'r' => some '\r'
  | 'e' => some '\x1b'
  | ' ' => some ' '
  | '"' => some '"'
  | '/' => some '/'
  | '\\' => some '\\'
  | 'N' => some '\u0085'
  | '_' => some '\u00A0'
  | 'L' => some '\u2028'
  | 'P' => some '\u2029'
  | _ => none

/-- The number of hexadecimal digits behind an escape by code point. -/
def escapeWidth? (c : Char) : Option Nat :=
  match c with
  | 'x' => some 2
  | 'u' => some 4
  | 'U' => some 8
  | _ => none

/-- The value of a hexadecimal digit. -/
def hexDigit? (c : Char) : Option Nat :=
  if '0' ≤ c ∧ c ≤ '9' then some (c.toNat - 48)
  else if 'a' ≤ c ∧ c ≤ 'f' then some (c.toNat - 87)
  else if 'A' ≤ c ∧ c ≤ 'F' then some (c.toNat - 55)
  else none

/-- The value of a text of hexadecimal digits. -/
def hexNumber? (ds : List Char) : Option Nat :=
  ds.foldlM (fun n d => (hexDigit? d).map (n * 16 + ·)) 0

/-- The character of a code point escape of `width` digits. -/
def codePoint? (width : Nat) (cs : List Char) : Option Char :=
  let ds := cs.take width
  if ds.length < width then none
  else (hexNumber? ds).bind fun n =>
    if (0xD800 ≤ n ∧ n ≤ 0xDFFF) ∨ 0x10FFFF < n then none else some (Char.ofNat n)

/-- The ink of a quoted scalar from here, put before `text`, and whether it ends in an escaped line
end. -/
def quotedRun (single : Bool) : Nat → List Char → Cursor → Scan (List Char × Bool × Cursor)
  | 0, text, c => .ok (text, false, c)
  | fuel + 1, text, c =>
    match c.rest with
    | [] => .ok (text, false, c)
    | x :: cs =>
      if !isInk x then .ok (text, false, c)
      else if single then
        if x = '\'' then
          if cs.head? = some '\'' then quotedRun single fuel ('\'' :: text) (c.advance 2)
          else .ok (text, false, c)
        else quotedRun single fuel (x :: text) c.next
      else if x = '"' then .ok (text, false, c)
      else if x = '\\' then
        match cs with
        | [] => c.fail .badEscape
        | e :: ds =>
          if isBreak e then .ok (text, true, c.next.skipBreak)
          else match simpleEscape? e with
            | some y => quotedRun single fuel (y :: text) (c.advance 2)
            | none =>
              match escapeWidth? e with
              | none => c.fail .badEscape
              | some width =>
                match codePoint? width ds with
                | none => c.fail .badEscape
                | some y => quotedRun single fuel (y :: text) (c.advance (2 + width))
      else quotedRun single fuel (x :: text) c.next

/-- The rest of a quoted scalar behind its first quote: its text, last character first, and the
cursor behind the closing quote. -/
def readQuoted (single : Bool) : Nat → List Char → Cursor → Scan (List Char × Cursor)
  | 0, _, c => c.fail .unclosedQuote
  | fuel + 1, text, c =>
    if c.atDocumentMarker then c.fail .markerInQuote
    else if c.atEnd then c.fail .unclosedQuote
    else
      match quotedRun single (fuel + 1) text c with
      | .error e => .error e
      | .ok (text, escaped, c) =>
        if c.isAt (if single then '\'' else '"') then .ok (text, c.next)
        else
          match readGap 0 (fuel + 1) { broken := escaped } c with
          | .error e => .error e
          | .ok (gap, c) => readQuoted single fuel (gap.text.reverse ++ text) c

/-! ## Block scalars -/

/-- What becomes of the line ends behind a block scalar. -/
inductive Chomping where
  | strip
  | clip
  | keep
  deriving DecidableEq, Repr

/-- The header of a block scalar behind its mark: chomping and an indentation of its own, in
either order. -/
def blockHeader (c : Cursor) : Scan (Chomping × Nat × Cursor) :=
  let chomping? (c : Cursor) : Option Chomping :=
    if c.isAt '+' then some .keep else if c.isAt '-' then some .strip else none
  let digit? (c : Cursor) : Option Nat :=
    c.peek.bind fun x => if x.isDigit then some (x.toNat - 48) else none
  match chomping? c with
  | some k =>
    match digit? c.next with
    | some 0 => c.fail .badBlockHeader
    | some n => .ok (k, n, c.advance 2)
    | none => .ok (k, 0, c.next)
  | none =>
    match digit? c with
    | some 0 => c.fail .badBlockHeader
    | some n =>
      match chomping? c.next with
      | some k => .ok (k, n, c.advance 2)
      | none => .ok (.clip, n, c.next)
    | none => .ok (.clip, 0, c)

/-- Past the indentation of a line: spaces up to column `indent`, or all spaces while the
indentation is still unknown (zero). -/
def skipIndentation (indent : Nat) (c : Cursor) : Cursor :=
  let spaces := (c.rest.takeWhile (· = ' ')).length
  c.advance (if indent = 0 then spaces else min spaces (indent - c.mark.column))

/-- Past empty lines: the line ends they contribute, the widest indentation seen, and the cursor at
the next line that is not empty, behind its indentation. -/
def emptyLines (indent : Nat) : Nat → List Char → Nat → Cursor → Scan (List Char × Nat × Cursor)
  | 0, breaks, widest, c => .ok (breaks, widest, c)
  | fuel + 1, breaks, widest, c =>
    let c := skipIndentation indent c
    let widest := max widest c.mark.column
    if (indent = 0 || c.mark.column < indent) && c.isAt '\t' then c.fail .tabInIndentation
    else if c.atBreak then
      let (b, c') := c.takeBreak
      emptyLines indent fuel (breaks ++ b) widest c'
    else .ok (breaks, widest, c)

/-- Past empty lines, settling an indentation that is still unknown: the widest seen, at least
`least`. -/
def settleIndentation (fuel indent least : Nat) (c : Cursor) : Scan (List Char × Nat × Cursor) :=
  match emptyLines indent fuel [] 0 c with
  | .error e => .error e
  | .ok (breaks, widest, c) =>
    .ok (breaks, if indent = 0 then max widest least else indent, c)

/-- What lies between the lines of a block scalar read so far and the next one. -/
structure BlockGap where
  lead : List Char := []
  trail : List Char := []
  blankLine : Bool := false

/-- The lines of a block scalar from here, put before `text`. -/
def readBlock (literal : Bool) (indent : Nat) :
    Nat → List Char → BlockGap → Cursor → Scan (List Char × BlockGap × Cursor)
  | 0, text, gap, c => .ok (text, gap, c)
  | fuel + 1, text, gap, c =>
    if c.mark.column = indent && !c.atEnd then
      let joined : List Char :=
        if !literal && gap.lead.head? = some '\n' && !gap.blankLine && !c.atBlank then
          if gap.trail.isEmpty then [' '] else []
        else gap.lead
      let startsBlank := c.atBlank
      let (line, c) := c.span (!isBreak ·)
      let (lead, c) := c.takeBreak
      match settleIndentation (fuel + 1) indent 0 c with
      | .error e => .error e
      | .ok (trail, _, c) =>
        readBlock literal indent fuel
          (line.reverse ++ (gap.trail.reverse ++ (joined.reverse ++ text)))
          { lead, trail, blankLine := startsBlank } c
    else .ok (text, gap, c)

/-- A block scalar behind its mark, inside a collection indented to `parent`. -/
def blockScalar (fuel : Nat) (literal : Bool) (parent : Int) (c : Cursor) :
    Scan (List Char × Cursor) := do
  let (chomping, increment, c) ← blockHeader c
  let c := (c.skipWhile isBlank).skipComment
  if !c.atLineEnd then c.fail .badBlockHeader
  else
    let c := c.skipBreak
    let given := if increment = 0 then 0 else (max parent 0).toNat + increment
    let (breaks, indent, c) ← settleIndentation fuel given (max (parent + 1) 1).toNat c
    let (text, gap, c) ← readBlock literal indent fuel [] { trail := breaks } c
    let tail : List Char := match chomping with
      | .strip => []
      | .clip => gap.lead
      | .keep => gap.lead ++ gap.trail
    .ok (text.reverse ++ tail, c)

end ContractAudit.Yaml
