/-!
# Places in a YAML text

A cursor is the unread rest of a text together with its place: how many characters, lines and
columns lie before it, all counted from zero. A line ends with a line feed, a carriage return, both,
or one of the three other line ends of Unicode, which count as one break each.
-/

namespace ContractAudit.Yaml

/-- A place in a text: characters, lines and columns before it. -/
structure Mark where
  index : Nat := 0
  line : Nat := 0
  column : Nat := 0
  deriving DecidableEq, Repr, Inhabited

def isBreak (c : Char) : Bool :=
  c = '\n' || c = '\r' || c = '\u0085' || c = '\u2028' || c = '\u2029'

def isBlank (c : Char) : Bool := c = ' ' || c = '\t'

def isInk (c : Char) : Bool := !isBlank c && !isBreak c

/-- Characters that names of anchors, directives and tag handles are made of. -/
def isNameChar (c : Char) : Bool := c.isAlphanum || c = '_' || c = '-'

/-- A character that a YAML text may hold. -/
def isAllowed (c : Char) : Bool :=
  let n := c.toNat
  n = 0x9 || n = 0xA || n = 0xD || (0x20 ≤ n && n ≤ 0x7E) || n = 0x85 ||
    (0xA0 ≤ n && n ≤ 0xFFFD && n ≠ 0xFEFF) || 0x10000 ≤ n

/-- The unread rest of a text and its place. -/
structure Cursor where
  mark : Mark := {}
  rest : List Char
  deriving Repr

namespace Cursor

def peek (c : Cursor) : Option Char := c.rest.head?

def peekAt (c : Cursor) (n : Nat) : Option Char := c.rest[n]?

def isAt (c : Cursor) (x : Char) : Bool := c.peek == some x

def isAtOffset (c : Cursor) (n : Nat) (x : Char) : Bool := c.peekAt n == some x

/-- Whether a blank, a line end or the end of the text stands `n` places on. -/
def spaceAt (c : Cursor) (n : Nat) : Bool :=
  match c.peekAt n with
  | none => true
  | some x => !isInk x

def atBlank (c : Cursor) : Bool := c.peek.any isBlank

def atBreak (c : Cursor) : Bool := c.peek.any isBreak

/-- Whether a line end or the end of the text stands next. -/
def atLineEnd (c : Cursor) : Bool := c.rest.isEmpty || c.atBreak

def atEnd (c : Cursor) : Bool := c.rest.isEmpty

/-- Past `n` characters of the same line. -/
def advance (c : Cursor) (n : Nat) : Cursor :=
  let taken := (c.rest.take n).length
  { mark := { c.mark with index := c.mark.index + taken, column := c.mark.column + taken }
    rest := c.rest.drop n }

def next (c : Cursor) : Cursor := c.advance 1

/-- Past a line end, with what it contributes to a text: a line feed, except that the two
separators of Unicode stand for themselves. -/
def takeBreak (c : Cursor) : List Char × Cursor :=
  let past (n : Nat) : Cursor :=
    { mark := { index := c.mark.index + n, line := c.mark.line + 1, column := 0 }
      rest := c.rest.drop n }
  match c.rest with
  | '\r' :: '\n' :: _ => (['\n'], past 2)
  | x :: _ =>
    if x = '\u2028' ∨ x = '\u2029' then ([x], past 1)
    else if isBreak x then (['\n'], past 1)
    else ([], c)
  | [] => ([], c)

def skipBreak (c : Cursor) : Cursor := c.takeBreak.2

/-- The run of characters that satisfy `p`, which no line end does, and the cursor behind it. -/
def span (c : Cursor) (p : Char → Bool) : List Char × Cursor :=
  let taken := c.rest.takeWhile p
  (taken, { mark := { c.mark with index := c.mark.index + taken.length
                                  column := c.mark.column + taken.length }
            rest := c.rest.dropWhile p })

def skipWhile (c : Cursor) (p : Char → Bool) : Cursor := (c.span p).2

def skipComment (c : Cursor) : Cursor := if c.isAt '#' then c.skipWhile (!isBreak ·) else c

/-- Whether one of the two document markers begins a line here. -/
def atDocumentMarker (c : Cursor) : Bool :=
  c.mark.column = 0 && c.spaceAt 3 &&
    (['-', '-', '-'].isPrefixOf c.rest || ['.', '.', '.'].isPrefixOf c.rest)

end Cursor

end ContractAudit.Yaml
