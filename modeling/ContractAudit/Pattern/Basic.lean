import ContractAudit.Text.Blank
import ContractAudit.Text.CaseFold
import ContractAudit.Text.WordChar

/-!
# Patterns

A pattern describes pieces of text. Some patterns look at what stands around the piece: whether a
line starts or ends there, or whether a word does. So a piece matches between the character before
it and the character after it, where there are such. `Matches` is the meaning of a pattern; to
search for one is another module.
-/

namespace ContractAudit

inductive CharSet where
  | literal (c : Char)
  | blank
  | ranges (negated : Bool) (rs : List (Char × Char))
  deriving DecidableEq, Repr

namespace CharSet

/-- Whether a character lies in a range, perhaps up to case. -/
def rangeHas (anyCase : Bool) (r : Char × Char) (c : Char) : Bool :=
  if anyCase then
    let f := Text.foldCase c
    (List.range (r.2.toNat + 1 - r.1.toNat)).any fun i =>
      Text.foldCase (Char.ofNat (r.1.toNat + i)) == f
  else r.1 ≤ c && c ≤ r.2

/-- Whether a character is in the set. With `anyCase` it is enough that a case variant is; what a
negated set excludes is widened in the same way. -/
def has (anyCase : Bool) : CharSet → Char → Bool
  | .literal d, c => if anyCase then Text.foldCase d == Text.foldCase c else d == c
  | .blank, c => Text.isBlank c
  | .ranges negated rs, c => (rs.any fun r => rangeHas anyCase r c) != negated

end CharSet

inductive Pattern where
  | empty
  | char (anyCase : Bool) (set : CharSet)
  | lineStart
  | lineEnd
  | wordBoundary
  | seq (p q : Pattern)
  | alt (p q : Pattern)
  | star (p : Pattern)
  deriving DecidableEq, Repr

namespace Pattern

/-! ## Places -/

/-- Whether a line starts behind this character. -/
def startsLine (before : Option Char) : Bool := before = none || before = some '\n'

/-- Whether a line ends in front of this character. -/
def endsLine (after : Option Char) : Bool := after = none || after = some '\n'

/-- Whether exactly one of the two neighbours is a word character. -/
def isBoundary (before after : Option Char) : Bool :=
  before.any Text.isWordChar != after.any Text.isWordChar

/-! ## Meaning -/

/-- `Matches before p s after`: the text `s` matches `p` between these neighbours. -/
inductive Matches : Option Char → Pattern → List Char → Option Char → Prop where
  | empty {l r} : Matches l .empty [] r
  | char {l r i set c} : set.has i c = true → Matches l (.char i set) [c] r
  | lineStart {l r} : startsLine l = true → Matches l .lineStart [] r
  | lineEnd {l r} : endsLine r = true → Matches l .lineEnd [] r
  | wordBoundary {l r} : isBoundary l r = true → Matches l .wordBoundary [] r
  | seq {l r p q s t} :
      Matches l p s (t.head?.or r) → Matches (s.getLast?.or l) q t r → Matches l (.seq p q) (s ++ t) r
  | altLeft {l r p q s} : Matches l p s r → Matches l (.alt p q) s r
  | altRight {l r p q s} : Matches l q s r → Matches l (.alt p q) s r
  | starNil {l r p} : Matches l (.star p) [] r
  | starCons {l r p s t} :
      Matches l p s (t.head?.or r) → Matches (s.getLast?.or l) (.star p) t r →
      Matches l (.star p) (s ++ t) r

/-- Somewhere in the text a piece matches the pattern. -/
def OccursIn (p : Pattern) (text : List Char) : Prop :=
  ∃ a s b, text = a ++ s ++ b ∧ Matches a.getLast? p s b.head?

/-! ## Building patterns -/

def seqAll : List Pattern → Pattern
  | [] => .empty
  | [p] => p
  | p :: ps => .seq p (seqAll ps)

/-- Any one of the patterns; none at all match nothing. -/
def oneOf : List Pattern → Pattern
  | [] => .char false (.ranges false [])
  | [p] => p
  | p :: ps => .alt p (oneOf ps)

def maybe (p : Pattern) : Pattern := .alt p .empty

def many (p : Pattern) : Pattern := .seq p (.star p)

def lit (c : Char) : Pattern := .char false (.literal c)

/-- A text as it stands. -/
def literal (s : String) : Pattern := seqAll (s.toList.map lit)

def within (rs : List (Char × Char)) : Pattern := .char false (.ranges false rs)

def without (rs : List (Char × Char)) : Pattern := .char false (.ranges true rs)

def only (c : Char) : Char × Char := (c, c)

def blank : Pattern := .char false .blank

def blanks : Pattern := .star blank

def gap : Pattern := many blank

def anyOf (words : List String) : Pattern := oneOf (words.map literal)

/-- The pattern with every character up to case. -/
def ignoringCase : Pattern → Pattern
  | .char _ set => .char true set
  | .seq p q => .seq p.ignoringCase q.ignoringCase
  | .alt p q => .alt p.ignoringCase q.ignoringCase
  | .star p => .star p.ignoringCase
  | p => p

/-! ## Notation -/

/-- Characters that have a meaning in the notation of patterns. -/
def isSpecial (c : Char) : Bool := "\\.+*?()|[]\x7b\x7d^$#&-~".toList.contains c

/-- A text as a pattern writes it. -/
def escape (s : List Char) : List Char := s.flatMap fun c => if isSpecial c then ['\\', c] else [c]

/-- A range as a set writes it. -/
def rangeNotation (r : Char × Char) : List Char := if r.1 = r.2 then [r.1] else [r.1, '-', r.2]

def setNotation : CharSet → List Char
  | .literal c => escape [c]
  | .blank => ['\\', 's']
  | .ranges negated rs =>
    '[' :: (if negated then ['^'] else []) ++ rs.flatMap rangeNotation ++ [']']

/-- The usual notation of a pattern. -/
def notationChars : Pattern → List Char
  | .empty => []
  | .char _ set => setNotation set
  | .lineStart => ['^']
  | .lineEnd => ['$']
  | .wordBoundary => ['\\', 'b']
  | .seq p q => p.notationChars ++ q.notationChars
  | .alt p q => ['(', '?', ':'] ++ p.notationChars ++ ['|'] ++ q.notationChars ++ [')']
  | .star p => ['(', '?', ':'] ++ p.notationChars ++ [')', '*']

def source (p : Pattern) : String := String.ofList p.notationChars

end Pattern

end ContractAudit
