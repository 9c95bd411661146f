import ContractAudit.Log.Event
import ContractAudit.Text.Split
import ContractAudit.Text.WordChar

/-!
# Log filters

A filter is a list of directives with commas between them: a level, a target, or a target and a
level. A target selects the origins whose names begin with it, at all levels unless one is given;
of the directives that select an origin the one with the longest target decides, and of two with the
same target the later. A directive for a span selects no event, since events here are in none.
-/

namespace ContractAudit.Log

/-- The highest level let through; none lets nothing through. -/
abbrev Threshold := Option Level

/-- Equality of texts up to the case of ASCII letters. -/
def sameLetters (a b : List Char) : Bool := a.map Char.toLower == b.map Char.toLower

def thresholdWords : List (String × Threshold) :=
  ("off", none) :: Level.all.map fun l => (l.text, some l)

/-- The threshold of a number, from zero for none to five for all. -/
def thresholdOfNumber (n : Nat) : Option Threshold :=
  if n = 0 then some none else (Level.all.find? (·.rank == n)).map some

def thresholdOfWord (s : List Char) : Option Threshold :=
  (thresholdWords.find? fun w => sameLetters w.1.toList s).map Prod.snd

/-- The threshold of a word or a number, which may have zeros in front. -/
def threshold? (s : List Char) : Option Threshold :=
  if !s.isEmpty && s.all Char.isDigit then
    thresholdOfNumber (s.foldl (fun n c => 10 * n + (c.toNat - '0'.toNat)) 0)
  else thresholdOfWord s

/-- The threshold that stands in the place of a level: a word or a single digit. -/
def level? (s : List Char) : Option Threshold :=
  if 1 < s.length && s.all Char.isDigit then none else threshold? s

structure Directive where
  target : Option String := none
  inSpan : Bool := false
  threshold : Threshold
  deriving DecidableEq, Repr

namespace Directive

def isTargetChar (c : Char) : Bool := Text.isWordChar c || c == ':' || c == '-'

/-- Up to so many parts in front of a text, each a target or a span in brackets, which counts as
none; and the rest of the text. -/
def selectorParts : Nat → List Char → List (Option (List Char)) × List Char
  | 0, s => ([], s)
  | n + 1, s =>
    match s with
    | '[' :: inner =>
      match Text.cutFirst (· == ']') inner with
      | some (_, behind) =>
        let (parts, rest) := selectorParts n behind
        (none :: parts, rest)
      | none => ([], s)
    | _ =>
      let name := s.takeWhile isTargetChar
      if name.isEmpty then ([], s)
      else
        let (parts, rest) := selectorParts n (s.dropWhile isTargetChar)
        (some name :: parts, rest)

/-- A selector before an optional level. A target that is a threshold selects every origin. -/
def ofSelector? (s : List Char) : Option Directive :=
  let (parts, rest) := selectorParts 2 s
  let target := (parts.filterMap id).find? fun t => (threshold? t).isNone
  let make (threshold : Threshold) : Directive :=
    { target := target.map String.ofList, inSpan := parts.contains none, threshold }
  if parts.isEmpty then none
  else match rest with
    | [] => some (make (some .trace))
    | ['='] => some (make (some .trace))
    | '=' :: level => (level? level).map make
    | _ => none

def ofChars? (s : List Char) : Option Directive :=
  match level? s with
  | some threshold => some { threshold }
  | none => ofSelector? s

/-- How closely a directive selects. -/
def specificity (d : Directive) : Nat := (d.target.map fun t => t.utf8ByteSize + 1).getD 0

def selects (d : Directive) (o : Origin) : Bool :=
  !d.inSpan && (d.target.map fun t => t.toList.isPrefixOf o.target.toList).getD true

end Directive

structure Filter where
  directives : List Directive
  deriving DecidableEq, Repr

namespace Filter

def ofLevel (l : Level) : Filter := ⟨[{ threshold := some l }]⟩

/-- The filter a text means. A text without directives lets errors through. -/
def ofString? (s : String) : Option Filter := do
  let parts := (Text.splitAtEach ',' s.toList).filter (!·.isEmpty)
  let directives ← parts.mapM Directive.ofChars?
  return if directives.isEmpty then ofLevel .error else ⟨directives⟩

/-- The directive that decides for an origin. -/
def deciding? (f : Filter) (o : Origin) : Option Directive :=
  (f.directives.filter (·.selects o)).foldl
    (fun best d => match best with
      | some b => if b.specificity ≤ d.specificity then some d else some b
      | none => some d) none

def admits (f : Filter) (e : Event) : Bool :=
  match (f.deciding? e.origin).bind Directive.threshold with
  | some level => e.level.rank ≤ level.rank
  | none => false

/-- The filter that an environment asks for: warnings and errors if it asks for none or for one that
means nothing. -/
def ofEnvironment (value : Option String) : Filter :=
  (value.bind ofString?).getD (ofLevel .warn)

end Filter

end ContractAudit.Log
