import ContractAudit.Pattern.Basic

/-!
# Reading the notation of patterns

The notation of a pattern is read one character at a time. The reader keeps the group it is in and
the groups around it; a group has the alternatives that are complete and the parts of the one that
is being read, and some groups are read up to case. Where the notation makes no sense there is no
pattern: at a bracket that nothing opened, at a repetition of nothing, at an unknown escape, at an
end in the middle of something. Signs that no family of patterns is written with are refused as well,
such as a bare full stop or a counted repetition.
-/

namespace ContractAudit.Pattern

/-! ## Groups -/

/-- The patterns that a pattern is a sequence of. -/
def sequenceParts : Pattern → List Pattern
  | .empty => []
  | .seq p q => p.sequenceParts ++ q.sequenceParts
  | p => [p]

/-- A group that is being read, perhaps up to case. A repetition sign applies to `last`, the newest
part; behind such a sign there is none, and `repeats` is set. -/
structure Group where
  anyCase : Bool := false
  alternatives : List Pattern := []
  earlier : List Pattern := []
  last : Option Pattern := none
  repeats : Bool := false

namespace Group

/-- The parts of the alternative that is being read. -/
def parts (g : Group) : List Pattern := g.earlier ++ g.last.toList.flatMap sequenceParts

def push (g : Group) (p : Pattern) : Group :=
  { g with earlier := g.parts, last := some p, repeats := false }

/-- A repetition sign puts other parts for the newest one. -/
def repeated? (g : Group) (parts : Pattern → List Pattern) : Option Group :=
  g.last.map fun p => { g with earlier := g.earlier ++ parts p, last := none, repeats := true }

/-- A question mark makes the newest part optional. Behind a repetition sign it asks for few
repetitions before many, which is no matter for what is matched. -/
def questioned? (g : Group) : Option Group :=
  if g.repeats then some { g with repeats := false } else g.repeated? fun p => [maybe p]

def nextAlternative (g : Group) : Group where
  anyCase := g.anyCase
  alternatives := g.alternatives ++ [seqAll g.parts]

def pattern (g : Group) : Pattern :=
  let p := oneOf (g.alternatives ++ [seqAll g.parts])
  if g.anyCase then p.ignoringCase else p

end Group

/-! ## Sets -/

/-- Where the reader stands in a set: behind a character that may begin a range, behind such a
character and a dash, or behind neither. -/
inductive SetPlace where
  | between
  | behind (c : Char)
  | dashed (c : Char)

/-- A set that is being read, with the ranges that are complete. -/
structure SetReading where
  negated : Bool := false
  ranges : List (Char × Char) := []
  place : SetPlace := .between

namespace SetReading

def member? (r : SetReading) (c : Char) : Option SetReading :=
  match r.place with
  | .between => some { r with place := .behind c }
  | .behind b => some { r with ranges := r.ranges ++ [only b], place := .behind c }
  | .dashed b =>
    if b ≤ c then some { r with ranges := r.ranges ++ [(b, c)], place := .between } else none

def dash? (r : SetReading) : Option SetReading :=
  match r.place with
  | .behind c => some { r with place := .dashed c }
  | _ => none

def close? (r : SetReading) : Option CharSet :=
  match r.place, r.ranges with
  | .behind c, rs => some (.ranges r.negated (rs ++ [only c]))
  | .between, r' :: rs => some (.ranges r.negated (r' :: rs))
  | _, _ => none

end SetReading

/-! ## The reader -/

/-- What the characters just read have begun. -/
inductive Begun where
  | nothing
  | escape
  | bracket
  | bracketAndQuestion
  | caseFlag
  | set
  | members (r : SetReading)
  | memberEscape (r : SetReading)

structure Reader where
  begun : Begun := .nothing
  group : Group := {}
  around : List Group := []

/-- The part that a character behind a backslash stands for. -/
def escaped? (anyCase : Bool) (c : Char) : Option Pattern :=
  if isSpecial c then some (.char anyCase (.literal c))
  else if c = 's' then some (.char anyCase .blank)
  else if c = 'b' then some .wordBoundary
  else none

/-- The member of a set that a character behind a backslash stands for. -/
def escapedMember? (c : Char) : Option Char :=
  if isSpecial c then some c
  else if c = 'n' then some '\n'
  else if c = 't' then some '\t'
  else none

namespace Reader

def push (r : Reader) (p : Pattern) : Reader :=
  { r with begun := .nothing, group := r.group.push p }

def openGroup (r : Reader) (anyCase : Bool) : Reader :=
  { begun := .nothing, group := { anyCase }, around := r.group :: r.around }

def closeGroup? (r : Reader) : Option Reader :=
  match r.around with
  | [] => none
  | g :: gs => some { r with group := g.push r.group.pattern, around := gs }

def repeated? (r : Reader) (parts : Pattern → List Pattern) : Option Reader :=
  (r.group.repeated? parts).map fun g => { r with group := g }

/-- Reads a special character that no backslash stands before. -/
def special? (r : Reader) (c : Char) : Option Reader :=
  match c with
  | '\\' => some { r with begun := .escape }
  | '(' => some { r with begun := .bracket }
  | ')' => r.closeGroup?
  | '|' => some { r with group := r.group.nextAlternative }
  | '*' => r.repeated? fun p => [.star p]
  | '+' => r.repeated? fun p => [p, .star p]
  | '?' => r.group.questioned?.map fun g => { r with group := g }
  | '[' => some { r with begun := .set }
  | '^' => some (r.push .lineStart)
  | '$' => some (r.push .lineEnd)
  | _ => none

/-- Reads a character of a set. -/
def inSet? (anyCase : Bool) (r : Reader) (set : SetReading) (c : Char) : Option Reader :=
  match c with
  | ']' => set.close?.map fun s => r.push (.char anyCase s)
  | '\\' => some { r with begun := .memberEscape set }
  | '-' => set.dash?.map fun s => { r with begun := .members s }
  | '[' | '^' | '&' | '~' => none
  | c => (set.member? c).map fun s => { r with begun := .members s }

def step (anyCase : Bool) (r : Reader) (c : Char) : Option Reader :=
  match r.begun with
  | .nothing =>
    if isSpecial c then r.special? c else some (r.push (.char anyCase (.literal c)))
  | .escape => (escaped? anyCase c).map r.push
  | .bracket => if c = '?' then some { r with begun := .bracketAndQuestion } else none
  | .bracketAndQuestion =>
    if c = ':' then some (r.openGroup false)
    else if c = 'i' then some { r with begun := .caseFlag }
    else none
  | .caseFlag => if c = ':' then some (r.openGroup true) else none
  | .set =>
    if c = '^' then some { r with begun := .members { negated := true } }
    else r.inSet? anyCase {} c
  | .members set => r.inSet? anyCase set c
  | .memberEscape set =>
    ((escapedMember? c).bind set.member?).map fun s => { r with begun := .members s }

def finish? (r : Reader) : Option Pattern :=
  match r.begun, r.around with
  | .nothing, [] => some r.group.pattern
  | _, _ => none

end Reader

/-- Reads the notation of a pattern, with every character up to case if `anyCase` is set. -/
def read (anyCase : Bool) (text : List Char) : Option Pattern :=
  (text.foldlM (Reader.step anyCase) {}).bind Reader.finish?

end ContractAudit.Pattern
