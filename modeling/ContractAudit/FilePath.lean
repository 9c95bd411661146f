import ContractAudit.Text.Split

/-!
# File paths

A path is kept as the text it was written as, so that it can be shown again, and is compared by its
components: the root, a leading `.`, each `..`, and names. Repeated slashes and every other `.` are
slack that no component sees. Joining, the parent and what is left of a path below another are
operations on the text, which cut it only where slack or a whole component ends.
-/

namespace ContractAudit

structure FilePath where
  text : String
  deriving DecidableEq, Repr

/-- A step of a path. -/
inductive PathComponent where
  | root
  | current
  | parent
  | name (name : List Char)
  deriving DecidableEq, Repr

namespace FilePath

/-! ## Components -/

/-- What a piece between slashes contributes; nothing and a single `.` are slack. -/
def pieceComponent? (piece : List Char) : Option PathComponent :=
  if piece = [] ∨ piece = ['.'] then none
  else if piece = ['.', '.'] then some .parent
  else some (.name piece)

/-- The components of a text that stands behind the first one. -/
def bodyComponents (body : List Char) : List PathComponent :=
  (Text.splitAtEach '/' body).filterMap pieceComponent?

/-- The root or the leading `.` of a path, and the text behind it. -/
def splitLead (s : List Char) : List PathComponent × List Char × List Char :=
  match s with
  | '/' :: body => ([.root], ['/'], body)
  | ['.'] => ([.current], ['.'], [])
  | '.' :: '/' :: body => ([.current], ['.'], '/' :: body)
  | body => ([], [], body)

def components (p : FilePath) : List PathComponent :=
  let (lead, _, body) := splitLead p.text.toList
  lead ++ bodyComponents body

def isAbsolute (p : FilePath) : Bool := p.text.toList.head? == some '/'

/-! ## Slack -/

/-- A text without the slashes and single dots in front of its first component. -/
def dropSlack : List Char → List Char
  | '/' :: rest => dropSlack rest
  | '.' :: '/' :: rest => dropSlack rest
  | ['.'] => []
  | rest => rest

/-- A text without the slashes and single dots behind its last component. Read backwards, slack
looks the same. -/
def dropSlackEnd (s : List Char) : List Char := (dropSlack s.reverse).reverse

/-- A text without its first component. -/
def dropComponent (s : List Char) : List Char := (dropSlack s).dropWhile (· != '/')

def dropComponentEnd (s : List Char) : List Char := (dropComponent s.reverse).reverse

/-! ## Operations -/

/-- A path below another one. An absolute path stays itself; otherwise one slash comes between,
unless it is there already or nothing stands before it. -/
def join (base p : FilePath) : FilePath :=
  if p.isAbsolute then p
  else if base.text.isEmpty || base.text.toList.getLast? == some '/' then ⟨base.text ++ p.text⟩
  else ⟨base.text ++ "/" ++ p.text⟩

/-- The text behind the first `n` components, slack at both ends dropped. -/
def behind (p : FilePath) (n : Nat) : FilePath :=
  let (lead, leadText, body) := splitLead p.text.toList
  match n with
  | 0 => ⟨String.ofList (leadText ++ dropSlackEnd body)⟩
  | n + 1 =>
    let rest := Nat.repeat dropComponent (n + 1 - lead.length) body
    ⟨String.ofList (dropSlackEnd (dropSlack rest))⟩

/-- What is left of a path below another one, if it lies there. -/
def below? (p base : FilePath) : Option FilePath :=
  if base.components.isPrefixOf p.components then some (p.behind base.components.length) else none

/-- The path without its last component; the root has none. -/
def parent? (p : FilePath) : Option FilePath :=
  let (lead, leadText, body) := splitLead p.text.toList
  if bodyComponents body = [] then if lead = [.current] then some ⟨""⟩ else none
  else some ⟨String.ofList (leadText ++ dropSlackEnd (dropComponentEnd body))⟩

/-- The directory a file's locations start from: the one it lies in. -/
def directory (p : FilePath) : FilePath :=
  match p.parent? with
  | some dir => if dir.text.isEmpty then ⟨"."⟩ else dir
  | none => ⟨"."⟩

end FilePath

end ContractAudit
