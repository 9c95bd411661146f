import ContractAudit.Text.Blank
import ContractAudit.Text.Split

/-!
# Foreign keys

An entry names the table a foreign key refers to, perhaps behind the columns and an arrow and
perhaps with the referenced columns behind it: `owner -> users.id`, `users(id)`, `users`.
-/

namespace ContractAudit.ForeignKey

/-- The end of a table's name. -/
def endsName (c : Char) : Bool := c == '.' || c == '(' || c == ' '

/-- The table of an entry, without the blanks around it. -/
def targetChars (entry : List Char) : List Char :=
  let reference :=
    match Text.cutLastAt ['-', '>'] entry with
    | some (_, behind) => behind
    | none => entry
  Text.trimBoth ((Text.trimBoth reference).takeWhile (!endsName ·))

/-- The table an entry names; empty if it names none. -/
def target (entry : String) : String := String.ofList (targetChars entry.toList)

end ContractAudit.ForeignKey
