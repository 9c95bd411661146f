import ContractAudit.Audit.Basic

/-!
# Checking invariants

The rule of an invariant is left to people, so the best an invariant comes to is a warning that asks
for review. Before that its scope must not be empty, the nodes in it must be declared, and their
files must be there; the first of these that does not hold decides.
-/

namespace ContractAudit

def invariantRecord (i : InvariantRecord) (status : Status) (message : String) : CheckRecord :=
  { phase := .invariants, subject := i.id, check := "scope", status, message }

/-- What people are asked to do. -/
def InvariantRecord.reviewMessage (i : InvariantRecord) : String :=
  "manual review: " ++ Text.trim i.rule ++
    match i.enforce.bind Text.nonBlank? with
    | some enforce => " (enforce: " ++ enforce ++ ")"
    | none => ""

namespace Audit

/-- The entry of a node in a scope whose file is not there. -/
def missingFile? (a : Audit) (id : String) : Option String :=
  match (a.document.node? id).bind NodeRecord.loc with
  | none => some (id ++ " (no loc)")
  | some loc => if a.isReadable loc then none else some (a.shown (a.resolve loc).path)

def invariantVerdict (a : Audit) (i : InvariantRecord) : Status × String :=
  if i.scope.isEmpty then (.fail, "scope is empty")
  else match i.scope.filter (!a.document.declares ·) with
    | id :: ids => (.fail, "scope nodes missing: " ++ Text.joinWith ", " (id :: ids))
    | [] =>
      match i.scope.filterMap a.missingFile? with
      | entry :: entries =>
        (.fail, "scoped files not found: " ++ Text.joinWith ", " (entry :: entries))
      | [] => (.warn, i.reviewMessage)

def invariantBlock (a : Audit) (i : InvariantRecord) : Block :=
  let (status, message) := a.invariantVerdict i
  { records := [invariantRecord i status message] }

def invariantBlocks (a : Audit) : List Block := a.document.invariants.map a.invariantBlock

end Audit

end ContractAudit
