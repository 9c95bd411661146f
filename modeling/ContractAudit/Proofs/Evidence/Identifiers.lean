import ContractAudit.Proofs.Pattern.Sides

/-!
# Names as identifiers

Every pattern for a declaration, a call or a validation is made around a name, and its parts on
either side of the name decide what the name can be a part of. In front there is always a blank, a
bracket or the start of a line, so an identifier begins with the name. Behind it there is mostly a
blank, a bracket or a sign, so the identifier ends with the name too; only a variable and an
assignment let it go on. Neither depends on what the name is or on what else the text holds.
-/

namespace ContractAudit

open Text

namespace Pattern

variable {name : String} {text : List Char}

/-- A name with a bracket behind it is a token wherever it is led up to freely. -/
theorem hasToken_of_nameAndBracket (ps rs : List Pattern)
    (h : (seqAll (ps ++ nameAndBracket name :: rs)).OccursIn text)
    (hps : (seqAll ps).leavesFree false = true) : HasToken name.toList text := by
  refine hasToken_of_occursIn ps _ (occursIn_seqAll_nested.mp h) hps ?_
  -- Type parameters and the bracket keep every identifier off, whatever follows them.
  show (seqAll ([blanks, typeParameters, blanks] ++ lit '(' :: rs)).startsFree false = true
  cases rs with
  | nil => decide +kernel
  | cons r rs => rfl

end Pattern

namespace Evidence

open Pattern

variable {name : String} {p : Pattern} {text : List Char}

/-! ## Declarations -/

/-- **A method is declared by a token.** -/
theorem hasToken_of_methodPatterns (hp : p ∈ methodPatterns name) (h : p.OccursIn text) :
    HasToken name.toList text := by
  simp only [methodPatterns, List.mem_cons, List.not_mem_nil, or_false] at hp
  rcases hp with rfl | rfl | rfl | rfl | rfl
  · -- behind a word for its visibility
    exact hasToken_of_nameAndBracket [_, _, _, _] [] h (by decide +kernel)
  · -- behind a keyword
    exact hasToken_of_nameAndBracket [_, _, _] [] h (by decide +kernel)
  · -- behind a receiver
    exact hasToken_of_occursIn [_, _, _, _, _, _, _] [_, _] h (by decide +kernel) (by decide +kernel)
  · -- with modifiers or bare
    exact hasToken_of_nameAndBracket [_, _, _] [_, _, _, _] h (by decide +kernel)
  · -- as a function that is given a name
    exact hasToken_of_occursIn [_] [_, _, _, _, _] h (by decide +kernel) (by decide +kernel)

theorem hasToken_of_typeDeclaration (h : (typeDeclaration name).OccursIn text) :
    HasToken name.toList text :=
  hasToken_of_occursIn [_, _, _] [_] h (by decide +kernel) (by decide +kernel)

/-- **The name of a type begins an identifier.** -/
theorem hasIdentifierFrom_of_typePatterns (hp : p ∈ typePatterns name) (h : p.OccursIn text) :
    HasIdentifierFrom name.toList text := by
  simp only [typePatterns, List.mem_cons, List.not_mem_nil, or_false] at hp
  rcases hp with rfl | rfl | rfl
  · exact (hasToken_of_typeDeclaration h).hasIdentifierFrom
  · exact hasIdentifierFrom_of_occursIn [_, _, _] [_, _, _, _] h (by decide +kernel)
  · exact hasIdentifierFrom_of_occursIn [_, _] [_, _, _, _] h (by decide +kernel)

/-! ## Uses -/

/-- **A method is called by a token.** -/
theorem hasToken_of_callPatterns (hp : p ∈ callPatterns name) (h : p.OccursIn text) :
    HasToken name.toList text := by
  simp only [callPatterns, List.mem_singleton] at hp
  subst hp
  exact hasToken_of_occursIn [_] [_, _] h (by decide +kernel) (by decide +kernel)

/-- **A schema validates by a token**, in front of the method or as the first argument. -/
theorem hasToken_of_validationPatterns (hp : p ∈ validationPatterns name) (h : p.OccursIn text) :
    HasToken name.toList text := by
  simp only [validationPatterns, List.mem_cons, List.not_mem_nil, or_false] at hp
  rcases hp with rfl | rfl
  · exact hasToken_of_occursIn [_] [_, _, _, _, _, _] h (by decide +kernel) (by decide +kernel)
  · exact hasToken_of_occursIn [_, _, _, _, _, _] [_] h (by decide +kernel) (by decide +kernel)

end Evidence

end ContractAudit
