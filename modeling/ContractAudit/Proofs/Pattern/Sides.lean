import ContractAudit.Proofs.Evidence.Tokens

/-!
# The sides of a match

Whether an identifier can reach up to the end of a match is read off the pattern (`leavesFree`), and
so is whether one can go on where a match begins (`startsFree`). A sequence that leads up to a name
and leaves no identifier in front of it, and goes on behind the name with none, finds the name as a
token only (`hasToken_of_occursIn`). It does not matter what the name is, so for every pattern that
is made around a name this is a matter of evaluating two fixed parts.
-/

namespace ContractAudit

open Text

/-- Whether no character of an identifier is in the set. All of them are in ASCII. -/
def CharSet.sparesIdentifiers (anyCase : Bool) (set : CharSet) : Bool :=
  (List.range 128).all fun n => !(isIdentifierChar (Char.ofNat n) && set.has anyCase (Char.ofNat n))

theorem CharSet.isIdentifierChar_of_sparesIdentifiers {anyCase : Bool} {set : CharSet} {c : Char}
    (h : set.sparesIdentifiers anyCase = true) (hc : set.has anyCase c = true) :
    isIdentifierChar c = false := by
  by_contra hid
  rw [Bool.not_eq_false] at hid
  unfold sparesIdentifiers at h
  rw [List.all_eq_true] at h
  have hcode := forall_ascii (P := fun c => (!(isIdentifierChar c && set.has anyCase c)) = true)
    (fun n hn => h n (List.mem_range.mpr hn)) (isAscii_of_isIdentifierChar hid)
  rw [hid, hc] at hcode
  exact absurd hcode (by decide)

namespace Pattern

/-! ## The end of a match -/

/-- Whether no identifier reaches up to the end of a match; `free` says whether none reaches up to
where it begins. -/
def leavesFree (free : Bool) : Pattern → Bool
  | .char i set => set.sparesIdentifiers i
  | .lineStart => true
  | .seq p q => q.leavesFree (p.leavesFree free)
  | .alt p q => p.leavesFree free && q.leavesFree free
  | .star p => free && p.leavesFree true
  | _ => free

theorem Matches.leavesFree {l r : Option Char} {p : Pattern} {s : List Char} {b : Bool}
    (h : Matches l p s r) (hp : p.leavesFree b = true) (hl : b = true → FreeSide l) :
    FreeSide (s.getLast?.or l) := by
  induction h generalizing b with
  | empty | lineEnd | wordBoundary => exact hl hp
  | starNil =>
      unfold Pattern.leavesFree at hp
      rw [Bool.and_eq_true] at hp
      exact hl hp.1
  | char hset =>
      intro c hc
      rw [List.getLast?_singleton, Option.some_or, Option.some.injEq] at hc
      subst hc
      exact CharSet.isIdentifierChar_of_sparesIdentifiers hp hset
  | lineStart hstart => exact freeSide_of_startsLine hstart
  | seq _ _ ih₁ ih₂ =>
      rw [List.getLast?_append, Option.or_assoc]
      exact ih₂ hp fun hmid => ih₁ hmid hl
  | altLeft _ ih =>
      unfold Pattern.leavesFree at hp
      rw [Bool.and_eq_true] at hp
      exact ih hp.1 hl
  | altRight _ ih =>
      unfold Pattern.leavesFree at hp
      rw [Bool.and_eq_true] at hp
      exact ih hp.2 hl
  | starCons _ _ ih₁ ih₂ =>
      unfold Pattern.leavesFree at hp
      rw [Bool.and_eq_true] at hp
      rw [List.getLast?_append, Option.or_assoc]
      -- Every round begins free, the first because the repetition does.
      exact ih₂ (b := true) hp.2 fun _ => ih₁ hp.2 fun _ => hl hp.1

/-! ## The beginning of a match -/

/-- Whether no identifier goes on where a match begins; `free` says whether none goes on behind
it. -/
def startsFree (free : Bool) : Pattern → Bool
  | .char i set => set.sparesIdentifiers i
  | .lineEnd => true
  | .seq p q => p.startsFree (q.startsFree free)
  | .alt p q => p.startsFree free && q.startsFree free
  | .star p => free && p.startsFree true
  | _ => free

theorem Matches.startsFree {l r : Option Char} {p : Pattern} {s : List Char} {b : Bool}
    (h : Matches l p s r) (hp : p.startsFree b = true) (hr : b = true → FreeSide r) :
    FreeSide (s.head?.or r) := by
  induction h generalizing b with
  | empty | lineStart | wordBoundary => exact hr hp
  | starNil =>
      unfold Pattern.startsFree at hp
      rw [Bool.and_eq_true] at hp
      exact hr hp.1
  | char hset =>
      intro c hc
      rw [List.head?_cons, Option.some_or, Option.some.injEq] at hc
      subst hc
      exact CharSet.isIdentifierChar_of_sparesIdentifiers hp hset
  | lineEnd hend => exact freeSide_of_startsLine hend
  | seq _ _ ih₁ ih₂ =>
      rw [List.head?_append, Option.or_assoc]
      exact ih₁ hp fun hmid => ih₂ hmid hr
  | altLeft _ ih =>
      unfold Pattern.startsFree at hp
      rw [Bool.and_eq_true] at hp
      exact ih hp.1 hr
  | altRight _ ih =>
      unfold Pattern.startsFree at hp
      rw [Bool.and_eq_true] at hp
      exact ih hp.2 hr
  | starCons _ _ ih₁ ih₂ =>
      unfold Pattern.startsFree at hp
      rw [Bool.and_eq_true] at hp
      rw [List.head?_append, Option.or_assoc]
      exact ih₁ (b := true) hp.2 fun _ => ih₂ (b := true) (by simp [Pattern.startsFree, hp.2])
        fun _ => hr hp.1

/-! ## Names between two sequences -/

variable {ps qs rs : List Pattern} {before s behind text : List Char}

/-- What is put together in the middle of a sequence may be laid out in it. -/
theorem matchesBetween_seqAll_nested :
    MatchesBetween before (seqAll (ps ++ seqAll qs :: rs)) s behind ↔
      MatchesBetween before (seqAll (ps ++ (qs ++ rs))) s behind := by
  simp only [matchesBetween_seqAll_append, matchesBetween_seqAll_cons]

theorem occursIn_seqAll_nested :
    (seqAll (ps ++ seqAll qs :: rs)).OccursIn text ↔
      (seqAll (ps ++ (qs ++ rs))).OccursIn text := by
  rw [occursIn_iff, occursIn_iff]
  simp only [MatchesAt, matchesBetween_seqAll_nested]

theorem endsNoIdentifier_of_leavesFree (h : MatchesBetween before (seqAll ps) s behind)
    (hps : (seqAll ps).leavesFree false = true) : EndsNoIdentifier (before ++ s) := by
  have hside := Matches.leavesFree h hps nofun
  rw [← List.getLast?_append] at hside
  exact hside

theorem endsIdentifier_of_startsFree (h : MatchesBetween before (seqAll qs) s behind)
    (hqs : (seqAll qs).startsFree false = true) : EndsIdentifier (s ++ behind) := by
  have hside := Matches.startsFree h hqs nofun
  rw [← List.head?_append] at hside
  exact hside

variable {name : String}

/-- Where such a sequence occurs the name stands with no identifier in front of it, and what is
behind the name in the sequence follows it. -/
theorem exists_name_of_occursIn (hps : (seqAll ps).leavesFree false = true)
    (h : (seqAll (ps ++ literal name :: qs)).OccursIn text) :
    ∃ before behind, text = before ++ (name.toList ++ behind) ∧ EndsNoIdentifier before ∧
      MatchesAt (before ++ name.toList) (seqAll qs) behind := by
  obtain ⟨before, _, rfl, hmatch⟩ := occursIn_iff.mp h
  obtain ⟨s, _, rfl, hs, hrest⟩ := matchesAt_seqAll_append.mp hmatch
  obtain ⟨behind, rfl, hqs⟩ := matchesAt_literal_cons.mp hrest
  exact ⟨before ++ s, behind, (List.append_assoc ..).symm, endsNoIdentifier_of_leavesFree hs hps,
    hqs⟩

/-- **A name that is led up to freely begins an identifier.** -/
theorem hasIdentifierFrom_of_occursIn (ps qs : List Pattern)
    (h : (seqAll (ps ++ literal name :: qs)).OccursIn text)
    (hps : (seqAll ps).leavesFree false = true) : HasIdentifierFrom name.toList text := by
  obtain ⟨before, behind, htext, hbefore, -⟩ := exists_name_of_occursIn hps h
  exact ⟨before, behind, htext, hbefore⟩

/-- **If nothing goes on behind it either, it is a token.** -/
theorem hasToken_of_occursIn (ps qs : List Pattern)
    (h : (seqAll (ps ++ literal name :: qs)).OccursIn text)
    (hps : (seqAll ps).leavesFree false = true) (hqs : (seqAll qs).startsFree false = true) :
    HasToken name.toList text := by
  obtain ⟨before, _, rfl, hbefore, t, behind, rfl, ht⟩ := exists_name_of_occursIn hps h
  exact ⟨before, t ++ behind, rfl, hbefore, endsIdentifier_of_startsFree ht hqs⟩

end Pattern

end ContractAudit
