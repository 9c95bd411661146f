import ContractAudit.Pattern.Basic

/-!
# Searching for a pattern

The search reads a text once. It carries the patterns of which a match has begun: reading a
character replaces each by what is left of it (`remainders`), and at every place the pattern itself
may begin. A match is found where one of them may end (`mayEnd`). Main statement: the search finds
something exactly if the pattern occurs in the text (`found_iff`).
-/

namespace ContractAudit.Pattern

/-- Whether nothing at all matches the pattern between these neighbours. -/
def mayEnd (l r : Option Char) : Pattern → Bool
  | .empty => true
  | .char .. => false
  | .lineStart => startsLine l
  | .lineEnd => endsLine r
  | .wordBoundary => isBoundary l r
  | .seq p q => p.mayEnd l r && q.mayEnd l r
  | .alt p q => p.mayEnd l r || q.mayEnd l r
  | .star _ => true

/-- One pattern and then another, the empty one left out. -/
def andThen : Pattern → Pattern → Pattern
  | .empty, q => q
  | p, q => .seq p q

/-- What may be left of the pattern once the character `c` has been read behind `l`. -/
def remainders (l : Option Char) (c : Char) : Pattern → List Pattern
  | .char i set => if set.has i c then [.empty] else []
  | .seq p q =>
    (p.remainders l c).map (·.andThen q) ++
      (if p.mayEnd l (some c) then q.remainders l c else [])
  | .alt p q => p.remainders l c ++ q.remainders l c
  | .star p => (p.remainders l c).map (·.andThen (.star p))
  | _ => []

/-- Whether a match of `p`, or of one of the `live` patterns at once, is found in a text. -/
def search (p : Pattern) (l : Option Char) (live : List Pattern) : List Char → Bool
  | [] => (p :: live).any (mayEnd l none)
  | c :: cs =>
    (p :: live).any (mayEnd l (some c)) ||
      search p (some c) ((p :: live).flatMap (remainders l c)).eraseDups cs

def found (p : Pattern) (text : List Char) : Bool := search p none [] text

/-! ## The search is right -/

theorem mayEnd_iff {l r : Option Char} {p : Pattern} : p.mayEnd l r = true ↔ Matches l p [] r := by
  induction p generalizing l r with
  | empty => simp [mayEnd, Matches.empty]
  | char i set => exact ⟨fun h => by simp [mayEnd] at h, fun h => by cases h⟩
  | lineStart => exact ⟨fun h => .lineStart h, fun h => by cases h; assumption⟩
  | lineEnd => exact ⟨fun h => .lineEnd h, fun h => by cases h; assumption⟩
  | wordBoundary => exact ⟨fun h => .wordBoundary h, fun h => by cases h; assumption⟩
  | seq p q ihp ihq =>
    simp only [mayEnd, Bool.and_eq_true, ihp, ihq]
    constructor
    · rintro ⟨hp, hq⟩
      exact Matches.seq (s := []) (t := []) hp hq
    · intro h
      generalize hs : ([] : List Char) = s at h
      cases h with
      | seq hp hq =>
        obtain ⟨rfl, rfl⟩ := List.append_eq_nil_iff.1 hs.symm
        exact ⟨hp, hq⟩
  | alt p q ihp ihq =>
    simp only [mayEnd, Bool.or_eq_true, ihp, ihq]
    constructor
    · rintro (h | h)
      · exact .altLeft h
      · exact .altRight h
    · intro h
      cases h with
      | altLeft h => exact .inl h
      | altRight h => exact .inr h
  | star p _ => simp [mayEnd, Matches.starNil]

theorem matches_andThen {l r : Option Char} {p q : Pattern} {s : List Char} :
    Matches l (p.andThen q) s r ↔ Matches l (.seq p q) s r := by
  cases p with
  | empty =>
    constructor
    · intro h
      exact Matches.seq (s := []) .empty h
    · intro h
      generalize hp : Pattern.seq .empty q = pq at h
      cases h with
      | seq h₁ h₂ =>
        cases hp
        cases h₁
        exact h₂
      | _ => cases hp
  | _ => exact Iff.rfl

/-- A match of a sequence is a match of its parts. -/
theorem matches_seq {l r : Option Char} {p q : Pattern} {u : List Char} :
    Matches l (.seq p q) u r ↔
      ∃ s t, u = s ++ t ∧ Matches l p s (t.head?.or r) ∧ Matches (s.getLast?.or l) q t r := by
  constructor
  · intro h
    cases h with
    | seq h₁ h₂ => exact ⟨_, _, rfl, h₁, h₂⟩
  · rintro ⟨s, t, rfl, h₁, h₂⟩
    exact .seq h₁ h₂

theorem getLast?_cons_or (c : Char) (s : List Char) (l : Option Char) :
    (c :: s).getLast?.or l = s.getLast?.or (some c) := by
  cases s with
  | nil => rfl
  | cons d t =>
    rw [List.getLast?_cons_cons]
    cases h : (d :: t).getLast? with
    | none => simp at h
    | some x => rfl

/-- A match of a repetition that takes a character begins with a match of the pattern that does. -/
theorem matches_star_cons {l r : Option Char} {p : Pattern} {c : Char} {u : List Char} :
    Matches l (.star p) (c :: u) r ↔
      ∃ s t, u = s ++ t ∧ Matches l p (c :: s) (t.head?.or r) ∧
        Matches (s.getLast?.or (some c)) (.star p) t r := by
  constructor
  · intro h
    generalize hp : Pattern.star p = sp at h
    generalize hu : c :: u = cu at h
    induction h with
    | starNil => cases hu
    | @starCons l r p' s t h₁ h₂ _ ih =>
      -- Rounds that take nothing are left out until one takes the character.
      cases hp
      cases s with
      | nil => exact ih rfl hu
      | cons d s =>
        simp only [List.cons_append, List.cons.injEq] at hu
        obtain ⟨rfl, rfl⟩ := hu
        rw [getLast?_cons_or] at h₂
        exact ⟨s, t, rfl, h₁, h₂⟩
    | _ => cases hp
  · rintro ⟨s, t, rfl, h₁, h₂⟩
    rw [← List.cons_append]
    refine .starCons h₁ ?_
    rw [getLast?_cons_or]
    exact h₂

/-- A match of a sequence that takes a character takes it with its first part, or has nothing for
that part and takes it with its second. -/
theorem matches_seq_cons {l r : Option Char} {p q : Pattern} {c : Char} {u : List Char} :
    Matches l (.seq p q) (c :: u) r ↔
      (∃ s t, u = s ++ t ∧ Matches l p (c :: s) (t.head?.or r) ∧
        Matches (s.getLast?.or (some c)) q t r) ∨
      (Matches l p [] (some c) ∧ Matches l q (c :: u) r) := by
  rw [matches_seq]
  constructor
  · rintro ⟨s, t, hu, h₁, h₂⟩
    cases s with
    | nil =>
      rw [List.nil_append] at hu
      subst hu
      exact .inr ⟨h₁, h₂⟩
    | cons d s =>
      obtain ⟨rfl, rfl⟩ := List.cons.inj hu
      rw [getLast?_cons_or] at h₂
      exact .inl ⟨s, t, rfl, h₁, h₂⟩
  · rintro (⟨s, t, rfl, h₁, h₂⟩ | ⟨h₁, h₂⟩)
    · rw [← getLast?_cons_or] at h₂
      exact ⟨c :: s, t, rfl, h₁, h₂⟩
    · exact ⟨[], c :: u, rfl, h₁, h₂⟩

/-- What matches one of several patterns with `q` behind it. -/
theorem matches_map_andThen {l r : Option Char} {ps : List Pattern} {q : Pattern}
    {u : List Char} :
    (∃ x ∈ ps.map (·.andThen q), Matches l x u r) ↔
      ∃ s t, u = s ++ t ∧ (∃ y ∈ ps, Matches l y s (t.head?.or r)) ∧
        Matches (s.getLast?.or l) q t r := by
  constructor
  · rintro ⟨x, hx, hm⟩
    obtain ⟨y, hy, rfl⟩ := List.mem_map.1 hx
    rw [matches_andThen, matches_seq] at hm
    obtain ⟨s, t, hu, h₁, h₂⟩ := hm
    exact ⟨s, t, hu, ⟨y, hy, h₁⟩, h₂⟩
  · rintro ⟨s, t, hu, ⟨y, hy, h₁⟩, h₂⟩
    refine ⟨y.andThen q, List.mem_map_of_mem hy, ?_⟩
    rw [matches_andThen, matches_seq]
    exact ⟨s, t, hu, h₁, h₂⟩

theorem remainders_iff {l r : Option Char} {c : Char} {p : Pattern} {u : List Char} :
    (∃ q ∈ p.remainders l c, Matches (some c) q u r) ↔ Matches l p (c :: u) r := by
  induction p generalizing l r u with
  | empty => simpa [remainders] using fun h : Matches l .empty (c :: u) r => by cases h
  | char i set =>
    simp only [remainders]
    constructor
    · rintro ⟨q, hq, hm⟩
      split at hq
      · rename_i h
        rw [List.mem_singleton] at hq
        subst hq
        cases hm
        exact .char h
      · simp at hq
    · intro h
      cases h with
      | char h => exact ⟨.empty, by simp [h], .empty⟩
  | lineStart => simpa [remainders] using fun h : Matches l .lineStart (c :: u) r => by cases h
  | lineEnd => simpa [remainders] using fun h : Matches l .lineEnd (c :: u) r => by cases h
  | wordBoundary => simpa [remainders] using fun h : Matches l .wordBoundary (c :: u) r => by cases h
  | seq p q ihp ihq =>
    -- The second part reads the character only where the first may take nothing before it.
    have second : (∃ x ∈ if p.mayEnd l (some c) then q.remainders l c else [],
        Matches (some c) x u r) ↔ Matches l p [] (some c) ∧ Matches l q (c :: u) r := by
      rw [← mayEnd_iff, ← ihq]
      split <;> simp_all
    simp only [remainders, List.mem_append, or_and_right, exists_or, matches_map_andThen, ihp,
      second, matches_seq_cons]
  | alt p q ihp ihq =>
    simp only [remainders, List.mem_append, or_and_right, exists_or, ihp, ihq]
    constructor
    · rintro (h | h)
      · exact .altLeft h
      · exact .altRight h
    · intro h
      cases h with
      | altLeft h => exact .inl h
      | altRight h => exact .inr h
  | star p ih => simp only [remainders, matches_map_andThen, ih, matches_star_cons]

/-- A match that begins before `c` ends there at once, or is one of what is left once `c` is
read. -/
theorem matches_ahead_cons {l : Option Char} {q : Pattern} {c : Char} {cs : List Char} :
    (∃ s b, c :: cs = s ++ b ∧ Matches l q s b.head?) ↔
      Matches l q [] (some c) ∨
        ∃ x ∈ q.remainders l c, ∃ s b, cs = s ++ b ∧ Matches (some c) x s b.head? := by
  constructor
  · rintro ⟨s, b, h, hm⟩
    cases s with
    | nil =>
      rw [List.nil_append] at h
      subst h
      exact .inl hm
    | cons d s =>
      obtain ⟨rfl, rfl⟩ := List.cons.inj h
      obtain ⟨x, hx, hm⟩ := remainders_iff.2 hm
      exact .inr ⟨x, hx, s, b, rfl, hm⟩
  · rintro (hm | ⟨x, hx, s, b, rfl, hm⟩)
    · exact ⟨[], c :: cs, rfl, hm⟩
    · exact ⟨c :: s, b, rfl, remainders_iff.1 ⟨x, hx, hm⟩⟩

/-- A match somewhere in a text begins before its first character or somewhere behind it. -/
theorem matches_somewhere_cons {l : Option Char} {p : Pattern} {c : Char} {cs : List Char} :
    (∃ a s b, c :: cs = a ++ s ++ b ∧ Matches (a.getLast?.or l) p s b.head?) ↔
      (∃ s b, c :: cs = s ++ b ∧ Matches l p s b.head?) ∨
        ∃ a s b, cs = a ++ s ++ b ∧ Matches (a.getLast?.or (some c)) p s b.head? := by
  constructor
  · rintro ⟨a, s, b, h, hm⟩
    cases a with
    | nil => exact .inl ⟨s, b, h, hm⟩
    | cons d a =>
      obtain ⟨rfl, rfl⟩ := List.cons.inj h
      rw [getLast?_cons_or] at hm
      exact .inr ⟨a, s, b, rfl, hm⟩
  · rintro (⟨s, b, h, hm⟩ | ⟨a, s, b, rfl, hm⟩)
    · exact ⟨[], s, b, h, hm⟩
    · rw [← getLast?_cons_or] at hm
      exact ⟨c :: a, s, b, rfl, hm⟩

/-- A search finds a match that is under way or one that begins later. -/
theorem search_iff {p : Pattern} {l : Option Char} {live : List Pattern} {text : List Char} :
    search p l live text = true ↔
      (∃ q ∈ live, ∃ s b, text = s ++ b ∧ Matches l q s b.head?) ∨
        ∃ a s b, text = a ++ s ++ b ∧ Matches (a.getLast?.or l) p s b.head? := by
  induction text generalizing l live with
  | nil =>
    simp only [search, List.any_cons, Bool.or_eq_true, List.any_eq_true, mayEnd_iff]
    constructor
    · rintro (h | ⟨q, hq, h⟩)
      · exact .inr ⟨[], [], [], rfl, h⟩
      · exact .inl ⟨q, hq, [], [], rfl, h⟩
    · rintro (⟨q, hq, s, b, h, hm⟩ | ⟨a, s, b, h, hm⟩)
      · obtain ⟨rfl, rfl⟩ := List.append_eq_nil_iff.1 h.symm
        exact .inr ⟨q, hq, hm⟩
      · obtain ⟨has, rfl⟩ := List.append_eq_nil_iff.1 h.symm
        obtain ⟨rfl, rfl⟩ := List.append_eq_nil_iff.1 has
        exact .inl hm
  | cons c cs ih =>
    simp only [search, Bool.or_eq_true, List.any_cons, List.any_eq_true, mayEnd_iff, ih,
      List.mem_eraseDups, List.mem_flatMap, matches_ahead_cons, matches_somewhere_cons]
    -- Either a match ends here, or it goes on in what is left of a pattern, or it begins later.
    constructor
    · rintro ((h | ⟨q, hq, h⟩) | (⟨x, ⟨q, hq, hx⟩, hm⟩ | later))
      · exact .inr (.inl (.inl h))
      · exact .inl ⟨q, hq, .inl h⟩
      · rcases List.mem_cons.1 hq with rfl | hq
        · exact .inr (.inl (.inr ⟨x, hx, hm⟩))
        · exact .inl ⟨q, hq, .inr ⟨x, hx, hm⟩⟩
      · exact .inr (.inr later)
    · rintro (⟨q, hq, h | ⟨x, hx, hm⟩⟩ | ((h | ⟨x, hx, hm⟩) | later))
      · exact .inl (.inr ⟨q, hq, h⟩)
      · exact .inr (.inl ⟨x, ⟨q, List.mem_cons_of_mem _ hq, hx⟩, hm⟩)
      · exact .inl (.inl h)
      · exact .inr (.inl ⟨x, ⟨p, List.mem_cons_self, hx⟩, hm⟩)
      · exact .inr (.inr later)

/-- The search finds something exactly if the pattern occurs. -/
theorem found_iff {p : Pattern} {text : List Char} : p.found text = true ↔ p.OccursIn text := by
  simp [found, search_iff, OccursIn]

end ContractAudit.Pattern
