import ContractAudit.Text.Utf8
import Mathlib.Data.List.Basic
import Mathlib.Tactic.IntervalCases

/-!
# What decoding does to bytes

No state of the machine goes on from a byte below 0x80 (`State.RefusesAscii`), so such a byte closes
what was begun and is read on its own: it parts the text of the bytes before it from the text of
those behind it, whatever they are (`decodeLossy_append_cons`). ASCII bytes therefore stand in the
text as they are, between faults as well as between characters (`decodeLossy_append_ascii`).

The bytes a string is written as are read as that string (`decodeLossy_toUTF8`): each character is
settled by the last of its bytes (`settledFrom_encodeChar`).
-/

namespace ContractAudit.Text.Utf8

/-! ## Runs of the machine -/

/-- What the bytes settle from a state on, their end included. -/
def settledFrom (st : State) : List UInt8 → List Piece
  | [] => finish st
  | b :: bytes => (step st b).1 ++ settledFrom (step st b).2 bytes

/-- The fold holds what is settled last first, and only ever puts more in front of it. -/
theorem foldl_step (bytes : List UInt8) (done : List Piece) (st : State) :
    (let (settled, state) := bytes.foldl (fun (done, st) b =>
      let (ps, st) := step st b
      (ps.reverse ++ done, st)) (done, st)
    settled.reverse ++ finish state) = done.reverse ++ settledFrom st bytes := by
  induction bytes generalizing done st with
  | nil => rfl
  | cons b bytes ih =>
      rw [List.foldl_cons, ih, settledFrom, List.reverse_append, List.reverse_reverse,
        List.append_assoc]

theorem pieces_eq (bytes : List UInt8) : pieces bytes = settledFrom .start bytes :=
  foldl_step bytes [] .start

/-! ## ASCII -/

/-- A state that no byte below 0x80 goes on from. -/
def State.RefusesAscii : State → Prop
  | .start => True
  | .inside _ low _ _ => 0x80 ≤ low

theorem State.refusesAscii_start : State.start.RefusesAscii := True.intro

theorem first_refusesAscii (b : UInt8) : (first b).2.RefusesAscii := by
  unfold first
  split_ifs <;> simp [State.RefusesAscii]

/-- Every byte leads to such a state. -/
theorem State.RefusesAscii.step {st : State} (h : st.RefusesAscii) (b : UInt8) :
    (step st b).2.RefusesAscii := by
  cases st with
  | start => exact first_refusesAscii b
  | inside owed low high bits =>
      unfold Utf8.step
      dsimp only
      split
      · cases owed with
        | zero => exact State.refusesAscii_start
        | succ n => exact UInt8.le_refl (0x80 : UInt8)
      · exact first_refusesAscii b

/-- The character with the code of an ASCII byte. -/
def asciiChar (b : UInt8) : Char := Char.ofNat b.toNat

theorem toNat_asciiChar {b : UInt8} (hb : b < 0x80) : (asciiChar b).toNat = b.toNat := by
  have hcode : b.toNat < 0x80 := UInt8.lt_iff_toNat_lt.mp hb
  have hvalid : b.toNat.isValidChar := Or.inl (by omega)
  unfold asciiChar Char.ofNat
  rw [dif_pos hvalid]
  rfl

/-- Different ASCII bytes are different characters. -/
theorem asciiChar_inj {b c : UInt8} (hb : b < 0x80) (hc : c < 0x80)
    (h : asciiChar b = asciiChar c) : b = c := by
  rw [← UInt8.toNat_inj, ← toNat_asciiChar hb, ← toNat_asciiChar hc, h]

theorem first_ascii {b : UInt8} (hb : b < 0x80) : first b = ([.char (asciiChar b)], .start) :=
  if_pos hb

/-- An ASCII byte closes what was begun, as a fault, and is read on its own. -/
theorem State.RefusesAscii.step_ascii {st : State} (h : st.RefusesAscii) {b : UInt8}
    (hb : b < 0x80) : Utf8.step st b = (finish st ++ [.char (asciiChar b)], .start) := by
  cases st with
  | start => exact first_ascii hb
  | inside owed low high bits =>
      have hrefused : ¬ (low ≤ b ∧ b ≤ high) := by
        rintro ⟨hlow, -⟩
        exact absurd (UInt8.le_trans h hlow) (UInt8.not_le.mpr hb)
      rw [Utf8.step, if_neg hrefused, first_ascii hb]
      rfl

/-- Behind an ASCII byte the machine starts anew, whatever it has read before. -/
theorem settledFrom_append {st : State} (h : st.RefusesAscii) (before : List UInt8) {b : UInt8}
    (hb : b < 0x80) (behind : List UInt8) : settledFrom st (before ++ b :: behind) =
      settledFrom st before ++ .char (asciiChar b) :: settledFrom .start behind := by
  -- Whatever is read first leads to a state of the same kind, so the induction is over all of them.
  induction before generalizing st with
  | nil => simp [settledFrom, h.step_ascii hb]
  | cons c before ih =>
      rw [List.cons_append, settledFrom, settledFrom, ih (h.step c), List.append_assoc]

theorem decodeLossy_nil : decodeLossy [] = "" := rfl

/-- **An ASCII byte stands in the text as it is**, and parts what is read before it from what is
read behind it. -/
theorem decodeLossy_append_cons (before : List UInt8) {b : UInt8} (hb : b < 0x80)
    (behind : List UInt8) : decodeLossy (before ++ b :: behind) =
      decodeLossy before ++ (String.singleton (asciiChar b) ++ decodeLossy behind) := by
  unfold decodeLossy
  rw [pieces_eq, pieces_eq, pieces_eq, settledFrom_append State.refusesAscii_start before hb,
    List.map_append, List.map_cons, String.ofList_append, String.ofList_cons]
  rfl

theorem decodeLossy_cons {b : UInt8} (hb : b < 0x80) (bytes : List UInt8) :
    decodeLossy (b :: bytes) = String.singleton (asciiChar b) ++ decodeLossy bytes := by
  have happend := decodeLossy_append_cons [] hb bytes
  rwa [List.nil_append, decodeLossy_nil, String.empty_append] at happend

/-- What is read up to an ASCII byte does not depend on what comes behind it. -/
theorem decodeLossy_append {before : List UInt8} (h : ∀ b ∈ before.getLast?, b < 0x80)
    (behind : List UInt8) :
    decodeLossy (before ++ behind) = decodeLossy before ++ decodeLossy behind := by
  rcases List.eq_nil_or_concat' before with rfl | ⟨front, b, rfl⟩
  · rw [List.nil_append, decodeLossy_nil, String.empty_append]
  · have hb : b < 0x80 := h b (by simp)
    rw [List.append_assoc, List.singleton_append, decodeLossy_append_cons front hb,
      decodeLossy_append_cons front hb, decodeLossy_nil, String.append_empty, String.append_assoc]

theorem getLast?_decodeLossy {s : List UInt8} (h : ∀ b ∈ s.getLast?, b < 0x80) :
    (decodeLossy s).toList.getLast? = s.getLast?.map asciiChar := by
  rcases List.eq_nil_or_concat' s with rfl | ⟨front, b, rfl⟩
  · rfl
  · have hb : b < 0x80 := h b (by simp)
    rw [decodeLossy_append_cons front hb, decodeLossy_nil]
    simp

theorem head?_decodeLossy {s : List UInt8} (h : ∀ b ∈ s.head?, b < 0x80) :
    (decodeLossy s).toList.head? = s.head?.map asciiChar := by
  cases s with
  | nil => rfl
  | cons b s =>
      rw [decodeLossy_cons (h b rfl)]
      simp

/-! ## ASCII bytes -/

/-- The bytes are all ASCII. -/
def AsciiOnly (bytes : List UInt8) : Prop := ∀ b ∈ bytes, b < 0x80

/-- The text of ASCII bytes. -/
def ascii (bytes : List UInt8) : String := String.ofList (bytes.map asciiChar)

theorem AsciiOnly.getLast {s : List UInt8} (h : AsciiOnly s) : ∀ b ∈ s.getLast?, b < 0x80 :=
  fun b hb => h b (List.mem_of_mem_getLast? hb)

theorem AsciiOnly.decodeLossy_eq {s : List UInt8} (h : AsciiOnly s) : decodeLossy s = ascii s := by
  induction s with
  | nil => rfl
  | cons b s ih =>
      obtain ⟨hb, hs⟩ := List.forall_mem_cons.mp h
      rw [decodeLossy_cons hb, ih hs, ascii, ascii, List.map_cons, String.ofList_cons]

/-- **ASCII bytes are read as they stand**, whatever is in front of them and behind them. -/
theorem decodeLossy_append_ascii (before : List UInt8) {s : List UInt8} (hs : AsciiOnly s)
    (hne : s ≠ []) (behind : List UInt8) :
    decodeLossy (before ++ s ++ behind) = decodeLossy before ++ ascii s ++ decodeLossy behind := by
  obtain ⟨b, s, rfl⟩ := List.exists_cons_of_ne_nil hne
  obtain ⟨hb, htail⟩ := List.forall_mem_cons.mp hs
  rw [List.append_assoc, List.cons_append, decodeLossy_append_cons before hb,
    decodeLossy_append (AsciiOnly.getLast htail), AsciiOnly.decodeLossy_eq htail, ascii, ascii,
    List.map_cons, String.ofList_cons]
  simp only [String.append_assoc]

/-! ## UTF-8 -/

theorem first_of_two {n : Nat} (hlow : 0xC2 ≤ n) (hhigh : n ≤ 0xDF) :
    step .start (UInt8.ofNat n) = ([], .inside 0 0x80 0xBF (n - 0xC0)) := by
  interval_cases n <;> rfl

theorem first_of_three {n : Nat} (hlow : 0xE0 ≤ n) (hhigh : n ≤ 0xEF) :
    step .start (UInt8.ofNat n) = ([], .inside 1 (if n = 0xE0 then 0xA0 else 0x80)
      (if n = 0xED then 0x9F else 0xBF) (n - 0xE0)) := by
  interval_cases n <;> rfl

theorem first_of_four {n : Nat} (hlow : 0xF0 ≤ n) (hhigh : n ≤ 0xF4) :
    step .start (UInt8.ofNat n) = ([], .inside 2 (if n = 0xF0 then 0x90 else 0x80)
      (if n = 0xF4 then 0x8F else 0xBF) (n - 0xF0)) := by
  interval_cases n <;> rfl

theorem settledFrom_cons {st st' : State} {b : UInt8} {ps : List Piece}
    (h : step st b = (ps, st')) (bytes : List UInt8) :
    settledFrom st (b :: bytes) = ps ++ settledFrom st' bytes := by
  rw [settledFrom, h]

/-- The code so far with six more bits. -/
def addBits (bits n : Nat) : Nat := bits * 64 + (n - 0x80)

section

variable {a n v : Nat} {low high : UInt8} {bits : Nat}

theorem inRange_of_le (hlow : low.toNat ≤ n) (hhigh : n ≤ high.toNat) :
    (low ≤ UInt8.ofNat n ∧ UInt8.ofNat n ≤ high) ∧ (UInt8.ofNat n).toNat = n := by
  have hcode : (UInt8.ofNat n).toNat = n :=
    UInt8.toNat_ofNat_of_lt' (Nat.lt_of_le_of_lt hhigh high.toNat_lt)
  rw [UInt8.le_iff_toNat_le, UInt8.le_iff_toNat_le, hcode]
  exact ⟨⟨hlow, hhigh⟩, rfl⟩

/-- Inside a character every byte owed adds its bits, and the last one settles the character. Only
the first of them has a range of its own. -/
theorem settledFrom_inside (hlow : low.toNat ≤ n) (hhigh : n ≤ high.toNat) {ns : List Nat}
    (hns : ∀ m ∈ ns, 0x80 ≤ m ∧ m ≤ 0xBF) (behind : List UInt8) :
    settledFrom (.inside ns.length low high bits) ((n :: ns).map UInt8.ofNat ++ behind) =
      .char (Char.ofNat ((n :: ns).foldl addBits bits)) :: settledFrom .start behind := by
  -- Behind the next byte one fewer is owed, and its range is the common one.
  induction ns generalizing n low high bits with
  | nil =>
      obtain ⟨hrange, hcode⟩ := inRange_of_le hlow hhigh
      have hlast : step (.inside 0 low high bits) (UInt8.ofNat n) =
          ([.char (Char.ofNat (addBits bits n))], .start) := by
        unfold step addBits
        dsimp only
        rw [if_pos hrange, hcode]
      exact settledFrom_cons hlast behind
  | cons m ns ih =>
      obtain ⟨hrange, hcode⟩ := inRange_of_le hlow hhigh
      obtain ⟨hm, hrest⟩ := List.forall_mem_cons.mp hns
      have hfurther : step (.inside (ns.length + 1) low high bits) (UInt8.ofNat n) =
          ([], .inside ns.length 0x80 0xBF (addBits bits n)) := by
        unfold step addBits
        dsimp only
        rw [if_pos hrange, hcode]
      rw [List.length_cons, List.map_cons, List.cons_append, settledFrom_cons hfurther,
        List.nil_append, List.foldl_cons]
      exact ih hm.1 hm.2 hrest

/-- A character of several bytes, from the first one on. -/
theorem settledFrom_several (ns : List Nat)
    (hfirst : step .start (UInt8.ofNat a) = ([], .inside ns.length low high bits))
    (hlow : low.toNat ≤ n) (hhigh : n ≤ high.toNat) (hns : ∀ m ∈ ns, 0x80 ≤ m ∧ m ≤ 0xBF)
    (hv : (n :: ns).foldl addBits bits = v) (behind : List UInt8) :
    settledFrom .start ((a :: n :: ns).map UInt8.ofNat ++ behind) =
      .char (Char.ofNat v) :: settledFrom .start behind := by
  rw [List.map_cons, List.cons_append, settledFrom_cons hfirst, List.nil_append,
    settledFrom_inside hlow hhigh hns, hv]

end

section

variable {a b c d v : Nat}

/-- Two bytes: neither 0xC0 nor 0xC1 begins a character, so its code does not fit one byte. -/
theorem settledFrom_two (ha : 0xC2 ≤ a ∧ a ≤ 0xDF) (hb : 0x80 ≤ b ∧ b ≤ 0xBF)
    (hv : (a - 0xC0) * 64 + (b - 0x80) = v) (behind : List UInt8) :
    settledFrom .start ([a, b].map UInt8.ofNat ++ behind) =
      .char (Char.ofNat v) :: settledFrom .start behind :=
  settledFrom_several [] (first_of_two ha.1 ha.2) hb.1 hb.2 (by simp) hv behind

/-- Three bytes: the range of the second keeps out codes that fit two, and surrogates. -/
theorem settledFrom_three (ha : 0xE0 ≤ a ∧ a ≤ 0xEF) (hb : 0x80 ≤ b ∧ b ≤ 0xBF)
    (hlong : a = 0xE0 → 0xA0 ≤ b) (hsurrogate : a = 0xED → b ≤ 0x9F) (hc : 0x80 ≤ c ∧ c ≤ 0xBF)
    (hv : ((a - 0xE0) * 64 + (b - 0x80)) * 64 + (c - 0x80) = v) (behind : List UInt8) :
    settledFrom .start ([a, b, c].map UInt8.ofNat ++ behind) =
      .char (Char.ofNat v) :: settledFrom .start behind := by
  have hlow : (if a = 0xE0 then 0xA0 else 0x80 : UInt8).toNat ≤ b := by
    split_ifs with h
    · exact hlong h
    · exact hb.1
  have hhigh : b ≤ (if a = 0xED then 0x9F else 0xBF : UInt8).toNat := by
    split_ifs with h
    · exact hsurrogate h
    · exact hb.2
  exact settledFrom_several [c] (first_of_three ha.1 ha.2) hlow hhigh (by simpa using hc) hv behind

/-- Four bytes: the range of the second keeps out codes that fit three, and those that are too
large. -/
theorem settledFrom_four (ha : 0xF0 ≤ a ∧ a ≤ 0xF4) (hb : 0x80 ≤ b ∧ b ≤ 0xBF)
    (hlong : a = 0xF0 → 0x90 ≤ b) (hlarge : a = 0xF4 → b ≤ 0x8F) (hc : 0x80 ≤ c ∧ c ≤ 0xBF)
    (hd : 0x80 ≤ d ∧ d ≤ 0xBF)
    (hv : (((a - 0xF0) * 64 + (b - 0x80)) * 64 + (c - 0x80)) * 64 + (d - 0x80) = v)
    (behind : List UInt8) :
    settledFrom .start ([a, b, c, d].map UInt8.ofNat ++ behind) =
      .char (Char.ofNat v) :: settledFrom .start behind := by
  have hlow : (if a = 0xF0 then 0x90 else 0x80 : UInt8).toNat ≤ b := by
    split_ifs with h
    · exact hlong h
    · exact hb.1
  have hhigh : b ≤ (if a = 0xF4 then 0x8F else 0xBF : UInt8).toNat := by
    split_ifs with h
    · exact hlarge h
    · exact hb.2
  exact settledFrom_several [c, d] (first_of_four ha.1 ha.2) hlow hhigh
    (by simpa using ⟨hc, hd⟩) hv behind

end

/-- **A character is read back from its bytes.** -/
theorem settledFrom_encodeChar (c : Char) (behind : List UInt8) :
    settledFrom .start (String.utf8EncodeChar c ++ behind) =
      .char c :: settledFrom .start behind := by
  have hvalid : c.val.toNat.isValidChar := c.valid
  have hcode : Char.ofNat c.val.toNat = c := Char.ofNat_toNat c
  unfold String.utf8EncodeChar
  dsimp only
  generalize c.val.toNat = v at hvalid hcode
  subst hcode
  -- The ranges of the bytes, and that they add up to the code, are arithmetic in the code alone.
  split_ifs with hone htwo hthree
  · have hnat : (UInt8.ofNat v).toNat = v :=
      UInt8.toNat_ofNat_of_lt' (Nat.lt_of_le_of_lt hone (by decide))
    have hascii : UInt8.ofNat v < 0x80 := by
      rw [UInt8.lt_iff_toNat_lt, hnat]
      exact Nat.lt_succ_of_le hone
    have hfirst : step .start (UInt8.ofNat v) = ([.char (Char.ofNat v)], .start) := by
      rw [step, first_ascii hascii, asciiChar, hnat]
    exact settledFrom_cons hfirst behind
  · exact settledFrom_two (by omega) (by omega) (by omega) behind
  · exact settledFrom_three (by omega) (by omega) (by omega) (by omega) (by omega) (by omega) behind
  · exact settledFrom_four (by omega) (by omega) (by omega) (by omega) (by omega) (by omega)
      (by omega) behind

/-- What a string is written as in bytes is read as that string. -/
theorem decodeLossy_toUTF8 (s : String) : decodeLossy s.toUTF8.data.toList = s := by
  have hbytes : s.toUTF8.data.toList = s.toList.flatMap String.utf8EncodeChar := by
    rw [String.toUTF8_eq_toByteArray, ← String.utf8Encode_toList, List.utf8Encode,
      List.data_toByteArray, List.toList_toArray]
  have hpieces : ∀ cs : List Char,
      settledFrom .start (cs.flatMap String.utf8EncodeChar) = cs.map .char := by
    intro cs
    induction cs with
    | nil => rfl
    | cons c cs ih => rw [List.flatMap_cons, settledFrom_encodeChar, ih, List.map_cons]
  have hshown : ∀ cs : List Char, (cs.map Piece.char).map Piece.shown = cs := by
    intro cs
    rw [List.map_map]
    exact List.map_id cs
  unfold decodeLossy
  rw [hbytes, pieces_eq, hpieces, hshown, String.ofList_toList]

end ContractAudit.Text.Utf8
