import ContractAudit.Json.Printer
import ContractAudit.Json.Reader
import ContractAudit.Proofs.Decimal.Integers

/-!
# Reading written JSON

A value is written in tokens (`tokens`): its words, brackets and marks without the blanks between
them. The text of a value is read as these tokens (`readsAs_prettyChars`), and the tokens as the
value (`value?_tokens`); put together, what is written is read back (`ofText?_pretty`). Only exact
values are spoken of: a double is written by its shortest decimal, which is another matter.
-/

namespace ContractAudit.Json

/-! ## Exact values -/

mutual

/-- A value without doubles, all of whose integers fit 64 bits. -/
def isExact : Json → Bool
  | .number (.int n) => decide (IsWord n)
  | .number (.float _) => false
  | .array items => areExact items
  | .object fields => haveExact fields
  | _ => true

def areExact : List Json → Bool
  | [] => true
  | v :: vs => isExact v && areExact vs

def haveExact : List (String × Json) → Bool
  | [] => true
  | (_, v) :: fs => isExact v && haveExact fs

end

/-! ## Tokens of a value -/

mutual

/-- The tokens in which a value is written. -/
def tokens : Json → List Token
  | .string s => [.string s]
  | .array items => .openArray :: itemTokens items
  | .object fields => .openObject :: fieldTokens fields
  | v => [.literal v]

/-- The tokens of the items of an array up to its closing bracket. -/
def itemTokens : List Json → List Token
  | [] => [.closeArray]
  | [v] => tokens v ++ [.closeArray]
  | v :: vs => tokens v ++ .comma :: itemTokens vs

/-- The tokens of the fields of an object up to its closing brace. -/
def fieldTokens : List (String × Json) → List Token
  | [] => [.closeObject]
  | [(k, v)] => .string k :: .colon :: tokens v ++ [.closeObject]
  | (k, v) :: fs => .string k :: .colon :: tokens v ++ .comma :: fieldTokens fs

end

/-! ## Reading the tokens -/

theorem tokens_eq_cons (v : Json) : ∃ t ts, tokens v = t :: ts ∧ t ≠ .closeArray := by
  cases v <;> exact ⟨_, _, rfl, by simp⟩

theorem itemTokens_head_ne (v : Json) (vs : List Json) (rest : List Token) :
    (itemTokens (v :: vs) ++ rest).head? ≠ some .closeArray := by
  obtain ⟨t, ts, hts, ht⟩ := tokens_eq_cons v
  cases vs <;> simpa [itemTokens, hts] using ht

theorem value?_openArray {fuel : Nat} {ts : List Token} (h : ts.head? ≠ some .closeArray) :
    value? (fuel + 1) (.openArray :: ts) =
      (items? fuel [] ts).map fun (vs, rest) => (.array vs, rest) := by
  rw [value?]
  rintro rest rfl
  exact h rfl

theorem value?_openObject {fuel : Nat} {ts : List Token} (h : ts.head? ≠ some .closeObject) :
    value? (fuel + 1) (.openObject :: ts) =
      (fields? fuel [] ts).map fun (fs, rest) => (.object fs, rest) := by
  rw [value?]
  rintro rest rfl
  exact h rfl

mutual

/-- The tokens of a value are read as that value, and what follows them is left. -/
theorem value?_tokens : ∀ (v : Json) (rest : List Token) {fuel : Nat}, (tokens v).length < fuel →
    value? fuel (tokens v ++ rest) = some (v, rest)
  | .null, rest, fuel + 1, _ => rfl
  | .bool b, rest, fuel + 1, _ => rfl
  | .number n, rest, fuel + 1, _ => rfl
  | .string s, rest, fuel + 1, _ => rfl
  | .array [], rest, fuel + 1, _ => rfl
  | .object [], rest, fuel + 1, _ => rfl
  | .array (v :: vs), rest, fuel + 1, h => by
      rw [tokens, List.length_cons, Nat.add_lt_add_iff_right] at h
      rw [tokens, List.cons_append, value?_openArray (itemTokens_head_ne v vs rest),
        items?_itemTokens v vs [] rest h]
      rfl
  | .object ((k, v) :: fs), rest, fuel + 1, h => by
      rw [tokens, List.length_cons, Nat.add_lt_add_iff_right] at h
      have hhead : (fieldTokens ((k, v) :: fs) ++ rest).head? ≠ some .closeObject := by
        cases fs <;> simp [fieldTokens]
      rw [tokens, List.cons_append, value?_openObject hhead, fields?_fieldTokens k v fs [] rest h]
      rfl

theorem items?_itemTokens : ∀ (v : Json) (vs done : List Json) (rest : List Token) {fuel : Nat},
    (itemTokens (v :: vs)).length < fuel →
      items? fuel done (itemTokens (v :: vs) ++ rest) = some (done.reverse ++ v :: vs, rest)
  | v, [], done, rest, fuel + 1, h => by
      simp only [itemTokens, List.length_append, List.length_singleton] at h
      have hv := value?_tokens v (.closeArray :: rest) (show (tokens v).length < fuel by omega)
      simp [itemTokens, items?, hv]
  | v, w :: ws, done, rest, fuel + 1, h => by
      simp only [itemTokens, List.length_append, List.length_cons] at h
      have hv := value?_tokens v (.comma :: (itemTokens (w :: ws) ++ rest))
        (show (tokens v).length < fuel by omega)
      have hws := items?_itemTokens w ws (v :: done) rest
        (show (itemTokens (w :: ws)).length < fuel by omega)
      simp [itemTokens, items?, hv, hws]

theorem fields?_fieldTokens : ∀ (k : String) (v : Json) (fs done : List (String × Json))
    (rest : List Token) {fuel : Nat}, (fieldTokens ((k, v) :: fs)).length < fuel →
      fields? fuel done (fieldTokens ((k, v) :: fs) ++ rest) =
        some (done.reverse ++ (k, v) :: fs, rest)
  | k, v, [], done, rest, fuel + 1, h => by
      simp only [fieldTokens, List.length_append, List.length_cons] at h
      have hv := value?_tokens v (.closeObject :: rest) (show (tokens v).length < fuel by omega)
      simp [fieldTokens, fields?, hv]
  | k, v, (l, w) :: fs, done, rest, fuel + 1, h => by
      simp only [fieldTokens, List.length_append, List.length_cons] at h
      have hv := value?_tokens v (.comma :: (fieldTokens ((l, w) :: fs) ++ rest))
        (show (tokens v).length < fuel by omega)
      have hfs := fields?_fieldTokens l w fs ((k, v) :: done) rest
        (show (fieldTokens ((l, w) :: fs)).length < fuel by omega)
      simp [fieldTokens, fields?, hv, hfs]

end

theorem ofTokens?_tokens (v : Json) : ofTokens? (tokens v) = some v := by
  have h := value?_tokens v [] (Nat.lt_succ_self _)
  rw [List.append_nil] at h
  unfold ofTokens?
  rw [h]

/-! ## Reading strings -/

theorem hexValue?_hexDigit {n : Nat} (h : n < 16) : Token.hexValue? (hexDigit n) = some n := by
  have hall : ∀ n < 16, Token.hexValue? (hexDigit n) = some n := by decide
  exact hall n h

/-- A control is read back from its number. -/
theorem escape?_control {c : Char} (h : c.val < 0x20) (rest : List Char) :
    Token.escape? ('u' :: '0' :: '0' :: hexDigit (c.toNat / 16) :: hexDigit (c.toNat % 16) :: rest) =
      some (c, rest) := by
  have hc : c.toNat < 32 := h
  have hzero : Token.hexValue? '0' = some 0 := by decide
  have hhigh := hexValue?_hexDigit (n := c.toNat / 16) (by omega)
  have hlow := hexValue?_hexDigit (n := c.toNat % 16) (by omega)
  have hsum : c.toNat / 16 * 16 + c.toNat % 16 = c.toNat := by omega
  have hhex : Token.hex4? ('0' :: '0' :: hexDigit (c.toNat / 16) :: hexDigit (c.toNat % 16) :: rest) =
      some (c.toNat, rest) := by
    simp [Token.hex4?, hzero, hhigh, hlow, hsum]
  have hsurrogate : ¬ (0xDC00 ≤ c.toNat ∧ c.toNat ≤ 0xDFFF) ∧
      ¬ (0xD800 ≤ c.toNat ∧ c.toNat ≤ 0xDBFF) := by omega
  simp only [Token.escape?, hhex, if_neg hsurrogate.1, if_neg hsurrogate.2]
  rw [Char.ofNat_toNat]

/-- A character is read back from the way it is written inside a string. -/
theorem stringBody?_escapeChar (c : Char) (fuel : Nat) (done cs : List Char) :
    Token.stringBody? (fuel + 1) done (escapeChar c ++ cs) = Token.stringBody? fuel (c :: done) cs := by
  by_cases hquote : c = '"'
  · subst hquote
    rfl
  by_cases hslash : c = '\\'
  · subst hslash
    rfl
  unfold escapeChar
  rw [if_neg hquote, if_neg hslash]
  split
  · subst c
    rfl
  split
  · subst c
    rfl
  split
  · subst c
    rfl
  split
  · subst c
    rfl
  split
  · subst c
    rfl
  split
  · rename_i hcontrol
    simp only [List.cons_append, List.nil_append, Token.stringBody?, escape?_control hcontrol]
    rfl
  · rename_i hcontrol
    simp only [List.singleton_append, Token.stringBody?, if_neg hquote, if_neg hslash, if_neg hcontrol]

theorem stringBody?_escaped (s : List Char) (rest : List Char) : ∀ {fuel : Nat} (done : List Char),
    s.length < fuel → Token.stringBody? fuel done (s.flatMap escapeChar ++ '"' :: rest) =
      some (String.ofList (done.reverse ++ s), rest) := by
  induction s with
  | nil =>
      intro fuel done h
      cases fuel with
      | zero => cases h
      | succ fuel => simp [Token.stringBody?]
  | cons c cs ih =>
      intro fuel done h
      cases fuel with
      | zero => cases h
      | succ fuel =>
          rw [List.flatMap_cons, List.append_assoc, stringBody?_escapeChar,
            ih (c :: done) (Nat.lt_of_succ_lt_succ h)]
          simp

theorem length_le_flatMap_escapeChar (s : List Char) : s.length ≤ (s.flatMap escapeChar).length := by
  induction s with
  | nil => exact Nat.le_refl _
  | cons c cs ih =>
      have hc : 1 ≤ (escapeChar c).length := by
        unfold escapeChar
        repeat' split
        all_goals simp
      rw [List.flatMap_cons, List.length_append, List.length_cons]
      omega

/-! ## Reading a text in tokens -/

/-- No number or literal goes on here. -/
def EndsWord (cs : List Char) : Prop := ∀ c ∈ cs.head?, Token.isWordPart c = false

/-- The characters are read as the tokens, whatever was read before them and whatever follows, as
long as that does not go on with the last word. -/
def ReadsAs (cs : List Char) (ts : List Token) : Prop :=
  ∀ (done : List Token) (rest : List Char) (fuel : Nat), EndsWord rest → (cs ++ rest).length < fuel →
    ∃ fuel', rest.length < fuel' ∧
      Token.readAll? fuel done (cs ++ rest) = Token.readAll? fuel' (ts.reverse ++ done) rest

theorem readsAs_nil : ReadsAs [] [] := fun _ _ fuel _ h => ⟨fuel, h, rfl⟩

/-- Two texts one after the other, the first of which the second does not go on with. -/
theorem ReadsAs.append {cs cs' : List Char} {ts ts' : List Token} (h : ReadsAs cs ts)
    (h' : ReadsAs cs' ts') (hne : cs' ≠ []) (hend : EndsWord cs') :
    ReadsAs (cs ++ cs') (ts ++ ts') := by
  intro done rest fuel hrest hfuel
  have hend' : EndsWord (cs' ++ rest) := by
    obtain ⟨c, cs', rfl⟩ := List.exists_cons_of_ne_nil hne
    exact hend
  rw [List.append_assoc] at hfuel ⊢
  obtain ⟨fuel₁, hfuel₁, heq₁⟩ := h done (cs' ++ rest) fuel hend' hfuel
  obtain ⟨fuel₂, hfuel₂, heq₂⟩ := h' (ts.reverse ++ done) rest fuel₁ hrest hfuel₁
  refine ⟨fuel₂, hfuel₂, ?_⟩
  rw [heq₁, heq₂, List.reverse_append, List.append_assoc]

/-- Something in front that is read in one step, whatever follows it. -/
theorem ReadsAs.of_step {cs : List Char} {ts : List Token} (h : ReadsAs cs ts) (front : List Char)
    (before : List Token) (hne : front ≠ [])
    (hstep : ∀ fuel done rest, Token.readAll? (fuel + 1) done (front ++ rest) =
      Token.readAll? fuel (before.reverse ++ done) rest) : ReadsAs (front ++ cs) (before ++ ts) := by
  intro done rest fuel hrest hfuel
  have hpos : 0 < front.length := List.length_pos_iff.mpr hne
  cases fuel with
  | zero => cases hfuel
  | succ fuel =>
      rw [List.append_assoc, List.length_append] at hfuel
      obtain ⟨fuel', hfuel', heq⟩ := h (before.reverse ++ done) rest fuel hrest (by omega)
      refine ⟨fuel', hfuel', ?_⟩
      rw [List.append_assoc, hstep, heq, List.reverse_append, List.append_assoc]

theorem ReadsAs.space_cons {cs : List Char} {ts : List Token} (h : ReadsAs cs ts) {c : Char}
    (hc : Token.isSpace c = true) : ReadsAs (c :: cs) ts := by
  refine h.of_step [c] [] (List.cons_ne_nil _ _) ?_
  intro fuel done rest
  simp only [List.singleton_append, Token.readAll?, if_pos hc]
  rfl

/-- The token of a bracket or mark. -/
def markToken? (c : Char) : Option Token :=
  if c = '[' then some .openArray
  else if c = ']' then some .closeArray
  else if c = '\x7b' then some .openObject
  else if c = '\x7d' then some .closeObject
  else if c = ',' then some .comma
  else if c = ':' then some .colon
  else none

theorem ReadsAs.mark_cons {cs : List Char} {ts : List Token} (h : ReadsAs cs ts) {c : Char} {t : Token}
    (hc : markToken? c = some t) : ReadsAs (c :: cs) (t :: ts) := by
  refine h.of_step [c] [t] (List.cons_ne_nil _ _) ?_
  intro fuel done rest
  unfold markToken? at hc
  repeat' split at hc
  all_goals
    cases hc
    try
      subst c
      rfl

theorem ReadsAs.quote_append {cs : List Char} {ts : List Token} (h : ReadsAs cs ts) (s : String) :
    ReadsAs (quote s ++ cs) (.string s :: ts) := by
  refine h.of_step (quote s) [.string s] (List.cons_ne_nil _ _) ?_
  intro fuel done rest
  have hlength := length_le_flatMap_escapeChar s.toList
  have hfuel : s.toList.length < (s.toList.flatMap escapeChar ++ '"' :: rest).length + 1 := by
    rw [List.length_append]
    omega
  have hbody := stringBody?_escaped s.toList rest [] hfuel
  have htext : quote s ++ rest = '"' :: (s.toList.flatMap escapeChar ++ '"' :: rest) := by
    simp [quote]
  rw [htext, Token.readAll?, hbody]
  simp [Token.isSpace]

/-- A word is read up to the first character that cannot belong to it. -/
theorem readsAs_word (cs : List Char) {t : Token} (hne : cs ≠ [])
    (hall : ∀ c ∈ cs, Token.isWordPart c = true) (ht : Token.ofWord? cs = some t) :
    ReadsAs cs [t] := by
  intro done rest fuel hrest hfuel
  obtain ⟨c, cs, rfl⟩ := List.exists_cons_of_ne_nil hne
  rw [List.forall_mem_cons] at hall
  have hnone : rest.takeWhile Token.isWordPart = [] ∧ rest.dropWhile Token.isWordPart = rest := by
    cases rest with
    | nil => exact ⟨rfl, rfl⟩
    | cons d ds =>
        have hd : ¬ Token.isWordPart d = true := by simp [hrest d rfl]
        exact ⟨List.takeWhile_cons_of_neg hd, List.dropWhile_cons_of_neg hd⟩
  have htake : (cs ++ rest).takeWhile Token.isWordPart = cs := by
    rw [List.takeWhile_append_of_pos hall.2, hnone.1, List.append_nil]
  have hdrop : (cs ++ rest).dropWhile Token.isWordPart = rest := by
    rw [List.dropWhile_append_of_pos hall.2, hnone.2]
  have hother : ∀ d, Token.isWordPart d = false → c ≠ d := by
    rintro d hd rfl
    rw [hall.1] at hd
    cases hd
  have hspace : Token.isSpace c = false := by
    simp [Token.isSpace, hother ' ' (by decide), hother '\t' (by decide), hother '\n' (by decide),
      hother '\r' (by decide)]
  cases fuel with
  | zero => cases hfuel
  | succ fuel =>
      refine ⟨fuel, ?_, ?_⟩
      · rw [List.length_append, List.length_cons] at hfuel
        omega
      · rw [List.cons_append, Token.readAll?, htake, hdrop, ht]
        simp [hspace, hall.1, hother '[' (by decide), hother ']' (by decide),
          hother '\x7b' (by decide), hother '\x7d' (by decide), hother ',' (by decide),
          hother ':' (by decide), hother '"' (by decide)]

theorem ReadsAs.newline_append {cs : List Char} {ts : List Token} (h : ReadsAs cs ts) (level : Nat) :
    ReadsAs (newline level ++ cs) ts := by
  have hspaces : ∀ n, ReadsAs (List.replicate n ' ' ++ cs) ts := by
    intro n
    induction n with
    | zero => exact h
    | succ n ih => exact ih.space_cons (by decide)
  exact (hspaces _).space_cons (by decide)

/-! ## Texts of values -/

theorem readsAs_number {n : Int} (h : IsWord n) :
    ReadsAs (toString n).toList [.literal (.number (.int n))] := by
  apply readsAs_word _ (Decimal.toString_ne_nil n)
  · intro c hc
    rcases Decimal.isSignOrDigit_of_mem_toString hc with rfl | hdigit
    · decide
    · simp [Token.isWordPart, Char.isAlphanum, hdigit]
  · unfold Token.ofWord?
    rw [if_neg (Decimal.toString_ne_of_any rfl), if_neg (Decimal.toString_ne_of_any rfl),
      if_neg (Decimal.toString_ne_of_any rfl), Token.number?_toString h, Option.map_some]

theorem endsWord_newline_append (level : Nat) (cs : List Char) : EndsWord (newline level ++ cs) := by
  rintro c ⟨⟩
  decide

theorem endsWord_comma_cons (cs : List Char) : EndsWord (',' :: cs) := by
  rintro c ⟨⟩
  decide

/-- A closing bracket on a line of its own. -/
theorem ReadsAs.append_close {cs : List Char} {ts : List Token} (h : ReadsAs cs ts) (level : Nat)
    {c : Char} {t : Token} (hc : markToken? c = some t) :
    ReadsAs (cs ++ newline level ++ [c]) (ts ++ [t]) := by
  rw [List.append_assoc]
  exact h.append ((readsAs_nil.mark_cons hc).newline_append level) (List.cons_ne_nil _ _)
    (endsWord_newline_append level _)

/-- What follows a comma on a line of its own. -/
theorem ReadsAs.append_comma {cs cs' : List Char} {ts ts' : List Token} (h : ReadsAs cs ts)
    (h' : ReadsAs cs' ts') (level : Nat) :
    ReadsAs (cs ++ ',' :: newline level ++ cs') (ts ++ .comma :: ts') := by
  rw [List.append_assoc]
  exact h.append ((h'.newline_append level).mark_cons rfl) (List.cons_ne_nil _ _)
    (endsWord_comma_cons _)

/-- What follows the name of a field. -/
theorem ReadsAs.name_append {cs : List Char} {ts : List Token} (h : ReadsAs cs ts) (name : String) :
    ReadsAs (quote name ++ [':', ' '] ++ cs) (.string name :: .colon :: ts) := by
  rw [List.append_assoc]
  exact ((h.space_cons (by decide)).mark_cons rfl).quote_append name

mutual

/-- **The text of an exact value is read as its tokens.** -/
theorem readsAs_prettyChars : ∀ (level : Nat) (v : Json), v.isExact = true →
    ReadsAs (prettyChars level v) (tokens v)
  | _, .null, _ => readsAs_word ['n', 'u', 'l', 'l'] (by decide) (List.all_eq_true.mp rfl) rfl
  | _, .bool true, _ => readsAs_word ['t', 'r', 'u', 'e'] (by decide) (List.all_eq_true.mp rfl) rfl
  | _, .bool false, _ => readsAs_word ['f', 'a', 'l', 's', 'e'] (by decide) (List.all_eq_true.mp rfl) rfl
  | _, .number (.int n), h => readsAs_number (by simpa [isExact] using h)
  | _, .string s, _ => by
      have h := readsAs_nil.quote_append s
      rwa [List.append_nil] at h
  | _, .array [], _ => (readsAs_nil.mark_cons (c := ']') rfl).mark_cons (c := '[') rfl
  | _, .object [], _ => (readsAs_nil.mark_cons (c := '\x7d') rfl).mark_cons (c := '\x7b') rfl
  | level, .array (v :: vs), h =>
      ((readsAs_prettyItems level v vs h).newline_append (level + 1)).mark_cons rfl
  | level, .object ((k, v) :: fs), h =>
      ((readsAs_prettyFields level k v fs h).newline_append (level + 1)).mark_cons rfl
termination_by _ v => sizeOf v

theorem readsAs_prettyItems : ∀ (level : Nat) (v : Json) (vs : List Json),
    areExact (v :: vs) = true → ReadsAs (prettyItems level (v :: vs)) (itemTokens (v :: vs))
  | level, v, [], h => by
      rw [areExact, Bool.and_eq_true] at h
      exact (readsAs_prettyChars (level + 1) v h.1).append_close level rfl
  | level, v, w :: ws, h => by
      rw [areExact, Bool.and_eq_true] at h
      exact (readsAs_prettyChars (level + 1) v h.1).append_comma
        (readsAs_prettyItems level w ws h.2) (level + 1)
termination_by _ v vs => sizeOf (v :: vs)

theorem readsAs_prettyFields : ∀ (level : Nat) (k : String) (v : Json) (fs : List (String × Json)),
    haveExact ((k, v) :: fs) = true →
      ReadsAs (prettyFields level ((k, v) :: fs)) (fieldTokens ((k, v) :: fs))
  | level, k, v, [], h => by
      rw [haveExact, Bool.and_eq_true] at h
      have hv := (readsAs_prettyChars (level + 1) v h.1).append_close level (c := '\x7d') rfl
      have hfield := hv.name_append k
      simpa [prettyFields, fieldTokens] using hfield
  | level, k, v, (l, w) :: fs, h => by
      rw [haveExact, Bool.and_eq_true] at h
      have hv := (readsAs_prettyChars (level + 1) v h.1).append_comma
        (readsAs_prettyFields level l w fs h.2) (level + 1)
      have hfield := hv.name_append k
      simpa [prettyFields, fieldTokens] using hfield
termination_by _ k v fs => sizeOf ((k, v) :: fs)

end

theorem ofText?_of_readsAs {s : String} {ts : List Token} (h : ReadsAs s.toList ts) :
    Token.ofText? s = some ts := by
  obtain ⟨fuel, hfuel, heq⟩ := h [] [] (s.toList.length + 1) (by rintro c ⟨⟩)
    (by rw [List.append_nil]; exact Nat.lt_succ_self _)
  unfold Token.ofText?
  rw [List.append_nil, List.append_nil] at heq
  rw [heq]
  cases fuel with
  | zero => cases hfuel
  | succ fuel => simp [Token.readAll?]

theorem tokens_ofText?_pretty {v : Json} (h : v.isExact = true) :
    Token.ofText? v.pretty = some (tokens v) := by
  refine ofText?_of_readsAs ?_
  rw [pretty, String.toList_ofList]
  exact readsAs_prettyChars 0 v h

/-- **What is written is read back.** -/
theorem ofText?_pretty {v : Json} (h : v.isExact = true) : ofText? v.pretty = some v := by
  unfold ofText?
  rw [tokens_ofText?_pretty h, Option.bind_some, ofTokens?_tokens]

/-- A line end behind a value is passed over. -/
theorem ofText?_pretty_line {v : Json} (h : v.isExact = true) :
    ofText? (v.pretty ++ "\n") = some v := by
  have hline : ReadsAs (v.pretty ++ "\n").toList (tokens v) := by
    rw [String.toList_append, pretty, String.toList_ofList, ← List.append_nil (tokens v)]
    exact (readsAs_prettyChars 0 v h).append (readsAs_nil.newline_append 0) (List.cons_ne_nil _ _)
      (endsWord_newline_append 0 _)
  unfold ofText?
  rw [ofText?_of_readsAs hline, Option.bind_some, ofTokens?_tokens]

end ContractAudit.Json
