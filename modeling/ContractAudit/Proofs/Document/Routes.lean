import ContractAudit.Document.Names
import ContractAudit.Proofs.Evidence.OpenEnds
import ContractAudit.Proofs.Text.Recasing
import ContractAudit.Proofs.Text.Trimming

/-!
# Routes in identifiers

The identifier of an endpoint is documented to be cut behind its first word: if that word is an HTTP
method it is the method of the route, and what is left is the path (`Route.documented`). The program
cuts the trimmed identifier at its first blank. For all identifiers but one kind this is the same
(`Route.ofIdentifier_eq_documented`): a method with nothing behind it has no blank to be cut at, and
is taken for a path (`Route.ofIdentifier_of_methodAlone`). So the path of a route is empty for no
identifier but a blank one.
-/

namespace ContractAudit

namespace Text

/-! ## Words -/

/-- What stands in front of the next blank, blanks at the beginning aside. -/
def firstWord (s : List Char) : List Char := (trimLeft s).takeWhile (!isBlank ·)

def behindFirstWord (s : List Char) : List Char := (trimLeft s).dropWhile (!isBlank ·)

section

variable {word rest : List Char}

/-- A word ends where a blank follows or nothing. -/
theorem takeWhile_word (hword : BlankFree word)
    (hrest : ∀ c, rest.head? = some c → isBlank c = true) :
    (word ++ rest).takeWhile (!isBlank ·) = word :=
  takeWhile_of_head (fun c hc => by simp [hword c hc]) fun c hc => by simp [hrest c hc]

theorem dropWhile_word (hword : BlankFree word)
    (hrest : ∀ c, rest.head? = some c → isBlank c = true) :
    (word ++ rest).dropWhile (!isBlank ·) = rest :=
  dropWhile_of_head (fun c hc => by simp [hword c hc]) fun c hc => by simp [hrest c hc]

end

/-! ## The first word of a trimmed text -/

/-- A text of one word: the word is all that trimming leaves. -/
theorem firstWord_of_blankFree {s : List Char} (h : BlankFree (trimBoth s)) :
    firstWord s = trimBoth s ∧ trimBoth (behindFirstWord s) = [] := by
  obtain ⟨blanks, htrim, hblanks⟩ := exists_blanks_behind s
  have hnext : ∀ c, blanks.head? = some c → isBlank c = true :=
    fun c hc => hblanks c (List.mem_of_head? hc)
  unfold firstWord behindFirstWord
  rw [htrim, takeWhile_word h hnext, dropWhile_word h hnext]
  exact ⟨rfl, trimBoth_eq_nil_iff.mpr hblanks⟩

/-- A text with a blank in the middle: the first word ends at the first blank. -/
theorem firstWord_of_cut {s head rest : List Char} {c : Char}
    (hcut : trimBoth s = head ++ c :: rest) (hhead : BlankFree head) (hc : isBlank c = true) :
    firstWord s = head ∧ trimBoth (behindFirstWord s) = trimBoth rest := by
  obtain ⟨blanks, htrim, hblanks⟩ := exists_blanks_behind s
  rw [hcut, List.append_assoc] at htrim
  have hnext : ∀ d, (c :: rest ++ blanks).head? = some d → isBlank d = true := by
    rintro d ⟨⟩
    exact hc
  unfold firstWord behindFirstWord
  rw [htrim, takeWhile_word hhead hnext, dropWhile_word hhead hnext, List.cons_append,
    trimBoth_cons_blank hc, trimBoth_append_blanks hblanks]
  exact ⟨rfl, rfl⟩

end Text

open Text

/-! ## Routes -/

namespace Route

/-- The word is an HTTP method, in whatever case. -/
def IsMethod (word : List Char) : Prop := ∃ m ∈ httpMethods, Recased word m.toList

instance (word : List Char) : Decidable (IsMethod word) := by
  unfold IsMethod
  infer_instance

/-- The route of an identifier by its first word. -/
def documented (identifier : String) : Route :=
  if IsMethod (firstWord identifier.toList) then
    { method := some (String.ofList (firstWord identifier.toList))
      path := trim (String.ofList (behindFirstWord identifier.toList)) }
  else { method := none, path := trim identifier }

/-- The identifier is a method, with nothing behind it but blanks. -/
def IsMethodAlone (identifier : String) : Prop := IsMethod (trim identifier).toList

instance (identifier : String) : Decidable (IsMethodAlone identifier) := by
  unfold IsMethodAlone
  infer_instance

theorem IsMethod.blankFree {word : List Char} (h : IsMethod word) : BlankFree word := by
  obtain ⟨m, hm, hword⟩ := h
  have hall : ∀ m ∈ httpMethods, (m.toList.map isBlank).all (!·) = true := by decide
  have hblank := hall m hm
  rw [← hword.map_eq caseBlind_isBlank] at hblank
  simpa [BlankFree] using hblank

theorem any_sameWord_iff {word : List Char} :
    httpMethods.any (sameWord · (String.ofList word)) = true ↔ IsMethod word := by
  unfold IsMethod
  rw [List.any_eq_true]
  refine exists_congr fun m => and_congr_right fun _ => ?_
  unfold sameWord
  rw [beq_iff_eq, String.toList_ofList]
  exact eq_comm

theorem ofIdentifier_of_blankFree {s : String} (h : BlankFree (trim s).toList) :
    ofIdentifier s = ⟨none, trim s⟩ := by
  have hcut : cutFirst isBlank (trim s).toList = none := cutFirst_eq_none_iff.mpr h
  unfold ofIdentifier
  dsimp only
  rw [hcut]

/-- **A method alone is taken for a path**, while it is documented to be a method without a path. -/
theorem ofIdentifier_of_methodAlone {s : String} (h : IsMethodAlone s) :
    ofIdentifier s = ⟨none, trim s⟩ ∧ documented s = ⟨some (trim s), ""⟩ := by
  have hfree : BlankFree (trim s).toList := IsMethod.blankFree h
  refine ⟨ofIdentifier_of_blankFree hfree, ?_⟩
  unfold trim at hfree
  rw [String.toList_ofList] at hfree
  obtain ⟨hfirst, hbehind⟩ := firstWord_of_blankFree hfree
  unfold IsMethodAlone trim at h
  rw [String.toList_ofList] at h
  unfold documented trim
  rw [if_pos (hfirst ▸ h), String.toList_ofList, hfirst, hbehind]

/-- **Every other identifier is cut as documented.** -/
theorem ofIdentifier_eq_documented {s : String} (h : ¬ IsMethodAlone s) :
    ofIdentifier s = documented s := by
  unfold IsMethodAlone trim at h
  rw [String.toList_ofList] at h
  cases hcut : cutFirst isBlank (trimBoth s.toList) with
  | none =>
      have hfree : BlankFree (trimBoth s.toList) := cutFirst_eq_none_iff.mp hcut
      obtain ⟨hfirst, -⟩ := firstWord_of_blankFree hfree
      rw [ofIdentifier_of_blankFree (by unfold trim; rwa [String.toList_ofList])]
      unfold documented
      rw [if_neg (hfirst ▸ h)]
  | some cut =>
      obtain ⟨head, rest⟩ := cut
      obtain ⟨c, hc, hhead, hsplit⟩ := cutFirst_eq_some hcut
      obtain ⟨hfirst, hbehind⟩ := firstWord_of_cut hsplit hhead hc
      unfold ofIdentifier documented
      dsimp only
      unfold trim
      rw [String.toList_ofList, hcut]
      dsimp only
      rw [hfirst, String.toList_ofList, String.toList_ofList, hbehind]
      by_cases hmethod : IsMethod head
      · rw [if_pos (any_sameWord_iff.mpr hmethod), if_pos hmethod]
      · rw [if_neg (mt any_sameWord_iff.mp hmethod), if_neg hmethod]

/-- Only a blank identifier has an empty path. -/
theorem path_eq_empty_iff {s : String} : (ofIdentifier s).path = "" ↔ trim s = "" := by
  unfold ofIdentifier
  dsimp only
  split
  · rename_i head rest hcut
    obtain ⟨c, hc, -, hsplit⟩ := cutFirst_eq_some hcut
    have hne : trim s ≠ "" := by
      intro h
      rw [h] at hsplit
      simp at hsplit
    -- The trimmed identifier would end in a blank if there were none but blanks behind the cut.
    have hrest : trim (String.ofList rest) ≠ "" := by
      intro h
      rw [trim_eq_empty_iff, String.toList_ofList] at h
      have hblanks : ∀ d ∈ c :: rest, isBlank d = true := List.forall_mem_cons.mpr ⟨hc, h⟩
      have hlast := List.getLast?_append_cons head c rest
      rw [← hsplit, List.getLast?_eq_some_getLast (List.cons_ne_nil c rest)] at hlast
      unfold trim at hlast
      rw [String.toList_ofList] at hlast
      have hfilled := isBlank_of_getLast?_trimBoth hlast
      rw [hblanks _ (List.getLast_mem _)] at hfilled
      cases hfilled
    split
    · exact iff_of_false hrest hne
    · rfl
  · rfl

end Route

end ContractAudit
