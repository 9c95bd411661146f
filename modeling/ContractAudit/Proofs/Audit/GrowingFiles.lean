import ContractAudit.Proofs.Audit.Existence

/-!
# Checks of a growing file

A source file grows when lines are put in front of what is there, or behind it
(`SourceFile.GrowsTo`). Its lines move, so a window over a declared line shows other text and a near
match may become a distant one; but the file as a whole has all it had. No check of a node begins to
fail (`nodeRecords_ne_fail`), no verdict on an edge does (`edgeVerdict_ne_fail`), and a check of the
whole file that passes says the same again (`nodeRecords_foreignKey`, `edgeVerdict_of_pass`).

A name that is empty would be found behind the last line feed, where added text goes, so the checks
that pass are kept for names that are not empty.
-/

namespace ContractAudit

open Text

/-- A source file and the same file with lines added. -/
structure SourceFile.GrowsTo (f f' : SourceFile) : Prop where
  display : f'.display = f.display
  adds : AddsLines f.text.toList f'.text.toList
  returnFree : ReturnFree f.text.toList
  returnFree' : ReturnFree f'.text.toList

/-! ## Evidence in a growing file -/

namespace SourceFile.GrowsTo

variable {f f' : SourceFile} (h : f.GrowsTo f')
include h

theorem anyFound {ps : List Pattern} (hopen : Evidence.OpenEnded ps)
    (hf : Evidence.anyFound ps f.text = true) : Evidence.anyFound ps f'.text = true :=
  Evidence.anyFound_of_addsLines hopen hf h.adds

theorem contains {needle : String} (hf : contains f.text needle = true) :
    Text.contains f'.text needle = true :=
  contains_of_infix hf h.adds.infix

/-- Without carriage returns the lines of the old file are lines of the new one. -/
theorem namesSchema {schema : String} (hf : f.namesSchema schema = true) :
    f'.namesSchema schema = true := by
  unfold SourceFile.namesSchema at hf ⊢
  rw [List.any_eq_true] at hf ⊢
  obtain ⟨l, hl, hfound⟩ := hf
  rw [lines_of_returnFree h.returnFree] at hl
  refine ⟨l, ?_, hfound⟩
  rw [lines_of_returnFree h.returnFree']
  exact h.adds.mem_rawLines hl

theorem hasRoute {route : Route} (hf : hasRoute f.text route = true) :
    SourceFile.hasRoute f'.text route = true := by
  unfold SourceFile.hasRoute at hf ⊢
  cases hm : route.method with
  | none =>
      rw [hm] at hf
      exact h.contains hf
  | some method =>
      rw [hm] at hf
      exact h.anyFound (Evidence.openEnded_endpointPatterns _ _) hf

end SourceFile.GrowsTo

/-! ## Nodes -/

namespace SourceFile

theorem valueRecords_ne_fail_iff (f : SourceFile) (id : String) (values : List String) :
    (∀ row ∈ f.valueRecords id values, row.status ≠ .fail) ↔
      ∀ v ∈ values, Text.contains f.text v = true := by
  unfold valueRecords
  split
  · simp
  · rename_i hall
    rw [List.filter_eq_nil_iff] at hall
    constructor
    · intro _ v hv
      simpa using hall v hv
    · simp
  · rename_i values _ _ _ hne
    obtain ⟨v, hv⟩ := List.exists_mem_of_ne_nil (values.filter fun v => !Text.contains f.text v) hne
    have hout := List.mem_filter.mp hv
    constructor
    · intro h
      exact absurd rfl (h _ (List.mem_map.mpr ⟨v, hv, rfl⟩))
    · intro h
      rw [h v hout.1] at hout
      exact absurd hout.2 (by decide)

theorem schemaRecords_ne_fail_iff (f : SourceFile) (id : String) (schema : Option String) :
    (∀ row ∈ f.schemaRecords id schema, row.status ≠ .fail) ↔
      ∀ name, schema.bind nonBlank? = some name → f.namesSchema name = true := by
  unfold schemaRecords
  cases hs : schema.bind nonBlank? with
  | none => simp
  | some name =>
      dsimp only
      cases hn : f.namesSchema name <;> simp [hn]

theorem foreignKeyRecord_ne_fail (f : SourceFile) (id entry : String) :
    (f.foreignKeyRecord id entry).status ≠ .fail := by
  unfold foreignKeyRecord
  dsimp only
  split
  · simp
  · split <;> simp

variable {f f' : SourceFile} (hg : f.GrowsTo f')
include hg

/-- A table that was mentioned is still mentioned, in the same words. -/
theorem foreignKeyRecord_of_pass {id entry : String}
    (h : (f.foreignKeyRecord id entry).status = .pass) :
    f'.foreignKeyRecord id entry = f.foreignKeyRecord id entry := by
  unfold foreignKeyRecord at h ⊢
  dsimp only at h ⊢
  rw [hg.display]
  by_cases ht : ForeignKey.target entry = ""
  · rw [ht] at h
    exact absurd h (by simp)
  · have hend := ForeignKey.endsOnLine_target ht
    have hempty : (ForeignKey.target entry).isEmpty = false := by simpa using ht
    rw [hempty] at h ⊢
    cases hf : Evidence.anyFound (Evidence.tableReferencePatterns (ForeignKey.target entry))
      f.text with
    | false =>
        rw [hf] at h
        exact absurd h (by simp)
    | true =>
        rw [hg.anyFound (Evidence.openEnded_tableReferencePatterns hend) hf]

/-- **Evidence of a node is not lost**: the patterns of every kind are open-ended. -/
theorem hasEvidence_of_growsTo {id : String} {kind : NodeKind}
    (h : hasEvidence f.text id kind) : hasEvidence f'.text id kind := by
  obtain ⟨hname, h⟩ := h
  have hend : EndsOnLine (NodeId.ofString id).name.toList := endsOnLine_trim hname
  refine ⟨hname, ?_⟩
  cases kind with
  | type => exact hg.anyFound (Evidence.openEnded_typePatterns hend) h
  | method => exact hg.anyFound (Evidence.openEnded_methodPatterns _) h
  | table => exact hg.anyFound (Evidence.openEnded_tablePatterns hend) h
  | endpoint => exact ⟨h.1, hg.hasRoute h.2⟩
  | event | custom _ => exact hg.anyFound (Evidence.openEnded_eventPatterns hend) h

theorem existsRecord_ne_fail {id : String} {kind : NodeKind}
    (h : (f.existsRecord id kind).status ≠ .fail) : (f'.existsRecord id kind).status ≠ .fail := by
  rw [Ne, existsRecord_fail_iff hg.returnFree, not_not] at h
  rw [Ne, existsRecord_fail_iff hg.returnFree', not_not]
  exact hasEvidence_of_growsTo hg h

theorem valueRecords_ne_fail {id : String} {values : List String}
    (h : ∀ row ∈ f.valueRecords id values, row.status ≠ .fail) :
    ∀ row ∈ f'.valueRecords id values, row.status ≠ .fail := by
  rw [valueRecords_ne_fail_iff] at h ⊢
  intro v hv
  exact hg.contains (h v hv)

theorem schemaRecords_ne_fail {id : String} {schema : Option String}
    (h : ∀ row ∈ f.schemaRecords id schema, row.status ≠ .fail) :
    ∀ row ∈ f'.schemaRecords id schema, row.status ≠ .fail := by
  rw [schemaRecords_ne_fail_iff] at h ⊢
  intro name hn
  exact hg.namesSchema (h name hn)

theorem furtherRecords_ne_fail {id : String} {node : NodeRecord} {kind : NodeKind}
    (h : ∀ row ∈ f.furtherRecords id node kind, row.status ≠ .fail) :
    ∀ row ∈ f'.furtherRecords id node kind, row.status ≠ .fail := by
  unfold furtherRecords at h ⊢
  split
  · simp
  · rename_i hname
    rw [if_neg hname] at h
    cases kind with
    | type =>
        rw [List.forall_mem_append] at h ⊢
        exact ⟨valueRecords_ne_fail hg h.1, schemaRecords_ne_fail hg h.2⟩
    | table =>
        intro row hrow
        obtain ⟨entry, -, rfl⟩ := List.mem_map.mp hrow
        exact f'.foreignKeyRecord_ne_fail id entry
    | _ => simp

/-- **A node that has no failure gets none.** -/
theorem nodeRecords_ne_fail {id : String} {node : NodeRecord} {kind : NodeKind}
    (hk : kind.isCustom = false) (h : ∀ row ∈ f.nodeRecords id node kind, row.status ≠ .fail) :
    ∀ row ∈ f'.nodeRecords id node kind, row.status ≠ .fail := by
  rw [nodeRecords_eq f id node hk, List.forall_mem_cons] at h
  rw [nodeRecords_eq f' id node hk, List.forall_mem_cons]
  exact ⟨existsRecord_ne_fail hg h.1, furtherRecords_ne_fail hg h.2⟩

/-- Foreign keys are declared by tables alone, and nothing but their entries stands behind the
`exists` record of a table. -/
theorem furtherRecords_foreignKey {id : String} {node : NodeRecord} {kind : NodeKind} {k : Nat}
    {row : CheckRecord} (hrow : (f.furtherRecords id node kind)[k]? = some row)
    (hc : row.check = "fk") (hp : row.status = .pass) :
    (f'.furtherRecords id node kind)[k]? = some row := by
  unfold furtherRecords at hrow ⊢
  by_cases hname : (NodeId.ofString id).name.isEmpty = true
  · rw [if_pos hname] at hrow ⊢
    exact hrow
  · rw [if_neg hname] at hrow ⊢
    cases kind with
    | type =>
        rcases List.mem_append.mp (List.mem_of_getElem? hrow) with hr | hr
        · rw [(mem_valueRecords hr).2] at hc
          exact absurd hc (by decide)
        · rw [(mem_schemaRecords hr).2] at hc
          exact absurd hc (by decide)
    | table =>
        rw [List.getElem?_map, Option.map_eq_some_iff] at hrow ⊢
        obtain ⟨entry, hentry, rfl⟩ := hrow
        exact ⟨entry, hentry, foreignKeyRecord_of_pass hg hp⟩
    | _ => exact hrow

/-- A foreign key that passes keeps its record in its place. -/
theorem nodeRecords_foreignKey {id : String} {node : NodeRecord} {kind : NodeKind} {k : Nat}
    {row : CheckRecord} (hk : kind.isCustom = false)
    (hrow : (f.nodeRecords id node kind)[k]? = some row)
    (hc : row.check = "fk") (hp : row.status = .pass) :
    (f'.nodeRecords id node kind)[k]? = some row := by
  rw [nodeRecords_eq f id node hk] at hrow
  rw [nodeRecords_eq f' id node hk]
  cases k with
  | zero =>
      rw [List.getElem?_cons_zero, Option.some.injEq] at hrow
      rw [← hrow, existsRecord_check] at hc
      exact absurd hc (by decide)
  | succ k =>
      rw [List.getElem?_cons_succ] at hrow ⊢
      exact furtherRecords_foreignKey hg hrow hc hp

/-! ## Edges -/

omit hg in
/-- A verdict other than the one for missing evidence rests on evidence. -/
theorem anyFound_of_verdict_ne {ps : List Pattern} {found : String} {otherwise : Status × String}
    (h : (f.verdict ps found otherwise).1 ≠ otherwise.1) : Evidence.anyFound ps f.text = true := by
  by_contra hf
  unfold verdict at h
  rw [if_neg hf] at h
  exact h rfl

/-- Such a verdict stays word for word. -/
theorem verdict_eq {ps : List Pattern} {found : String} {otherwise : Status × String}
    (hopen : Evidence.OpenEnded ps) (h : (f.verdict ps found otherwise).1 ≠ otherwise.1) :
    f'.verdict ps found otherwise = f.verdict ps found otherwise := by
  have hf := anyFound_of_verdict_ne h
  unfold verdict
  rw [if_pos hf, if_pos (hg.anyFound hopen hf)]

theorem verdict_of_pass {ps : List Pattern} {found : String} {otherwise : Status × String}
    (hopen : Evidence.OpenEnded ps) (hother : otherwise.1 ≠ .pass)
    (h : (f.verdict ps found otherwise).1 = .pass) :
    f'.verdict ps found otherwise = f.verdict ps found otherwise := by
  apply verdict_eq hg hopen
  rw [h]
  exact hother.symm

theorem validatesVerdict_eq {target : String} {schema : Option String}
    (h : (f.validatesVerdict target schema).1 ≠ .fail) :
    f'.validatesVerdict target schema = f.validatesVerdict target schema := by
  unfold validatesVerdict at h ⊢
  cases hs : schema.bind nonBlank? with
  | none => rfl
  | some name =>
      rw [hs] at h
      obtain ⟨raw, -, hname⟩ := Option.bind_eq_some_iff.mp hs
      exact verdict_eq hg (Evidence.openEnded_validationPatterns (endsOnLine_nonBlank? hname)) h

/-- **A verdict on an edge does not begin to fail.** -/
theorem edgeVerdict_ne_fail {e : EdgeRecord} {schema : Option String}
    (h : (f.edgeVerdict e schema).1 ≠ .fail) : (f'.edgeVerdict e schema).1 ≠ .fail := by
  -- Where missing evidence only warns there is nothing to keep.
  have hwarn : ∀ {ps : List Pattern} {found missing : String},
      (f'.verdict ps found (.warn, missing)).1 ≠ .fail := by
    intro ps found missing
    unfold verdict
    split <;> simp
  unfold edgeVerdict at h ⊢
  dsimp only at h ⊢
  cases hr : e.relation with
  | coChange => simp
  | validates =>
      rw [hr] at h
      dsimp only at h ⊢
      rw [validatesVerdict_eq hg h]
      exact h
  | calls =>
      rw [hr] at h
      have heq := verdict_eq hg (Evidence.openEnded_callPatterns _) h
      dsimp only
      unfold callsVerdict
      rw [heq]
      exact h
  | writes => exact hwarn
  | reads => exact hwarn
  | emits =>
      rw [hr] at h
      have heq := verdict_eq hg (Evidence.openEnded_quotedLiteralPatterns _) h
      dsimp only
      unfold emitsVerdict
      rw [heq]
      exact h
  | listens => exact hwarn
  | custom rel => simp

/-- **A verdict on an edge that passes stays what it is**, if the edge's target has a name. -/
theorem edgeVerdict_of_pass {e : EdgeRecord} {schema : Option String}
    (hname : (NodeId.ofString e.target).name ≠ "") (h : (f.edgeVerdict e schema).1 = .pass) :
    f'.edgeVerdict e schema = f.edgeVerdict e schema := by
  have hend : EndsOnLine (NodeId.ofString e.target).name.toList := endsOnLine_trim hname
  unfold edgeVerdict at h ⊢
  dsimp only at h ⊢
  cases hr : e.relation with
  | coChange => rfl
  | validates =>
      rw [hr] at h
      dsimp only at h ⊢
      exact validatesVerdict_eq hg (by rw [h]; decide)
  | calls =>
      rw [hr] at h
      exact verdict_of_pass hg (Evidence.openEnded_callPatterns _) (by simp) h
  | writes | reads =>
      rw [hr] at h
      exact verdict_of_pass hg (Evidence.openEnded_tableAccessPatterns hend) (by simp) h
  | emits | listens =>
      rw [hr] at h
      exact verdict_of_pass hg (Evidence.openEnded_quotedLiteralPatterns _) (by simp) h
  | custom rel => rfl

end SourceFile

end ContractAudit
