import ContractAudit.Document.Decode
import ContractAudit.Proofs.Decoding.Becomes
import ContractAudit.Proofs.Yaml.Meaning

/-!
# Marks do not matter

A decoder ignores marks if it gives the same value for trees that are alike (`IgnoresMarks`). All
decoders do: marks are for faults only. There is one lemma per combinator, and contract maps are
decoded with these combinators alone (`ignoresMarks_document`).
-/

namespace ContractAudit.Decoding

open Yaml (Node Mark)

variable {α β δ : Type}

/-- The decoder gives the same value for trees that are alike. -/
def IgnoresMarks (read : Context → Node → Decode α) : Prop :=
  ∀ ctx ctx' node node', ctx.Alike ctx' → node.Alike node' →
    Becomes (read ctx node) (some Eq) (read ctx' node')

/-- At one node a decoder becomes itself. -/
theorem IgnoresMarks.same {read : Context → Node → Decode α} (h : IgnoresMarks read) (ctx : Context)
    (node : Node) : Becomes (read ctx node) (some Eq) (read ctx node) :=
  h ctx ctx node node (.refl ctx) (.refl node)

/-! ## Values -/

/-- The texts of scalars are read, whether they stand there or are referred to. -/
theorem becomes_textOf (expected : String) {ctx ctx' : Context} {node node' : Node}
    (hctx : ctx.Alike ctx') (hnode : node.Alike node') :
    Becomes (textOf expected ctx node)
      (some fun s s' => s' = s ∧ scalarAt? ctx.targets node = some s) (textOf expected ctx' node') := by
  refine becomes_visit_found hctx hnode fun n n' hfound hn => ?_
  cases hn.shape with
  | scalar => exact becomes_pure ⟨rfl, scalarAt?_of_finds hfound⟩
  | sequence | mapping | reference | cut => exact becomes_mismatch _

theorem ignoresMarks_textOf (expected : String) : IgnoresMarks (textOf expected) :=
  fun _ _ _ _ hctx hnode => (becomes_textOf expected hctx hnode).imp fun _ _ h => h.1.symm

theorem becomes_ignore {node node' : Node} (h : node.Alike node') :
    Becomes (ignore node) (some Eq) (ignore node') := by
  unfold ignore
  rw [← Node.isCut_of_alike node node' h]
  exact Becomes.ite (fun _ => becomes_throw _) fun _ => becomes_pure rfl

/-- The value of a node, unless style, tag and text make it a null. -/
def unlessNull (present : Decode (Option α)) : Node → Decode (Option α)
  | .cut => throw .cut
  | .scalar p .plain s =>
    match p.tag with
    | none => if s.isEmpty || Yaml.isNullWord s then pure none else present
    | some t =>
      if Yaml.CoreTag.ofString? t = some .null then
        if Yaml.isNullWord s then pure none else mismatch (.invalidValue (.text s) "null")
      else present
  | _ => present

/-- The node itself, or the one an alias stands for. -/
def dealias (ctx : Context) : Node → Decode Node
  | .alias _ target => ctx.follow target
  | node => pure node

theorem optional_eq (read : Context → Node → Decode α) (ctx : Context) (node : Node) :
    optional read ctx node =
      dealias ctx node >>= fun node => unlessNull (do return some (← read ctx node)) node := by
  cases node <;> rfl

theorem ignoresMarks_optional {read : Context → Node → Decode α} (h : IgnoresMarks read) :
    IgnoresMarks (optional read) := by
  intro ctx ctx' node node' hctx hnode
  rw [optional_eq, optional_eq]
  refine Becomes.bind (R := Node.Alike) ?_ fun n n' hn => ?_
  · cases hnode.shape with
    | reference => exact (becomes_follow hctx _).imp fun _ _ h => h.2
    | scalar | sequence | mapping | cut => exact becomes_pure hnode
  · have hpresent : Becomes (do return some (← read ctx n) : Decode (Option α)) (some Eq)
        (do return some (← read ctx' n') : Decode (Option α)) :=
      (h ctx ctx' n n' hctx hn).bind_eq fun a => becomes_pure rfl
    cases hn.shape with
    | cut => exact becomes_throw _
    | sequence | mapping | reference => exact hpresent
    | scalar p mark style s =>
        cases style with
        | plain =>
            obtain ⟨_, _, tag⟩ := p
            cases tag with
            | none => exact Becomes.ite (fun _ => becomes_pure rfl) fun _ => hpresent
            | some t =>
                refine Becomes.ite (fun _ => ?_) fun _ => hpresent
                exact Becomes.ite (fun _ => becomes_pure rfl) fun _ => becomes_mismatch _
        | _ => exact hpresent

/-! ## Collections -/

theorem ignoresMarks_items {read : Context → Node → Decode α} (h : IgnoresMarks read) :
    IgnoresMarks (items read) := by
  intro ctx ctx' node node' hctx hnode
  refine becomes_visit hctx hnode fun n n' hn => ?_
  cases hn.shape with
  | sequence p mark hitems =>
      refine becomes_enter hctx fun inner inner' hinner => ?_
      refine becomes_mapM (forall₂_zipIdx hitems 0) ?_
      rintro ⟨n, i⟩ ⟨n', j⟩ ⟨hn, rfl⟩
      exact h _ _ _ _ (hinner.step _ _) hn
  | scalar p mark style s =>
      exact Becomes.ite (fun _ => becomes_pure rfl) fun _ => becomes_mismatch _
  | mapping | reference | cut => exact becomes_mismatch _

theorem becomes_entries {expected : String} {start : α} {step : Context → α → Node × Node → Decode α}
    {finish : α → Decode β}
    (hstep : ∀ ctx ctx' acc e e', ctx.Alike ctx' → Node.AlikeEntry e e' →
      Becomes (step ctx acc e) (some Eq) (step ctx' acc e'))
    (hfinish : ∀ acc, Becomes (finish acc) (some Eq) (finish acc)) :
    IgnoresMarks (entries expected start step finish) := by
  intro ctx ctx' node node' hctx hnode
  refine becomes_visit hctx hnode fun n n' hn => ?_
  cases hn.shape with
  | mapping p mark hentries =>
      refine becomes_enter hctx fun inner inner' hinner => ?_
      refine Becomes.bind_eq (becomes_foldlM hentries ?_ rfl) hfinish
      rintro acc _ e e' rfl he
      exact hstep inner inner' acc e e' hinner he
  | scalar p mark style s => exact Becomes.ite (fun _ => hfinish _) fun _ => becomes_mismatch _
  | sequence | reference | cut => exact becomes_mismatch _

theorem ignoresMarks_named {read : Context → Node → Decode α} (h : IgnoresMarks read) :
    IgnoresMarks (named read) := by
  refine becomes_entries ?_ fun _ => becomes_pure rfl
  rintro ctx ctx' acc ⟨k, v⟩ ⟨k', v'⟩ hctx ⟨hk, hv⟩
  refine (ignoresMarks_textOf _ _ _ _ _ hctx hk).bind_eq fun name => ?_
  exact (h _ _ _ _ (hctx.under k k') hv).bind_eq fun a => becomes_pure rfl

/-! ## Records -/

variable {fields : List (RecordField δ)}

/-- All fields are read by decoders that ignore marks. -/
def FieldsIgnoreMarks (fields : List (RecordField δ)) : Prop :=
  ∀ field ∈ fields, ∀ d, IgnoresMarks fun ctx node => field.read ctx node d

theorem fieldsIgnoreMarks_nil : FieldsIgnoreMarks ([] : List (RecordField δ)) := nofun

theorem fieldsIgnoreMarks_cons {name : String} {read : Context → Node → Decode α} {set : δ → α → δ}
    (hread : IgnoresMarks read) (h : FieldsIgnoreMarks fields) :
    FieldsIgnoreMarks (.of name read set :: fields) :=
  List.forall_mem_cons.mpr ⟨fun _ _ _ _ _ hctx hnode =>
    (hread _ _ _ _ hctx hnode).bind_eq fun _ => becomes_pure rfl, h⟩

theorem becomes_readField (h : FieldsIgnoreMarks fields) {ctx ctx' : Context} {e e' : Node × Node}
    (state : List String × δ) (hctx : ctx.Alike ctx') (he : Node.AlikeEntry e e') :
    Becomes (readField fields ctx state e) (some Eq) (readField fields ctx' state e') := by
  refine (ignoresMarks_textOf _ _ _ _ _ hctx he.1).bind_eq fun name => ?_
  split
  · exact (becomes_ignore he.2).bind_eq fun _ => becomes_pure rfl
  · rename_i field hfield
    refine Becomes.ite (fun _ => becomes_mismatch _) fun _ => ?_
    exact (h field (List.mem_of_find?_eq_some hfield) _ _ _ _ _ (hctx.under _ _) he.2).bind_eq
      fun d => becomes_pure rfl

theorem ignoresMarks_record {typeName : String} {needed : List String} {start : δ}
    (h : FieldsIgnoreMarks fields) : IgnoresMarks (record typeName fields needed start) := by
  refine becomes_entries (fun _ _ acc _ _ hctx he => becomes_readField h acc hctx he) ?_
  rintro ⟨seen, d⟩
  dsimp only
  split
  · exact becomes_mismatch _
  · exact becomes_pure rfl

/-! ## Free values and contents -/

theorem becomes_freeScalar (m : Yaml.Meaning) : Becomes (freeScalar m) (some Eq) (freeScalar m) := by
  cases m with
  | wide => exact becomes_mismatch _
  | null | bool | int | float | text => exact becomes_pure rfl

theorem ignoresMarks_freeAt (levels : Nat) : IgnoresMarks (freeAt levels) := by
  induction levels using Nat.strongRecOn with
  | ind levels ih =>
      intro ctx ctx' node node' hctx hnode
      unfold freeAt
      refine becomes_visit hctx hnode fun n n' hn => ?_
      cases hn.shape with
      | scalar p mark style s =>
          refine Becomes.ite (fun _ => becomes_mismatch _) fun _ => ?_
          dsimp only
          split
          · exact becomes_freeScalar _
          · exact becomes_mismatch _
      | sequence p mark hitems =>
          refine Becomes.ite (fun _ => becomes_mismatch _) fun _ => ?_
          cases levels with
          | zero => exact becomes_throw _
          | succ below =>
              refine Becomes.bind_eq (becomes_mapM (forall₂_zipIdx hitems 0) ?_) fun _ =>
                becomes_pure rfl
              rintro ⟨n, i⟩ ⟨n', j⟩ ⟨hn, rfl⟩
              exact ih below (Nat.lt_succ_self _) _ _ _ _ (hctx.step _ _) hn
      | mapping p mark hentries =>
          refine Becomes.ite (fun _ => becomes_mismatch _) fun _ => ?_
          cases levels with
          | zero => exact becomes_throw _
          | succ below =>
              refine Becomes.bind_eq (becomes_mapM (forall₂_zipIdx hentries 0) ?_) fun _ =>
                becomes_pure rfl
              rintro ⟨⟨k, v⟩, i⟩ ⟨⟨k', v'⟩, j⟩ ⟨⟨hk, hv⟩, rfl⟩
              refine (ignoresMarks_textOf _ _ _ _ _ hctx hk).bind_eq fun name => ?_
              exact (ih below (Nat.lt_succ_self _) _ _ _ _ (hctx.under k k') hv).bind_eq fun a =>
                becomes_pure rfl
      | reference | cut => exact becomes_throw _

theorem ignoresMarks_free : IgnoresMarks free := by
  intro ctx ctx' node node' hctx hnode
  unfold free
  rw [← hctx.levels]
  exact ignoresMarks_freeAt _ _ _ _ _ hctx hnode

/-- What is taken apart into text is a scalar with this text. -/
def KeyedBy (targets : List (Nat × Node)) (node : Node) (c : Content) : Prop :=
  ∀ s, c.text? = some s → scalarAt? targets node = some s

theorem keyedBy_scalar {ctx : Context} {node : Node} {p : Yaml.Props} {style : Yaml.ScalarStyle}
    {s : String} {m : Yaml.Meaning} (hfound : ctx.Finds node (.scalar p style s))
    (hm : Yaml.scalarMeaning p.tag style s = .ok m) : KeyedBy ctx.targets node (.scalar m) := by
  intro t ht
  cases m with
  | text =>
      cases ht
      rw [Yaml.scalarMeaning_eq_text hm]
      exact scalarAt?_of_finds hfound
  | null | bool | int | wide | float => cases ht

theorem becomes_contentAt (levels : Nat) {ctx ctx' : Context} {node node' : Node}
    (hctx : ctx.Alike ctx') (hnode : node.Alike node') :
    Becomes (contentAt levels ctx node) (some fun c c' => c' = c ∧ KeyedBy ctx.targets node c)
      (contentAt levels ctx' node') := by
  -- The levels matter only where members are decoded, so they are split there and not at first.
  induction levels using Nat.strongRecOn generalizing ctx ctx' node node' with
  | ind levels ih =>
      unfold contentAt
      refine becomes_visit_found hctx hnode fun n n' hfound hn => ?_
      cases hn.shape with
      | scalar p mark style s =>
          refine Becomes.ite (fun _ => becomes_mismatch _) fun _ => ?_
          dsimp only
          split
          · exact becomes_mismatch _
          · rename_i hmeaning
            exact becomes_pure ⟨rfl, keyedBy_scalar hfound hmeaning⟩
          · exact becomes_mismatch _
      | sequence p mark hitems =>
          refine Becomes.ite (fun _ => becomes_mismatch _) fun _ => ?_
          cases levels with
          | zero => exact becomes_throw _
          | succ below =>
              refine Becomes.bind_eq (becomes_forM (forall₂_zipIdx hitems 0) ?_) fun _ =>
                becomes_pure ⟨rfl, nofun⟩
              rintro ⟨n, i⟩ ⟨n', j⟩ ⟨hn, rfl⟩
              exact (ih below (Nat.lt_succ_self _) (hctx.step _ _) hn).bind fun _ _ _ =>
                becomes_pure rfl
      | mapping p mark hentries =>
          refine Becomes.ite (fun _ => becomes_mismatch _) fun _ => ?_
          cases levels with
          | zero => exact becomes_throw _
          | succ below =>
              refine Becomes.bind_eq (becomes_mapM hentries ?_) fun _ => becomes_pure ⟨rfl, nofun⟩
              rintro ⟨k, v⟩ ⟨k', v'⟩ ⟨hk, hv⟩
              refine (ih below (Nat.lt_succ_self _) hctx hk).bind ?_
              rintro key _ ⟨rfl, -⟩
              refine (ih below (Nat.lt_succ_self _) (hctx.under k k') hv).bind ?_
              rintro value _ ⟨rfl, -⟩
              exact becomes_pure rfl
      | reference | cut => exact becomes_throw _

theorem ignoresMarks_contentAt (levels : Nat) : IgnoresMarks (contentAt levels) :=
  fun _ _ _ _ hctx hnode => (becomes_contentAt levels hctx hnode).imp fun _ _ h => h.1.symm

theorem ignoresMarks_content : IgnoresMarks content := by
  intro ctx ctx' node node' hctx hnode
  unfold content
  rw [← hctx.levels]
  exact ignoresMarks_contentAt _ _ _ _ _ hctx hnode

theorem ignoresMarks_scalarText : IgnoresMarks scalarText := by
  intro ctx ctx' node node' hctx hnode
  refine (ignoresMarks_content _ _ _ _ hctx hnode).bind_eq fun c => ?_
  split
  · exact becomes_pure rfl
  · exact becomes_mismatch _

end ContractAudit.Decoding

namespace ContractAudit

/-! ## Contract maps -/

open Decoding

theorem ignoresMarks_continuation : IgnoresMarks Continuation.decode := by
  intro ctx ctx' node node' hctx hnode
  refine (ignoresMarks_content _ _ _ _ hctx hnode).bind_eq fun c => ?_
  split
  · exact becomes_pure rfl
  · exact becomes_mismatch _

theorem fieldsIgnoreMarks_node : FieldsIgnoreMarks NodeRecord.fields :=
  have hoptional := ignoresMarks_optional (ignoresMarks_textOf "a string")
  have hscalars := ignoresMarks_optional (ignoresMarks_items ignoresMarks_scalarText)
  have hfree := ignoresMarks_optional ignoresMarks_free
  fieldsIgnoreMarks_cons hoptional <| fieldsIgnoreMarks_cons hoptional <|
  fieldsIgnoreMarks_cons hoptional <| fieldsIgnoreMarks_cons hoptional <|
  fieldsIgnoreMarks_cons hscalars <| fieldsIgnoreMarks_cons hscalars <|
  fieldsIgnoreMarks_cons hfree <| fieldsIgnoreMarks_cons hfree <| fieldsIgnoreMarks_cons hfree <|
  fieldsIgnoreMarks_cons hfree <| fieldsIgnoreMarks_cons hfree <| fieldsIgnoreMarks_cons hfree <|
  fieldsIgnoreMarks_cons hfree <| fieldsIgnoreMarks_cons hfree <|
  fieldsIgnoreMarks_cons hfree fieldsIgnoreMarks_nil

theorem ignoresMarks_edge : IgnoresMarks EdgeRecord.decode :=
  ignoresMarks_record <| fieldsIgnoreMarks_cons (ignoresMarks_textOf _) <|
  fieldsIgnoreMarks_cons (ignoresMarks_textOf _) <| fieldsIgnoreMarks_cons (ignoresMarks_textOf _) <|
  fieldsIgnoreMarks_cons (ignoresMarks_optional (ignoresMarks_textOf _)) fieldsIgnoreMarks_nil

theorem ignoresMarks_invariant : IgnoresMarks InvariantRecord.decode :=
  ignoresMarks_record <| fieldsIgnoreMarks_cons (ignoresMarks_textOf _) <|
  fieldsIgnoreMarks_cons (ignoresMarks_textOf _) <|
  fieldsIgnoreMarks_cons (ignoresMarks_items (ignoresMarks_textOf _)) <|
  fieldsIgnoreMarks_cons (ignoresMarks_optional (ignoresMarks_textOf _)) fieldsIgnoreMarks_nil

theorem ignoresMarks_metadata : IgnoresMarks Meta.decode :=
  ignoresMarks_record <| fieldsIgnoreMarks_cons (ignoresMarks_textOf _) <|
  fieldsIgnoreMarks_cons (ignoresMarks_textOf _) fieldsIgnoreMarks_nil

theorem fieldsIgnoreMarks_step : FieldsIgnoreMarks Step.fields :=
  fieldsIgnoreMarks_cons (ignoresMarks_textOf _) <|
  fieldsIgnoreMarks_cons ignoresMarks_continuation fieldsIgnoreMarks_nil

theorem fieldsIgnoreMarks_flow : FieldsIgnoreMarks FlowRecord.fields :=
  fieldsIgnoreMarks_cons (ignoresMarks_textOf _) <|
  fieldsIgnoreMarks_cons (ignoresMarks_items (ignoresMarks_record fieldsIgnoreMarks_step))
    fieldsIgnoreMarks_nil

theorem fieldsIgnoreMarks_document : FieldsIgnoreMarks Document.fields :=
  fieldsIgnoreMarks_cons ignoresMarks_scalarText <| fieldsIgnoreMarks_cons ignoresMarks_metadata <|
  fieldsIgnoreMarks_cons (ignoresMarks_named (ignoresMarks_record fieldsIgnoreMarks_node)) <|
  fieldsIgnoreMarks_cons (ignoresMarks_items ignoresMarks_edge) <|
  fieldsIgnoreMarks_cons (ignoresMarks_named (ignoresMarks_record fieldsIgnoreMarks_flow)) <|
  fieldsIgnoreMarks_cons (ignoresMarks_items ignoresMarks_invariant) fieldsIgnoreMarks_nil

theorem ignoresMarks_document : IgnoresMarks Document.decode :=
  ignoresMarks_record fieldsIgnoreMarks_document

end ContractAudit
