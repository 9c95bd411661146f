import ContractAudit.Proofs.Decoding.Edits
import ContractAudit.Proofs.Yaml.Rearranged

/-!
# Decoding rearranged trees

A decoder keeps to a relation between trees if it gives the same value for every tree that is related
to one without aliases for which it gives a value; nothing is followed on the way, so that no limit is
met (`KeepsTo`). Free values keep to any order of their fields, since these are sorted. An entry of a
record amounts to one change of it, or to none; changes of different fields may be made in any order,
and so a record keeps to any order of its entries and to further ones between them.
-/

namespace ContractAudit

/-! ## Sorted fields -/

namespace Json

theorem lt_or_lt_of_ne {a b : String} (h : a ≠ b) : a < b ∨ b < a := by
  by_cases hlt : a < b
  · exact .inl hlt
  · refine .inr (Classical.byContradiction fun hge => h ?_)
    exact String.le_antisymm (String.not_lt.mp hge) (String.not_lt.mp hlt)

theorem insertField_comm {a b : String} (hne : a ≠ b) (x y : Json) (fields : List (String × Json)) :
    insertField a x (insertField b y fields) = insertField b y (insertField a x fields) := by
  wlog hlt : a < b generalizing a b x y
  · exact (this hne.symm y x ((lt_or_lt_of_ne hne).resolve_left hlt)).symm
  have hge : ¬ b < a := String.lt_asymm hlt
  -- Where `b` goes in front of a field, so does `a`; behind it both look further or `a` is placed.
  induction fields with
  | nil => simp [insertField, hne, hne.symm, hlt, hge]
  | cons f rest ih =>
      obtain ⟨n, v⟩ := f
      by_cases hbn : b = n
      · subst hbn
        simp [insertField, hne, hne.symm, hlt, hge]
      · by_cases hlt' : b < n
        · have han : a < n := String.lt_trans hlt hlt'
          have hna : a ≠ n := fun h => String.lt_irrefl n (h ▸ han)
          simp [insertField, hbn, hlt', han, hna, hne, hne.symm, hlt, hge]
        · by_cases han : a = n
          · subst han
            simp [insertField, hne.symm, hge]
          · by_cases han' : a < n <;> simp [insertField, hbn, hlt', han, han', hne.symm, hge, ih]

/-- Neighbours under different names may change places before they are sorted. -/
theorem sortFields_swap (before behind : List (String × Json)) {f g : String × Json}
    (hne : f.1 ≠ g.1) :
    sortFields (before ++ g :: f :: behind) = sortFields (before ++ f :: g :: behind) := by
  unfold sortFields
  rw [List.foldl_append, List.foldl_append]
  simp only [List.foldl_cons]
  rw [insertField_comm hne]

end Json

namespace Decoding

open Yaml (Node Mark)

variable {α β δ ν : Type}

/-! ## Decoders that are settled -/

/-- Where the first decoder gives a value, the second is that value. -/
def Settles (d d' : Decode α) : Prop := ∀ jumps a after, d.run jumps = .ok (a, after) → d' = pure a

theorem settles_pure (a : α) : Settles (pure a) (pure a) := by
  rintro jumps b after ⟨⟩
  rfl

theorem settles_throw {d' : Decode α} (fault : Fault) : Settles (throw fault) d' :=
  fun _ _ _ h => nomatch h

theorem settles_mismatch {d' : Decode α} (m : Mismatch) : Settles (mismatch m) d' := settles_throw _

theorem Settles.bind {d d' : Decode α} {f f' : α → Decode β} (h : Settles d d')
    (hf : ∀ a, Settles (f a) (f' a)) : Settles (d >>= f) (d' >>= f') := by
  intro jumps b after hrun
  obtain ⟨a, between, hd, hfa⟩ := run_bind_eq_ok.mp hrun
  rw [h _ _ _ hd, pure_bind, hf a _ _ _ hfa]

theorem Settles.ite {c : Prop} [Decidable c] {d d' e e' : Decode α} (hd : c → Settles d d')
    (he : ¬ c → Settles e e') : Settles (if c then d else e) (if c then d' else e') := by
  by_cases h : c
  · rw [if_pos h, if_pos h]
    exact hd h
  · rw [if_neg h, if_neg h]
    exact he h

theorem Settles.placed {d d' : Decode α} (h : Settles d d') (ctx ctx' : Context) (mark mark' : Mark) :
    Settles (ctx.placed mark d) (ctx'.placed mark' d') := by
  intro jumps a after hrun
  rw [h _ _ _ (run_placed_eq_ok.mp hrun), placed_pure]

theorem settles_enter {ctx ctx' : Context} {mark mark' : Mark} {body body' : Context → Decode α}
    (hlevels : ctx'.levels = ctx.levels)
    (h : ∀ inner inner' : Context, inner'.levels = inner.levels → Settles (body inner) (body' inner')) :
    Settles (ctx.enter mark body) (ctx'.enter mark' body') := by
  unfold Context.enter
  rw [hlevels]
  cases ctx.levels with
  | zero => exact settles_throw _
  | succ levels => exact h _ _ rfl

theorem settles_mapM {S : ν → ν → Prop} {l l' : List ν} {f f' : ν → Decode α}
    (hl : List.Forall₂ S l l') (h : ∀ n n', S n n' → Settles (f n) (f' n')) :
    Settles (l.mapM f) (l'.mapM f') := by
  induction hl with
  | nil => exact settles_pure []
  | cons hn _ ih =>
      rw [List.mapM_cons, List.mapM_cons]
      exact (h _ _ hn).bind fun a => ih.bind fun l => settles_pure _

theorem settles_forM {S : ν → ν → Prop} {l l' : List ν} {f f' : ν → Decode Unit}
    (hl : List.Forall₂ S l l') (h : ∀ n n', S n n' → Settles (f n) (f' n')) :
    Settles (l.forM f) (l'.forM f') := by
  induction hl with
  | nil => exact settles_pure ()
  | cons hn _ ih => exact (h _ _ hn).bind fun _ => ih

/-- At any place with as many levels left, the decoder gives the same value for a related tree. -/
def KeepsTo (R : Node → Node → Prop) (read : Context → Node → Decode α) : Prop :=
  ∀ ctx ctx' node node', ctx'.levels = ctx.levels → node.hasAlias = false → R node node' →
    Settles (read ctx node) (read ctx' node')

/-! ## Texts and contents -/

theorem textOf_of_text? {expected : String} {ctx : Context} {node : Node} {s : String}
    (h : node.text? = some s) : textOf expected ctx node = pure s := by
  cases node with
  | scalar p style t =>
      cases h
      rfl
  | sequence | mapping | cut | _ => cases h

theorem text?_of_run_textOf {expected : String} {ctx : Context} {node : Node} {s : String}
    {jumps after : Nat} (halias : node.hasAlias = false)
    (h : (textOf expected ctx node).run jumps = .ok (s, after)) :
    node.text? = some s ∧ after = jumps := by
  cases node with
  | scalar p style t =>
      cases h
      exact ⟨rfl, rfl⟩
  | sequence p ns => cases h
  | mapping p es => cases h
  | «alias» mark target => cases halias
  | cut => cases h

theorem settles_textOf (expected expected' : String) {ctx ctx' : Context} {node node' : Node}
    (halias : node.hasAlias = false) (hnode : node.Alike node') :
    Settles (textOf expected ctx node) (textOf expected' ctx' node') := by
  intro jumps s after hrun
  exact textOf_of_text? (hnode.text?.trans (text?_of_run_textOf halias hrun).1)

theorem keepsTo_textOf (expected : String) : KeepsTo Node.Alike (textOf expected) :=
  fun _ _ _ _ _ halias hnode => settles_textOf expected expected halias hnode

/-- Items that are alike, with their places in the list. -/
theorem forall₂_alike_zipIdx {ns ns' : List Node} (halias : ∀ n ∈ ns, n.hasAlias = false)
    (h : List.Forall₂ Node.Alike ns ns') :
    List.Forall₂ (fun e e' : Node × Nat => (e.1.hasAlias = false ∧ e.1.Alike e'.1) ∧ e.2 = e'.2)
      ns.zipIdx ns'.zipIdx :=
  forall₂_zipIdx ((List.forall₂_and_left ns ns').mpr ⟨halias, h⟩) 0

theorem settles_contentAt (levels : Nat) {ctx ctx' : Context} {node node' : Node}
    (halias : node.hasAlias = false) (hnode : node.Alike node') :
    Settles (contentAt levels ctx node) (contentAt levels ctx' node') := by
  induction levels using Nat.strongRecOn generalizing ctx ctx' node node' with
  | ind levels ih =>
      unfold contentAt
      cases hnode.shape with
      | scalar p mark style s =>
          refine Settles.placed (Settles.ite (fun _ => settles_mismatch _) fun _ => ?_) _ _ _ _
          dsimp only
          split
          · exact settles_mismatch _
          · exact settles_pure _
          · exact settles_mismatch _
      | sequence p mark hitems =>
          refine Settles.placed (Settles.ite (fun _ => settles_mismatch _) fun _ => ?_) _ _ _ _
          cases levels with
          | zero => exact settles_throw _
          | succ below =>
              have hparts := forall₂_alike_zipIdx (Node.hasAlias_item halias) hitems
              refine (settles_forM hparts ?_).bind fun _ => settles_pure _
              rintro ⟨n, i⟩ ⟨n', j⟩ ⟨⟨halias, hn⟩, rfl⟩
              exact (ih below (Nat.lt_succ_self _) halias hn).bind fun _ => settles_pure _
      | mapping p mark hentries =>
          refine Settles.placed (Settles.ite (fun _ => settles_mismatch _) fun _ => ?_) _ _ _ _
          cases levels with
          | zero => exact settles_throw _
          | succ below =>
              have hparts := (List.forall₂_and_left _ _).mpr ⟨Node.hasAlias_entry halias, hentries⟩
              refine (settles_mapM hparts ?_).bind fun _ => settles_pure _
              rintro ⟨k, v⟩ ⟨k', v'⟩ ⟨⟨hk, hv⟩, hkey, hvalue⟩
              exact (ih below (Nat.lt_succ_self _) hk hkey).bind fun key =>
                (ih below (Nat.lt_succ_self _) hv hvalue).bind fun value => settles_pure _
      | reference => cases halias
      | cut => exact settles_throw _

theorem keepsTo_content : KeepsTo Node.Alike content := by
  intro ctx ctx' node node' hlevels halias hnode
  unfold content
  rw [hlevels]
  exact settles_contentAt _ halias hnode

theorem keepsTo_scalarText : KeepsTo Node.Alike scalarText := by
  intro ctx ctx' node node' hlevels halias hnode
  refine (keepsTo_content _ _ _ _ hlevels halias hnode).bind fun c => ?_
  split
  · exact settles_pure _
  · exact settles_mismatch _

/-! ## Optional values and collections -/

/-- Whether a value is absent is seen from the outermost node. -/
theorem keepsTo_optional {R : Node → Node → Prop} {read : Context → Node → Decode α}
    (h : KeepsTo R read) (houter : ∀ {n n'}, R n n' → n.OuterAlike n') : KeepsTo R (optional read) := by
  intro ctx ctx' node node' hlevels halias hnode
  have hpresent : Settles (do return some (← read ctx node) : Decode (Option α))
      (do return some (← read ctx' node') : Decode (Option α)) :=
    (h _ _ _ _ hlevels halias hnode).bind fun a => settles_pure _
  rw [optional_eq, optional_eq]
  cases houter hnode with
  | cut => exact settles_throw _
  | reference => cases halias
  | sequence | mapping => exact hpresent
  | scalar p mark style s =>
      cases style with
      | plain =>
          obtain ⟨_, _, tag⟩ := p
          cases tag with
          | none => exact Settles.ite (fun _ => settles_pure _) fun _ => hpresent
          | some t =>
              refine Settles.ite (fun _ => ?_) fun _ => hpresent
              exact Settles.ite (fun _ => settles_pure _) fun _ => settles_mismatch _
      | _ => exact hpresent

theorem keepsTo_items {R : Node → Node → Prop} {read : Context → Node → Decode α} (h : KeepsTo R read) :
    KeepsTo (Node.ItemsLike R) (items read) := by
  intro ctx ctx' node node' hlevels halias hnode
  cases hnode with
  | scalar p mark style s =>
      refine Settles.placed ?_ ctx ctx' _ _
      exact Settles.ite (fun _ => settles_pure _) fun _ => settles_mismatch _
  | sequence p mark hitems =>
      refine Settles.placed ?_ ctx ctx' _ _
      refine settles_enter hlevels fun inner inner' hinner => ?_
      refine settles_mapM (forall₂_zipIdx ((List.forall₂_and_left _ _).mpr
        ⟨Node.hasAlias_item halias, hitems⟩) 0) ?_
      rintro ⟨n, i⟩ ⟨n', j⟩ ⟨⟨halias, hn⟩, rfl⟩
      exact h _ _ _ _ hinner halias hn

theorem keepsTo_named {R : Node → Node → Prop} {read : Context → Node → Decode α} (h : KeepsTo R read) :
    KeepsTo (Node.EntriesLike R) (named read) := by
  intro ctx ctx' node node' hlevels halias hnode
  cases hnode with
  | scalar p mark style s =>
      refine Settles.placed ?_ ctx ctx' _ _
      exact Settles.ite (fun _ => settles_pure _) fun _ => settles_mismatch _
  | mapping p mark hentries =>
      rw [named_mapping, named_mapping]
      refine Settles.placed ?_ ctx ctx' _ _
      refine settles_enter hlevels fun inner inner' hinner => ?_
      refine settles_mapM ((List.forall₂_and_left _ _).mpr
        ⟨Node.hasAlias_entry halias, hentries⟩) ?_
      rintro ⟨k, v⟩ ⟨k', v'⟩ ⟨⟨hk, hv⟩, hkey, hvalue⟩
      exact (settles_textOf _ _ hk hkey).bind fun name =>
        (h (inner.under k) (inner'.under k') _ _ hinner hv hvalue).bind fun a => settles_pure _

/-! ## Free values -/

/-- With these levels left, one free value takes the place of another at every place. -/
def FreelySettles (levels : Nat) (node node' : Node) : Prop :=
  ∀ ctx ctx', Settles (freeAt levels ctx node) (freeAt levels ctx' node')

/-- Name and value of one entry of a free value. -/
def freeEntry (levels : Nat) (ctx : Context) (e : (Node × Node) × Nat) : Decode (String × Json) := do
  let name ← textOf (if e.2 = 0 then "a string key" else "a string") ctx e.1.1
  let v ← freeAt levels (ctx.under e.1.1) e.1.2
  pure (name, v)

theorem settles_freeEntry {levels : Nat} {e e' : Node × Node} (halias : e.1.hasAlias = false)
    (hkey : e.1.Alike e'.1) (hvalue : FreelySettles levels e.2 e'.2) (ctx ctx' : Context) (i j : Nat) :
    Settles (freeEntry levels ctx (e, i)) (freeEntry levels ctx' (e', j)) :=
  (settles_textOf _ _ halias hkey).bind fun _ => (hvalue _ _).bind fun _ => settles_pure _

theorem freelySettles_sequence {levels : Nat} (p : Yaml.Props) (mark : Mark) {ns ns' : List Node}
    (h : ∀ below < levels, List.Forall₂ (FreelySettles below) ns ns') :
    FreelySettles levels (.sequence p ns) (.sequence { p with mark } ns') := by
  intro ctx ctx'
  unfold freeAt
  refine Settles.placed (Settles.ite (fun _ => settles_mismatch _) fun _ => ?_) _ _ _ _
  cases levels with
  | zero => exact settles_throw _
  | succ below =>
      refine (settles_mapM (forall₂_zipIdx (h below (Nat.lt_succ_self _)) 0) ?_).bind fun _ =>
        settles_pure _
      rintro ⟨n, i⟩ ⟨n', j⟩ ⟨hn, rfl⟩
      exact hn _ _

theorem freelySettles_mapping {levels : Nat} (p : Yaml.Props) (mark : Mark) {es es' : List (Node × Node)}
    (h : ∀ below < levels, List.Forall₂ (fun e e' : Node × Node =>
      e.1.hasAlias = false ∧ e.1.Alike e'.1 ∧ FreelySettles below e.2 e'.2) es es') :
    FreelySettles levels (.mapping p es) (.mapping { p with mark } es') := by
  intro ctx ctx'
  unfold freeAt
  refine Settles.placed (Settles.ite (fun _ => settles_mismatch _) fun _ => ?_) _ _ _ _
  cases levels with
  | zero => exact settles_throw _
  | succ below =>
      have hentries : Settles (es.zipIdx.mapM (freeEntry below ctx))
          (es'.zipIdx.mapM (freeEntry below ctx')) := by
        refine settles_mapM (forall₂_zipIdx (h below (Nat.lt_succ_self _)) 0) ?_
        rintro ⟨e, i⟩ ⟨e', j⟩ ⟨⟨halias, hkey, hvalue⟩, rfl⟩
        exact settles_freeEntry halias hkey hvalue ctx ctx' _ _
      exact hentries.bind fun _ => settles_pure _

theorem freelySettles_of_alike (levels : Nat) {node node' : Node} (halias : node.hasAlias = false)
    (hnode : node.Alike node') : FreelySettles levels node node' := by
  induction levels using Nat.strongRecOn generalizing node node' with
  | ind levels ih =>
      cases hnode.shape with
      | scalar p mark style s =>
          intro ctx ctx'
          unfold freeAt
          refine Settles.placed (Settles.ite (fun _ => settles_mismatch _) fun _ => ?_) _ _ _ _
          dsimp only
          split
          · rename_i m _
            cases m with
            | wide => exact settles_mismatch _
            | null | bool | int | float | text => exact settles_pure _
          · exact settles_mismatch _
      | sequence p mark hitems =>
          refine freelySettles_sequence p mark fun below hbelow => ?_
          refine ((List.forall₂_and_left _ _).mpr ⟨Node.hasAlias_item halias, hitems⟩).imp ?_
          exact fun n n' hn => ih below hbelow hn.1 hn.2
      | mapping p mark hentries =>
          refine freelySettles_mapping p mark fun below hbelow => ?_
          refine ((List.forall₂_and_left _ _).mpr ⟨Node.hasAlias_entry halias, hentries⟩).imp ?_
          exact fun e e' he => ⟨he.1.1, he.2.1, ih below hbelow he.1.2 he.2.2⟩
      | reference => cases halias
      | cut =>
          intro ctx ctx'
          unfold freeAt
          exact settles_throw _

theorem freelySettles_self (levels : Nat) {node : Node} (halias : node.hasAlias = false) :
    FreelySettles levels node node :=
  freelySettles_of_alike levels halias (.refl node)

/-- What was decoded from each member of a list is decoded from the list. -/
theorem forall₂_of_run_mapM {f : ν → Decode α} {P : ν → α → Prop} {l : List ν} {as : List α}
    {jumps after : Nat} (h : ∀ n ∈ l, ∀ jumps a after, (f n).run jumps = .ok (a, after) → P n a)
    (hrun : (l.mapM f).run jumps = .ok (as, after)) : List.Forall₂ P l as := by
  induction l generalizing as jumps after with
  | nil =>
      cases hrun
      exact .nil
  | cons n l ih =>
      obtain ⟨hn, hl⟩ := List.forall_mem_cons.mp h
      rw [List.mapM_cons] at hrun
      obtain ⟨a, _, ha, hrun⟩ := run_bind_eq_ok.mp hrun
      obtain ⟨rest, _, hrest, hrun⟩ := run_bind_eq_ok.mp hrun
      cases hrun
      exact .cons (hn _ _ _ ha) (ih hl hrest)

theorem forall₂_of_zipIdx {P : ν → α → Prop} {l : List ν} {as : List α} {i : Nat}
    (h : List.Forall₂ (fun e : ν × Nat => P e.1) (l.zipIdx i) as) : List.Forall₂ P l as := by
  rw [← List.zipIdx_map_fst i l, List.forall₂_map_left_iff]
  exact h

/-- Two neighbours in one list are two neighbours in the other. -/
theorem forall₂_swap {P : ν → α → Prop} {before behind : List ν} {e f : ν} {l : List α}
    (h : List.Forall₂ P (before ++ e :: f :: behind) l) :
    ∃ first x y last, l = first ++ x :: y :: last ∧ P e x ∧ P f y ∧
      List.Forall₂ P (before ++ f :: e :: behind) (first ++ y :: x :: last) := by
  induction before generalizing l with
  | nil =>
      cases h with
      | cons he h =>
          cases h with
          | cons hf h => exact ⟨[], _, _, _, rfl, he, hf, .cons hf (.cons he h)⟩
  | cons n before ih =>
      cases h with
      | cons hn h =>
          obtain ⟨first, x, y, last, rfl, he, hf, h⟩ := ih h
          exact ⟨_ :: first, x, y, last, rfl, he, hf, .cons hn h⟩

/-- The entry gives the field wherever it stands. -/
def GivesField (levels : Nat) (field : String × Json) (e : Node × Node) : Prop :=
  e.1.text? = some field.1 ∧ ∀ ctx i, freeEntry levels ctx (e, i) = pure field

theorem givesField_of_run {levels : Nat} {ctx : Context} {e : Node × Node} {i jumps after : Nat}
    {field : String × Json} (hkey : e.1.hasAlias = false) (hvalue : e.2.hasAlias = false)
    (h : (freeEntry levels ctx (e, i)).run jumps = .ok (field, after)) :
    GivesField levels field e := by
  refine ⟨?_, fun ctx' j => ?_⟩
  · obtain ⟨name, _, hname, hrest⟩ := run_bind_eq_ok.mp h
    obtain ⟨v, _, -, hfield⟩ := run_bind_eq_ok.mp hrest
    cases hfield
    exact (text?_of_run_textOf hkey hname).1
  · exact settles_freeEntry hkey (.refl _) (freelySettles_self levels hvalue) ctx ctx' i j _ _ _ h

/-- The fields come in another order, which is lost when they are sorted. -/
theorem freelySettles_swap (levels : Nat) (p : Yaml.Props) (before : List (Node × Node))
    {e f : Node × Node} (behind : List (Node × Node)) (hapart : e.1.Apart f.1)
    (halias : (Node.mapping p (before ++ e :: f :: behind)).hasAlias = false) :
    FreelySettles levels (.mapping p (before ++ e :: f :: behind))
      (.mapping p (before ++ f :: e :: behind)) := by
  intro ctx ctx'
  unfold freeAt
  refine Settles.placed (Settles.ite (fun _ => settles_mismatch _) fun _ => ?_) _ _ _ _
  cases levels with
  | zero => exact settles_throw _
  | succ below =>
      intro jumps v after hrun
      obtain ⟨fields, _, hmapM, hv⟩ := run_bind_eq_ok.mp hrun
      cases hv
      have hfields : List.Forall₂ (fun e field => GivesField below field e)
          (before ++ e :: f :: behind) fields := by
        refine forall₂_of_zipIdx (forall₂_of_run_mapM (f := freeEntry below ctx) ?_ hmapM)
        rintro ⟨e, i⟩ he jumps field after hfield
        have hparts := Node.hasAlias_entry halias e (List.fst_mem_of_mem_zipIdx he)
        exact givesField_of_run hparts.1 hparts.2 hfield
      obtain ⟨first, x, y, last, rfl, hx, hy, hswapped⟩ := forall₂_swap hfields
      obtain ⟨s, t, hs, ht, hne⟩ := hapart
      have hnames : x.1 ≠ y.1 := by
        rw [hx.1] at hs
        rw [hy.1] at ht
        cases hs
        cases ht
        exact hne
      have hmapM' := mapM_zipIdx_pure (f := freeEntry below ctx')
        (hswapped.flip.imp fun _ _ h i => h.2 ctx' i) 0
      change ((before ++ f :: e :: behind).zipIdx.mapM (freeEntry below ctx') >>= _) = _
      rw [hmapM', pure_bind, Json.sortFields_swap first last hnames]

theorem freelySettles_of_step {node node' : Node} (h : Node.FreeStep node node') (levels : Nat)
    (halias : node.hasAlias = false) : FreelySettles levels node node' := by
  induction h generalizing levels with
  | alike h => exact freelySettles_of_alike levels halias h
  | swap p before hapart behind => exact freelySettles_swap levels p before behind hapart halias
  | item p before h behind ih =>
      -- One item takes the step, and the others are what they were.
      have hitems := Node.hasAlias_item halias
      refine freelySettles_sequence p p.mark fun below _ => ?_
      refine List.rel_append (List.forall₂_same.mpr fun n hn => ?_)
        (.cons (ih below ?_) (List.forall₂_same.mpr fun n hn => ?_))
      · exact freelySettles_self below (hitems n (by simp [hn]))
      · exact hitems _ (by simp)
      · exact freelySettles_self below (hitems n (by simp [hn]))
  | value p before key h behind ih =>
      have hentries := Node.hasAlias_entry halias
      refine freelySettles_mapping p p.mark fun below _ => ?_
      have hself (e : Node × Node) (he : e.1.hasAlias = false ∧ e.2.hasAlias = false) :
          e.1.hasAlias = false ∧ e.1.Alike e.1 ∧ FreelySettles below e.2 e.2 :=
        ⟨he.1, .refl _, freelySettles_self below he.2⟩
      have hkey := hentries _ (List.mem_append_right before List.mem_cons_self)
      refine List.rel_append (List.forall₂_same.mpr fun e he => ?_)
        (.cons ⟨hkey.1, .refl _, ih below hkey.2⟩ (List.forall₂_same.mpr fun e he => ?_))
      · exact hself e (hentries e (by simp [he]))
      · exact hself e (hentries e (by simp [he]))

theorem keepsTo_free : KeepsTo Node.FreeLike free := by
  intro ctx ctx' node node' hlevels halias hnode
  unfold free
  rw [hlevels]
  suffices hfreely : node'.hasAlias = false ∧ FreelySettles ctx.levels node node' from hfreely.2 _ _
  induction hnode with
  | refl => exact ⟨halias, freelySettles_self _ halias⟩
  | tail _ hstep ih =>
      obtain ⟨hmiddle, hsettles⟩ := ih
      refine ⟨hstep.hasAlias.trans hmiddle, fun ctx ctx' jumps v after hrun => ?_⟩
      have hpure := hsettles ctx ctx _ _ _ hrun
      exact freelySettles_of_step hstep _ hmiddle ctx ctx' jumps v jumps (by rw [hpure]; rfl)

end Decoding

end ContractAudit
