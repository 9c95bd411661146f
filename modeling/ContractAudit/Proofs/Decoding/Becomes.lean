import ContractAudit.Decoding.FromNode
import ContractAudit.Proofs.Yaml.Alike

/-!
# From one decoder to another

`Becomes` compares a decoder with the one that takes its place. Where the first succeeds, the second
succeeds with a related value and has followed no more aliases, so that no limit is met earlier; or
else it fails. The rules follow the combinators from which decoders are made. A decoder ignores marks
if it becomes itself, with the same value, on trees that are alike (`IgnoresMarks`).
-/

namespace ContractAudit.Decoding

open Yaml (Node Mark)

variable {α β ν : Type} {effect : Option (α → α → Prop)}

/-- Where the first decoder succeeds the second one gives a related value and follows no more
aliases; without a relation it fails. -/
def Becomes (d : Decode α) (effect : Option (α → α → Prop)) (d' : Decode α) : Prop :=
  ∀ jumps a after, d.run jumps = .ok (a, after) → ∀ fewer ≤ jumps,
    match effect with
    | some R =>
      jumps ≤ after ∧ ∃ a' after', d'.run fewer = .ok (a', after') ∧ after' ≤ after ∧ R a a'
    | none => ∃ fault, d'.run fewer = .error fault

/-! ## Running -/

theorem run_bind_eq_ok {d : Decode α} {f : α → Decode β} {jumps after : Nat} {b : β} :
    (d >>= f).run jumps = .ok (b, after) ↔
      ∃ a between, d.run jumps = .ok (a, between) ∧ (f a).run between = .ok (b, after) := by
  rw [StateT.run_bind]
  cases d.run jumps with
  | error fault => simp [bind, Except.bind]
  | ok result =>
      obtain ⟨a, between⟩ := result
      refine ⟨fun h => ⟨a, between, rfl, h⟩, ?_⟩
      rintro ⟨a, between, ⟨⟩, h⟩
      exact h

theorem run_bind_of_error {d : Decode α} {f : α → Decode β} {jumps : Nat} {fault : Fault}
    (h : d.run jumps = .error fault) : (d >>= f).run jumps = .error fault := by
  rw [StateT.run_bind, h]
  rfl

theorem run_bind_of_ok {d : Decode α} {f : α → Decode β} {jumps between : Nat} {a : α}
    (h : d.run jumps = .ok (a, between)) : (d >>= f).run jumps = (f a).run between := by
  rw [StateT.run_bind, h]
  rfl

theorem run_placed_eq_ok {ctx : Context} {mark : Mark} {d : Decode α} {jumps : Nat} {r : α × Nat} :
    (ctx.placed mark d).run jumps = .ok r ↔ d.run jumps = .ok r := by
  unfold Context.placed StateT.run
  dsimp only
  split <;> simp_all

theorem run_placed_of_error {ctx : Context} {mark : Mark} {d : Decode α} {jumps : Nat} {fault : Fault}
    (h : d.run jumps = .error fault) : ∃ fault', (ctx.placed mark d).run jumps = .error fault' := by
  cases hplaced : (ctx.placed mark d).run jumps with
  | error fault' => exact ⟨fault', rfl⟩
  | ok r =>
      rw [run_placed_eq_ok.mp hplaced] at h
      cases h

/-! ## Rules -/

theorem becomes_pure {R : α → α → Prop} {a a' : α} (h : R a a') :
    Becomes (pure a) (some R) (pure a') := by
  rintro jumps b after ⟨⟩ fewer hle
  exact ⟨Nat.le_refl _, a', fewer, rfl, hle, h⟩

/-- A decoder that fails may be replaced by any. -/
theorem becomes_throw {d' : Decode α} (fault : Fault) : Becomes (throw fault) effect d' :=
  fun _ _ _ h => nomatch h

theorem becomes_mismatch {d' : Decode α} (m : Mismatch) : Becomes (mismatch m) effect d' :=
  becomes_throw _

theorem becomes_fault {d : Decode α} (fault : Fault) : Becomes d none (throw fault) :=
  fun _ _ _ _ _ _ => ⟨fault, rfl⟩

/-- A value takes the place of what was decoded. -/
theorem Becomes.value {d d' : Decode α} {R S : α → α → Prop} {a' : α} (h : Becomes d (some R) d')
    (hS : ∀ a b, R a b → S a a') : Becomes d (some S) (pure a') := by
  intro jumps a after hrun fewer hle
  obtain ⟨hmore, b, _, -, -, hR⟩ := h _ _ _ hrun fewer hle
  exact ⟨hmore, a', fewer, rfl, Nat.le_trans hle hmore, hS a b hR⟩

theorem Becomes.imp {d d' : Decode α} {R S : α → α → Prop} (h : Becomes d (some R) d')
    (hRS : ∀ a a', R a a' → S a a') : Becomes d (some S) d' := by
  intro jumps a after hrun fewer hle
  obtain ⟨hmore, a', after', hrun', hafter, hR⟩ := h _ _ _ hrun fewer hle
  exact ⟨hmore, a', after', hrun', hafter, hRS a a' hR⟩

/-- What fails goes on failing. -/
theorem Becomes.bind_none {d d' : Decode α} {f f' : α → Decode β} (h : Becomes d none d') :
    Becomes (d >>= f) none (d' >>= f') := by
  intro jumps b after hrun fewer hle
  obtain ⟨a, between, hd, -⟩ := run_bind_eq_ok.mp hrun
  obtain ⟨fault, hd'⟩ := h _ _ _ hd fewer hle
  exact ⟨fault, run_bind_of_error hd'⟩

/-- Related values are gone on with. -/
theorem Becomes.bind {d d' : Decode α} {R : α → α → Prop} {f f' : α → Decode β}
    {effect : Option (β → β → Prop)} (h : Becomes d (some R) d')
    (hf : ∀ a a', R a a' → Becomes (f a) effect (f' a')) : Becomes (d >>= f) effect (d' >>= f') := by
  intro jumps b after hrun fewer hle
  obtain ⟨a, between, hd, hfa⟩ := run_bind_eq_ok.mp hrun
  obtain ⟨hmore, a', between', hd', hbetween, hR⟩ := h _ _ _ hd fewer hle
  have hrest := hf a a' hR _ _ _ hfa between' hbetween
  rw [run_bind_of_ok hd']
  cases effect with
  | some S => exact ⟨Nat.le_trans hmore hrest.1, hrest.2⟩
  | none => exact hrest

/-- The same value is gone on with. -/
theorem Becomes.bind_eq {d d' : Decode α} {f f' : α → Decode β} {effect : Option (β → β → Prop)}
    (h : Becomes d (some Eq) d') (hf : ∀ a, Becomes (f a) effect (f' a)) :
    Becomes (d >>= f) effect (d' >>= f') :=
  h.bind fun a _ ha => ha ▸ hf a

/-- What is gone on with may change the relation, if there is one. -/
theorem Becomes.bind_map {γ : Type} {o : Option γ} {d d' : Decode α} {f f' : α → Decode β}
    {R : γ → α → α → Prop} {S : γ → β → β → Prop} (h : Becomes d (o.map R) d')
    (hf : ∀ c a a', R c a a' → Becomes (f a) (some (S c)) (f' a')) :
    Becomes (d >>= f) (o.map S) (d' >>= f') := by
  cases o with
  | some c => exact Becomes.bind h (hf c)
  | none => exact Becomes.bind_none h

theorem Becomes.imp_map {γ : Type} {o : Option γ} {d d' : Decode α} {R S : γ → α → α → Prop}
    (h : Becomes d (o.map R) d') (hRS : ∀ c a a', R c a a' → S c a a') : Becomes d (o.map S) d' := by
  cases o with
  | some c => exact Becomes.imp h (hRS c)
  | none => exact h

theorem Becomes.ite {c : Prop} [Decidable c] {d d' e e' : Decode α} (hd : c → Becomes d effect d')
    (he : ¬ c → Becomes e effect e') : Becomes (if c then d else e) effect (if c then d' else e') := by
  by_cases h : c
  · rw [if_pos h, if_pos h]
    exact hd h
  · rw [if_neg h, if_neg h]
    exact he h

theorem Becomes.placed {d d' : Decode α} (h : Becomes d effect d') (ctx ctx' : Context)
    (mark mark' : Mark) : Becomes (ctx.placed mark d) effect (ctx'.placed mark' d') := by
  intro jumps a after hrun fewer hle
  have hd := h _ _ _ (run_placed_eq_ok.mp hrun) fewer hle
  cases effect with
  | some R =>
      obtain ⟨hmore, a', after', hrun', hafter, hR⟩ := hd
      exact ⟨hmore, a', after', run_placed_eq_ok.mpr hrun', hafter, hR⟩
  | none =>
      obtain ⟨fault, hfault⟩ := hd
      exact run_placed_of_error hfault

/-! ## Contexts -/

/-- Contexts with the same limits and targets that are alike. The paths may differ. -/
structure Context.Alike (ctx ctx' : Context) : Prop where
  targets : List.Forall₂ (fun t t' : Nat × Node => t.1 = t'.1 ∧ t.2.Alike t'.2) ctx.targets ctx'.targets
  jumpLimit : ctx.jumpLimit = ctx'.jumpLimit
  levels : ctx.levels = ctx'.levels

namespace Context

variable {ctx ctx' : Context}

theorem Alike.refl (ctx : Context) : ctx.Alike ctx :=
  ⟨List.forall₂_same.mpr fun _ _ => ⟨rfl, Node.Alike.refl _⟩, rfl, rfl⟩

theorem Alike.symm (h : ctx.Alike ctx') : ctx'.Alike ctx where
  targets := (h.targets.imp fun _ _ ht => ⟨ht.1.symm, ht.2.symm⟩).flip
  jumpLimit := h.jumpLimit.symm
  levels := h.levels.symm

theorem Alike.step (h : ctx.Alike ctx') (s s' : PathStep) : (ctx.step s).Alike (ctx'.step s') :=
  ⟨h.targets, h.jumpLimit, h.levels⟩

theorem Alike.under (h : ctx.Alike ctx') (key key' : Node) : (ctx.under key).Alike (ctx'.under key') :=
  h.step _ _

theorem lookup_of_forall₂ {targets targets' : List (Nat × Node)} {target : Nat} {node : Node}
    (h : List.Forall₂ (fun t t' : Nat × Node => t.1 = t'.1 ∧ t.2.Alike t'.2) targets targets')
    (hnode : targets.lookup target = some node) :
    ∃ node', targets'.lookup target = some node' ∧ node.Alike node' := by
  induction h with
  | nil => cases hnode
  | @cons t t' ts ts' ht _ ih =>
      rw [List.lookup_cons] at hnode ⊢
      rw [← ht.1]
      cases hfound : target == t.1 with
      | true =>
          rw [hfound] at hnode
          cases hnode
          exact ⟨_, rfl, ht.2⟩
      | false =>
          rw [hfound] at hnode
          exact ih hnode

end Context

theorem becomes_follow {ctx ctx' : Context} (h : ctx.Alike ctx') (target : Nat) :
    Becomes (ctx.follow target)
      (some fun n n' => ctx.targets.lookup target = some n ∧ n.Alike n') (ctx'.follow target) := by
  intro jumps node after hrun fewer hle
  unfold Context.follow StateT.run at hrun
  dsimp only at hrun
  split at hrun
  · cases hrun
  · rename_i hlimit
    split at hrun
    · rename_i found hfound
      cases hrun
      obtain ⟨node', hnode', halike⟩ := Context.lookup_of_forall₂ h.targets hfound
      refine ⟨Nat.le_succ _, node', fewer + 1, ?_, Nat.succ_le_succ hle, hfound, halike⟩
      unfold Context.follow StateT.run
      dsimp only
      rw [if_neg (by rw [← h.jumpLimit]; omega), hnode']
    · cases hrun

/-- The node itself, or the one its alias stands for. -/
def Context.Finds (ctx : Context) (node found : Node) : Prop :=
  node = found ∨ ∃ mark target, node = .alias mark target ∧ ctx.targets.lookup target = some found

/-- The text of a scalar, or of the one that an alias stands for. -/
def scalarAt? (targets : List (Nat × Node)) : Node → Option String
  | .scalar _ _ s => some s
  | .alias _ target =>
    match targets.lookup target with
    | some (.scalar _ _ s) => some s
    | _ => none
  | _ => none

theorem scalarAt?_of_finds {ctx : Context} {node : Node} {p : Yaml.Props} {style : Yaml.ScalarStyle}
    {s : String} (h : ctx.Finds node (.scalar p style s)) : scalarAt? ctx.targets node = some s := by
  obtain rfl | ⟨mark, target, rfl, hfound⟩ := h
  · rfl
  · simp only [scalarAt?, hfound]

/-- Both bodies meet what is found, and trees that are alike. -/
theorem becomes_visit_found {ctx ctx' : Context} {node node' : Node} {body body' : Node → Decode α}
    (hctx : ctx.Alike ctx') (hnode : node.Alike node')
    (h : ∀ n n', ctx.Finds node n → n.Alike n' → Becomes (body n) effect (body' n')) :
    Becomes (ctx.visit node body) effect (ctx'.visit node' body') := by
  cases hnode.shape with
  | cut => exact becomes_throw _
  | reference mark mark' target =>
      refine Becomes.placed ((becomes_follow hctx target).bind ?_) _ _ _ _
      rintro n n' ⟨hfound, hn⟩
      exact (h n n' (.inr ⟨mark, target, rfl, hfound⟩) hn).placed _ _ _ _
  | scalar => exact (h _ _ (.inl rfl) hnode).placed _ _ _ _
  | sequence => exact (h _ _ (.inl rfl) hnode).placed _ _ _ _
  | mapping => exact (h _ _ (.inl rfl) hnode).placed _ _ _ _

theorem becomes_visit {ctx ctx' : Context} {node node' : Node} {body body' : Node → Decode α}
    (hctx : ctx.Alike ctx') (hnode : node.Alike node')
    (h : ∀ n n', n.Alike n' → Becomes (body n) effect (body' n')) :
    Becomes (ctx.visit node body) effect (ctx'.visit node' body') :=
  becomes_visit_found hctx hnode fun n n' _ => h n n'

theorem becomes_enter {ctx ctx' : Context} {mark mark' : Mark} {body body' : Context → Decode α}
    (hctx : ctx.Alike ctx')
    (h : ∀ inner inner' : Context, inner.Alike inner' → Becomes (body inner) effect (body' inner')) :
    Becomes (ctx.enter mark body) effect (ctx'.enter mark' body') := by
  have hlevels := hctx.levels
  unfold Context.enter
  rw [← hlevels]
  cases ctx.levels with
  | zero => exact becomes_throw _
  | succ levels => exact h _ _ ⟨hctx.targets, hctx.jumpLimit, rfl⟩

/-- Entered in the same place, both decoders meet the same context. -/
theorem becomes_enter_same {ctx : Context} {mark : Mark} {body body' : Context → Decode α}
    (h : ∀ inner : Context, inner.targets = ctx.targets → Becomes (body inner) effect (body' inner)) :
    Becomes (ctx.enter mark body) effect (ctx.enter mark body') := by
  unfold Context.enter
  cases ctx.levels with
  | zero => exact becomes_throw _
  | succ levels => exact h _ rfl

/-! ## Loops -/

section Loops

variable {S : ν → ν → Prop} {l l' : List ν}

theorem becomes_mapM {f f' : ν → Decode α} (hl : List.Forall₂ S l l')
    (h : ∀ n n', S n n' → Becomes (f n) (some Eq) (f' n')) :
    Becomes (l.mapM f) (some Eq) (l'.mapM f') := by
  induction hl with
  | nil => exact becomes_pure rfl
  | cons hn _ ih =>
      rw [List.mapM_cons, List.mapM_cons]
      exact (h _ _ hn).bind_eq fun a => ih.bind_eq fun l => becomes_pure rfl

theorem becomes_forM {f f' : ν → Decode Unit} (hl : List.Forall₂ S l l')
    (h : ∀ n n', S n n' → Becomes (f n) (some Eq) (f' n')) :
    Becomes (l.forM f) (some Eq) (l'.forM f') := by
  induction hl with
  | nil => exact becomes_pure rfl
  | cons hn _ ih => exact (h _ _ hn).bind_eq fun _ => ih

/-- What holds between the accumulators at first, and is kept, holds between them at last. -/
theorem becomes_foldlM {T : α → α → Prop} {f f' : α → ν → Decode α} (hl : List.Forall₂ S l l')
    (h : ∀ a a' n n', T a a' → S n n' → Becomes (f a n) (some T) (f' a' n')) :
    ∀ {a a'}, T a a' → Becomes (l.foldlM f a) (some T) (l'.foldlM f' a') := by
  induction hl with
  | nil => exact fun ha => becomes_pure ha
  | cons hn _ ih =>
      intro a a' ha
      rw [List.foldlM_cons, List.foldlM_cons]
      exact (h a a' _ _ ha hn).bind fun _ _ hb => ih hb

end Loops

theorem forall₂_zipIdx {R : α → α → Prop} {l l' : List α} (h : List.Forall₂ R l l') (i : Nat) :
    List.Forall₂ (fun e e' : α × Nat => R e.1 e'.1 ∧ e.2 = e'.2) (l.zipIdx i) (l'.zipIdx i) := by
  induction h generalizing i with
  | nil => exact .nil
  | cons ha _ ih => exact .cons ⟨ha, rfl⟩ (ih (i + 1))

end ContractAudit.Decoding
