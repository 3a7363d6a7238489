/-
Operations that only add, in any order.

An operation reads a part of the state that no operation writes, its frame. The frame alone decides whether the operation is
accepted and what it then adds to a reading of the state.

- `Adds.foldlM`: a batch that is accepted as a whole or refused as a whole adds what its members add.
- `run_adds`: over a run, each operation is accepted as it would be in the first state, and the additions sum up.
- `run_perm`: so the order of the operations is of no consequence.
-/
import Mathlib.Tactic
import Vault67.Lib.Fallible
import Vault67.Lib.Machine

namespace Vault67.Increments

open Fallible Machine

variable {σ α ε κ M : Type} [AddCommMonoid M] {frame : σ → κ} {reading : σ → M}

/-- what the operation does is decided by the frame: it is refused, or it adds to the reading -/
structure Adds (operation : σ → Except ε σ) (frame : σ → κ) (reading : σ → M) (effect : κ → Option M) : Prop where
  accepted : ∀ s, (effect (frame s)).isSome → ∃ s', operation s = .ok s'
  adds : ∀ s s', operation s = .ok s' →
    frame s' = frame s ∧ ∃ m, effect (frame s) = some m ∧ reading s' = reading s + m

theorem Adds.refused {operation : σ → Except ε σ} {effect : κ → Option M} (h : Adds operation frame reading effect) {s : σ}
    {e : ε} (hs : operation s = .error e) : effect (frame s) = none := by
  by_contra hne
  obtain ⟨s', hs'⟩ := h.accepted s (Option.isSome_iff_ne_none.2 hne)
  rw [hs] at hs'
  cases hs'

theorem adds_error (e : σ → ε) : Adds (fun s => .error (e s)) frame reading fun _ => none := by
  refine ⟨fun s hs => ?_, fun s s' hs => ?_⟩ <;> cases hs

/-- a batch that stops at the first refusal, induction on its members -/
theorem Adds.foldlM {β : Type} {operation : σ → β → Except ε σ} {effect : κ → β → Option M} {batch : List β}
    (h : ∀ b ∈ batch, Adds (operation · b) frame reading (effect · b)) :
    Adds (fun s => batch.foldlM operation s) frame reading fun k => (batch.mapM (effect k)).map List.sum := by
  induction batch with
  | nil =>
    refine ⟨fun s _ => ⟨s, rfl⟩, fun s s' hs => ?_⟩
    cases hs
    exact ⟨rfl, 0, rfl, (add_zero _).symm⟩
  | cons b batch ih =>
    obtain ⟨hb, hbatch⟩ := List.forall_mem_cons.1 h
    have hrest := ih hbatch
    refine ⟨fun s hs => ?_, fun s s' hs => ?_⟩
    · simp only [List.mapM_cons, Option.isSome_map] at hs
      obtain ⟨ms, hms⟩ := Option.isSome_iff_exists.1 hs
      obtain ⟨m, hm, hms⟩ := Option.bind_eq_some_iff.1 hms
      obtain ⟨rest, hrest', -⟩ := Option.bind_eq_some_iff.1 hms
      obtain ⟨t, ht⟩ := hb.accepted s (Option.isSome_iff_exists.2 ⟨m, hm⟩)
      obtain ⟨hframe, -⟩ := hb.adds s t ht
      obtain ⟨s', hs'⟩ := hrest.accepted t (by rw [hframe, hrest']; rfl)
      exact ⟨s', foldlM_cons_ok.2 ⟨t, ht, hs'⟩⟩
    · obtain ⟨t, ht, hs⟩ := foldlM_cons_ok.1 hs
      obtain ⟨hframe, m, hm, hreading⟩ := hb.adds s t ht
      obtain ⟨hframe', n, hn, hreading'⟩ := hrest.adds t s' hs
      obtain ⟨rest, hrest', rfl⟩ := Option.map_eq_some_iff.1 hn
      rw [hframe] at hrest'
      refine ⟨hframe'.trans hframe, m + rest.sum, ?_, ?_⟩
      · rw [List.mapM_cons, hm, hrest']
        exact congrArg some List.sum_cons
      · rw [hreading', hreading, add_assoc]

/-! ## Runs -/

variable {step : σ → α → Except ε σ} {effect : κ → α → Option M} {s : σ} {ops ops' : List α}

/-- the operations of a run that are accepted when their turn comes -/
def accepted (step : σ → α → Except ε σ) : σ → List α → List α
  | _, [] => []
  | s, a :: ops => if (step s a).isOk then a :: accepted step (attempt step s a) ops else accepted step (attempt step s a) ops

theorem attempt_adds {a : α} (h : Adds (step · a) frame reading (effect · a)) (s : σ) :
    frame (attempt step s a) = frame s ∧ (step s a).isOk = (effect (frame s) a).isSome ∧
      reading (attempt step s a) = reading s + (effect (frame s) a).getD 0 := by
  unfold attempt
  cases hs : step s a with
  | ok s' =>
    obtain ⟨hframe, m, hm, hreading⟩ := h.adds s s' hs
    rw [hm]
    exact ⟨hframe, rfl, hreading⟩
  | error e =>
    rw [h.refused hs]
    exact ⟨rfl, rfl, (add_zero _).symm⟩

/-- **The first state decides.** Induction on the run: no operation changes the frame. -/
theorem run_adds (h : ∀ a ∈ ops, Adds (step · a) frame reading (effect · a)) (s : σ) :
    frame (run step s ops) = frame s ∧ accepted step s ops = ops.filter (fun a => (effect (frame s) a).isSome) ∧
      reading (run step s ops) = reading s + (ops.map fun a => (effect (frame s) a).getD 0).sum := by
  induction ops generalizing s with
  | nil => exact ⟨rfl, rfl, (add_zero _).symm⟩
  | cons a ops ih =>
    obtain ⟨ha, hops⟩ := List.forall_mem_cons.1 h
    obtain ⟨hframe, haccepted, hreading⟩ := attempt_adds ha s
    obtain ⟨ihframe, ihaccepted, ihreading⟩ := ih hops (attempt step s a)
    rw [hframe] at ihframe ihaccepted ihreading
    refine ⟨ihframe, ?_, ?_⟩
    · rw [accepted, haccepted, ihaccepted, List.filter_cons]
    · rw [List.map_cons, List.sum_cons, ← add_assoc, ← hreading]
      exact ihreading

/-- **Any order.** Steps that add their effect to the reading have the same effect in every order: the same frame, the
same accepted steps and the same reading. -/
theorem run_perm (h : ∀ a ∈ ops, Adds (step · a) frame reading (effect · a)) (hperm : ops.Perm ops') (s : σ) :
    frame (run step s ops) = frame (run step s ops') ∧ (accepted step s ops).Perm (accepted step s ops') ∧
      reading (run step s ops) = reading (run step s ops') := by
  obtain ⟨hframe, haccepted, hreading⟩ := run_adds h s
  obtain ⟨hframe', haccepted', hreading'⟩ := run_adds (fun a ha => h a (hperm.mem_iff.2 ha)) s
  refine ⟨hframe.trans hframe'.symm, ?_, ?_⟩
  · rw [haccepted, haccepted']
    exact hperm.filter _
  · rw [hreading, hreading', (hperm.map _).sum_eq]

end Vault67.Increments
