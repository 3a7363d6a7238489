/-
Computations on a store that may raise half-way. What a session wrote before it raised stays written, unless the session
runs in an atomic block.

- `AllOrNothing m f`: m returns and writes what f says, and leaves the store as it was when f raises.
- `Does.atomic`: a block of statements that does f is all or nothing once it is atomic, whatever it wrote before it
  raised.
- `Does.bind`, `Does.forM`: statements in sequence, and a loop.
-/
import Mathlib.Tactic
import Vault67.Lib.Machine

namespace Vault67

open Machine

def Session (σ ε α : Type) : Type := σ → Except ε α × σ

variable {σ ε α β : Type}

namespace Session

def exec (m : Session σ ε α) (s : σ) : Except ε α × σ := m s

instance : Monad (Session σ ε) where
  pure a := fun s => (.ok a, s)
  bind m k := fun s =>
    match m.exec s with
    | (.ok a, s') => (k a).exec s'
    | (.error e, s') => (.error e, s')

/-- a query reads the store and may raise -/
def query (f : σ → Except ε α) : Session σ ε α := fun s => (f s, s)

def raiseIf (p : σ → Prop) [DecidablePred p] (e : σ → ε) : Session σ ε Unit :=
  query fun s => if p s then .error (e s) else .ok ()

/-- what is left of a result and the store it was reached from -/
def settle (r : Except ε (α × σ)) (s : σ) : Except ε α × σ :=
  match r with
  | .ok (a, s') => (.ok a, s')
  | .error e => (.error e, s)

/-- a statement changes the store or raises -/
def statement (f : σ → Except ε (α × σ)) : Session σ ε α := fun s => settle (f s) s

/-- a block whose writes are taken back when it raises -/
def atomic (m : Session σ ε α) : Session σ ε α := fun s =>
  match m.exec s with
  | (.ok a, s') => (.ok a, s')
  | (.error e, _) => (.error e, s)

/-- an exception in other words -/
def mapError {ε' : Type} (f : ε → ε') (m : Session σ ε α) : Session σ ε' α :=
  fun s => ((m.exec s).1.mapError f, (m.exec s).2)

/-- a statement that returns nothing -/
def write (f : σ → Except ε σ) : Session σ ε Unit := statement fun s => (f s).map ((), ·)

/-! ## Execution -/

@[simp] theorem exec_query (f : σ → Except ε α) (s : σ) : (query f).exec s = (f s, s) := rfl

@[simp] theorem settle_ok (a : α) (s s' : σ) : settle (.ok (a, s') : Except ε (α × σ)) s = (.ok a, s') := rfl

@[simp] theorem settle_error (e : ε) (s : σ) : settle (.error e : Except ε (α × σ)) s = (.error e, s) := rfl

theorem settle_eq_ok {r : Except ε (α × σ)} {s s' : σ} {a : α} : settle r s = (.ok a, s') ↔ r = .ok (a, s') := by
  rcases r with e | ⟨b, t⟩
  · simp [settle]
  · simp [settle]

theorem exec_bind_ok {m : Session σ ε α} {s s' : σ} {a : α} (h : m.exec s = (.ok a, s')) (k : α → Session σ ε β) :
    (m >>= k).exec s = (k a).exec s' := by
  show (match m.exec s with | (.ok a, s') => (k a).exec s' | (.error e, s') => (.error e, s')) = _
  rw [h]

theorem exec_bind_error {m : Session σ ε α} {s : σ} {e : ε} (h : (m.exec s).1 = .error e) (k : α → Session σ ε β) :
    ((m >>= k).exec s).1 = .error e := by
  show (match m.exec s with | (.ok a, s') => (k a).exec s' | (.error e, s') => (.error e, s')).1 = _
  rcases hm : m.exec s with ⟨r, s'⟩
  rw [hm] at h
  dsimp only at h
  rw [h]

/-! ## What a session does -/

/-- m returns and writes what f says, and raises what f raises -/
def Does (m : Session σ ε α) (f : σ → Except ε (α × σ)) : Prop :=
  ∀ s, match f s with
    | .ok (a, s') => m.exec s = (.ok a, s')
    | .error e => (m.exec s).1 = .error e

def AllOrNothing (m : Session σ ε α) (f : σ → Except ε (α × σ)) : Prop := ∀ s, m.exec s = settle (f s) s

/-- all or nothing, with nothing to return -/
def Performs (m : Session σ ε Unit) (f : σ → Except ε σ) : Prop := AllOrNothing m fun s => (f s).map ((), ·)

variable {m : Session σ ε α} {f : σ → Except ε (α × σ)}

theorem AllOrNothing.does (h : AllOrNothing m f) : Does m f := by
  intro s
  cases hf : f s with
  | ok p => rw [h s, hf]; rfl
  | error e => rw [h s, hf]; rfl

/-- what raises leaves the store as it was -/
theorem AllOrNothing.of_error (h : AllOrNothing m f) {s : σ} {e : ε} (he : (m.exec s).1 = .error e) :
    (m.exec s).2 = s := by
  rw [h s] at he ⊢
  cases hf : f s with
  | ok p =>
    rw [hf] at he
    cases he
  | error e' => rfl

theorem Does.atomic (h : Does m f) : AllOrNothing m.atomic f := by
  intro s
  have hs := h s
  show (match m.exec s with | (.ok a, s') => (Except.ok a, s') | (.error e, _) => (.error e, s)) = _
  cases hf : f s with
  | ok p =>
    rw [hf] at hs
    rw [hs]
    rfl
  | error e =>
    rw [hf] at hs
    rcases hm : m.exec s with ⟨r, s'⟩
    rw [hm] at hs
    dsimp only at hs
    rw [hs]
    rfl

theorem allOrNothing_statement (f : σ → Except ε (α × σ)) : AllOrNothing (statement f) f := fun _ => rfl

theorem allOrNothing_query (f : σ → Except ε α) : AllOrNothing (query f) fun s => (f s).map (·, s) := by
  intro s
  rw [exec_query]
  dsimp only
  cases f s <;> rfl

theorem Does.bind {k : α → Session σ ε β} {g : α → σ → Except ε (β × σ)} (hm : Does m f)
    (hk : ∀ a, Does (k a) (g a)) : Does (m >>= k) fun s => f s >>= fun p => g p.1 p.2 := by
  intro s
  have hs := hm s
  dsimp only
  cases hf : f s with
  | error e =>
    rw [hf] at hs
    exact exec_bind_error hs k
  | ok p =>
    rw [hf] at hs
    have hk' := hk p.1 p.2
    rw [← exec_bind_ok hs k] at hk'
    exact hk'

theorem AllOrNothing.congr {g : σ → Except ε (α × σ)} (h : AllOrNothing m f) (hfg : ∀ s, f s = g s) :
    AllOrNothing m g := fun s => by rw [h s, hfg]

/-- what is returned may be computed after the block -/
theorem AllOrNothing.map (h : AllOrNothing m f) (k : α → β) :
    AllOrNothing (m >>= fun a => pure (k a)) fun s => (f s).map fun p => (k p.1, p.2) := by
  intro s
  show (match m.exec s with | (.ok a, s') => (Except.ok (k a), s') | (.error e, s') => (.error e, s')) = _
  rw [h s]
  dsimp only
  cases f s <;> rfl

theorem AllOrNothing.mapError {ε' : Type} (h : AllOrNothing m f) (g : ε → ε') :
    AllOrNothing (m.mapError g) fun s => (f s).mapError g := by
  intro s
  show ((m.exec s).1.mapError g, (m.exec s).2) = _
  rw [h s]
  dsimp only
  cases f s <;> rfl

/-- checks come before the writes -/
theorem AllOrNothing.query_bind {x : σ → Except ε α} {k : α → Session σ ε β} {g : α → σ → Except ε (β × σ)}
    (hk : ∀ a, AllOrNothing (k a) (g a)) : AllOrNothing (query x >>= k) fun s => x s >>= fun a => g a s := by
  intro s
  show (match (query x).exec s with | (.ok a, s') => (k a).exec s' | (.error e, s') => (.error e, s')) = _
  rw [exec_query]
  dsimp only
  cases hx : x s with
  | ok a => exact hk a s
  | error e => rfl

theorem AllOrNothing.raiseIf_bind {p : σ → Prop} [DecidablePred p] {e : σ → ε} (h : AllOrNothing m f) :
    AllOrNothing (raiseIf p e >>= fun _ => m) fun s => if p s then .error (e s) else f s := by
  intro s
  rw [raiseIf, query_bind (fun _ => h) s]
  dsimp only
  split_ifs <;> rfl

theorem Does.forM {ι : Type} {k : ι → Session σ ε Unit} {f : σ → ι → Except ε σ}
    (hk : ∀ i, Performs (k i) (f · i)) (l : List ι) :
    Does (ForM.forM l k) fun s => (l.foldlM f s).map ((), ·) := by
  induction l with
  | nil => exact fun s => rfl
  | cons i l ih =>
    intro s
    have h := (hk i).does.bind (fun _ => ih) s
    rw [List.forM_cons]
    dsimp only at h ⊢
    rw [List.foldlM_cons]
    cases hf : f s i with
    | ok t =>
      rw [hf] at h
      exact h
    | error e =>
      rw [hf] at h
      exact h

/-! ## Runs -/

/-- requests one after the other, each by its own session; what a session returns is dropped -/
def serve {ι : Type} (session : ι → Session σ ε α) (s : σ) (requests : List ι) : σ :=
  requests.foldl (fun s r => ((session r).exec s).2) s

/-- sessions that are all or nothing are the steps of a machine -/
theorem serve_eq_run {ι : Type} {session : ι → Session σ ε Unit} {step : σ → ι → Except ε σ}
    (h : ∀ r, Performs (session r) (step · r)) (s : σ) (requests : List ι) :
    serve session s requests = run step s requests := by
  apply List.foldl_ext _ _ _
  intro s r _
  rw [h r s, attempt]
  dsimp only
  cases step s r <;> rfl

end Session

end Vault67
