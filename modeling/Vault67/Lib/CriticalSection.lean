/-
Sessions that work one statement at a time, in any order, each inside the critical section of its key.

A session enters when nobody holds the lock of its key, goes on in private progress, and gives the lock back when it
leaves or is aborted. The shared store may also change from outside.

- `step_safe`, `run_safe`: the rule. What a session knows (`L`) has to survive the steps of sessions with another key
  only; then it holds in every state of every schedule, together with the invariant of the store (`I`) and what holds
  between any two sessions (`A`).
- `Safe.exclusive`: two sessions with the same key are never inside together.
- `exists_finishes`: when every statement brings a session nearer to its end, no session is blocked for good.
-/
import Mathlib.Tactic

namespace Vault67.CriticalSection

inductive Stage (π : Type) where
  | waiting
  | inside (progress : π)
  | finished
deriving DecidableEq, Repr

/-- what a statement of a session does -/
inductive Outcome (σ π : Type) where
  | next (shared : σ) (progress : π)
  | leave (shared : σ)

def Outcome.shared {σ π : Type} : Outcome σ π → σ
  | .next s _ => s
  | .leave s => s

/-- `enter` refuses a session before it takes the lock; `outside` is any other change of the store -/
structure Sessions (σ ι κ π ο : Type) where
  key : ι → κ
  enter : ι → σ → Option π
  work : ι → σ → π → Outcome σ π
  outside : ο → σ → σ

structure World (σ ι κ π : Type) where
  shared : σ
  stage : ι → Stage π
  lock : κ → Option ι

inductive Event (ι ο : Type) where
  | turn (session : ι)
  | abort (session : ι)
  | outside (change : ο)
deriving DecidableEq, Repr

variable {σ ι κ π ο : Type}

/-- nobody has started -/
def start (s : σ) : World σ ι κ π := ⟨s, fun _ => .waiting, fun _ => none⟩

/-! ## What the rule keeps -/

/-- I: the store; L: what a session inside knows of it; A: what holds between two sessions inside -/
structure Rule (P : Sessions σ ι κ π ο) (I : σ → Prop) (L : σ → ι → π → Prop) (A : π → π → Prop) : Prop where
  symm : ∀ {x y}, A x y → A y x
  enter : ∀ {s n x}, I s → P.enter n s = some x → L s n x ∧ ∀ y, A x y
  own : ∀ {s n x s' y}, I s → L s n x → P.work n s x = .next s' y → L s' n y
  store : ∀ {s n x}, I s → L s n x → I (P.work n s x).shared
  others : ∀ {s n m x y}, I s → L s n x → L s m y → A x y → P.key n ≠ P.key m → L (P.work m s y).shared n x
  apart : ∀ {s n m x y s' y'}, I s → L s n x → L s m y → A x y → P.key n ≠ P.key m → P.work m s y = .next s' y' → A x y'
  outside_store : ∀ {s o}, I s → I (P.outside o s)
  outside : ∀ {s n x o}, I s → L s n x → L (P.outside o s) n x

structure Safe (P : Sessions σ ι κ π ο) (I : σ → Prop) (L : σ → ι → π → Prop) (A : π → π → Prop)
    (w : World σ ι κ π) : Prop where
  store : I w.shared
  holds : ∀ n x, w.stage n = .inside x → w.lock (P.key n) = some n
  held : ∀ k n, w.lock k = some n → P.key n = k ∧ ∃ x, w.stage n = .inside x
  known : ∀ n x, w.stage n = .inside x → L w.shared n x
  apart : ∀ n m x y, n ≠ m → w.stage n = .inside x → w.stage m = .inside y → A x y

variable {P : Sessions σ ι κ π ο} {I : σ → Prop} {L : σ → ι → π → Prop} {A : π → π → Prop} {w : World σ ι κ π}
  {n m : ι} {x y : π}

/-- **Mutual exclusion.** -/
theorem Safe.exclusive (h : Safe P I L A w) (hn : w.stage n = .inside x) (hm : w.stage m = .inside y)
    (hkey : P.key n = P.key m) : n = m := by
  have hlock := h.holds n x hn
  rw [hkey, h.holds m y hm] at hlock
  exact (Option.some.inj hlock).symm

theorem start_safe {s : σ} (h : I s) : Safe P I L A (start s) := by
  refine ⟨h, fun n x hn => ?_, fun k n hk => ?_, fun n x hn => ?_, fun n m x y _ hn => ?_⟩
  · cases hn
  · cases hk
  · cases hn
  · cases hn

/-! ## Steps -/

variable [DecidableEq ι]

/-- session n goes on, or is refused -/
def World.put (w : World σ ι κ π) (n : ι) (stage : Stage π) (s : σ) : World σ ι κ π :=
  { w with shared := s, stage := Function.update w.stage n stage }

/-- another session stands where it stood -/
theorem put_stage {t : Stage π} {s : σ} (hm : (w.put n t s).stage m = .inside y) (hne : m ≠ n) :
    w.stage m = .inside y := (Function.update_of_ne hne _ _).symm.trans hm

theorem put_stage_self (w : World σ ι κ π) (n : ι) (t : Stage π) (s : σ) : (w.put n t s).stage n = t :=
  Function.update_self _ _ _

theorem refused_safe (h : Safe P I L A w) (hn : w.stage n = .waiting) :
    Safe P I L A (w.put n .finished w.shared) := by
  have hstage : ∀ m y, (w.put n .finished w.shared).stage m = .inside y → w.stage m = .inside y := by
    intro m y hm
    by_cases hne : m = n
    · rw [hne, put_stage_self] at hm
      cases hm
    · exact put_stage hm hne
  refine ⟨h.store, fun m y hm => h.holds m y (hstage m y hm), fun k m hk => ?_,
    fun m y hm => h.known m y (hstage m y hm),
    fun k m x y hkm hk hm => h.apart k m x y hkm (hstage k x hk) (hstage m y hm)⟩
  obtain ⟨hkey, x, hm⟩ := h.held k m hk
  have hne : m ≠ n := by
    rintro rfl
    rw [hn] at hm
    cases hm
  exact ⟨hkey, x, (Function.update_of_ne hne _ _).trans hm⟩

/-- session n goes on inside -/
theorem put_safe (h : Safe P I L A w) (hn : w.stage n = .inside x) {s : σ} (hs : I s) (hknown : L s n y)
    (hothers : ∀ m z, m ≠ n → w.stage m = .inside z → L s m z ∧ A z y) (hsymm : ∀ {u v}, A u v → A v u) :
    Safe P I L A (w.put n (.inside y) s) := by
  refine ⟨hs, fun m z hm => ?_, fun k m hk => ?_, fun m z hm => ?_, fun k m u v hkm hk hm => ?_⟩
  · by_cases hne : m = n
    · rw [hne]
      exact h.holds n x hn
    · exact h.holds m z (put_stage hm hne)
  · obtain ⟨hkey, z, hm⟩ := h.held k m hk
    refine ⟨hkey, ?_⟩
    by_cases hne : m = n
    · rw [hne]
      exact ⟨y, put_stage_self _ _ _ _⟩
    · exact ⟨z, (Function.update_of_ne hne _ _).trans hm⟩
  · by_cases hne : m = n
    · rw [hne, put_stage_self] at hm
      cases hm
      rw [hne]
      exact hknown
    · exact (hothers m z hne (put_stage hm hne)).1
  · by_cases hkn : k = n
    · have hmn : m ≠ n := fun he => hkm (hkn.trans he.symm)
      rw [hkn, put_stage_self] at hk
      cases hk
      exact hsymm (hothers m v hmn (put_stage hm hmn)).2
    · by_cases hmn : m = n
      · rw [hmn, put_stage_self] at hm
        cases hm
        exact (hothers k u hkn (put_stage hk hkn)).2
      · exact h.apart k m u v hkm (put_stage hk hkn) (put_stage hm hmn)

variable [DecidableEq κ]

/-- session n takes the lock -/
def World.acquire (w : World σ ι κ π) (key : κ) (n : ι) (x : π) : World σ ι κ π :=
  { w with stage := Function.update w.stage n (.inside x), lock := Function.update w.lock key (some n) }

/-- session n gives the lock back -/
def World.release (w : World σ ι κ π) (key : κ) (n : ι) (s : σ) : World σ ι κ π :=
  ⟨s, Function.update w.stage n .finished, Function.update w.lock key none⟩

theorem acquire_lock_self (w : World σ ι κ π) (key : κ) (n : ι) (x : π) : (w.acquire key n x).lock key = some n :=
  Function.update_self _ _ _

theorem release_lock_self (w : World σ ι κ π) (key : κ) (n : ι) (s : σ) : (w.release key n s).lock key = none :=
  Function.update_self _ _ _

/-- one statement of session n; it waits as long as another session holds its lock -/
def turn (P : Sessions σ ι κ π ο) (w : World σ ι κ π) (n : ι) : World σ ι κ π :=
  match w.stage n with
  | .waiting =>
    match P.enter n w.shared with
    | none => w.put n .finished w.shared
    | some x => if w.lock (P.key n) = none then w.acquire (P.key n) n x else w
  | .inside x =>
    match P.work n w.shared x with
    | .next s y => w.put n (.inside y) s
    | .leave s => w.release (P.key n) n s
  | .finished => w

def step (P : Sessions σ ι κ π ο) (w : World σ ι κ π) : Event ι ο → World σ ι κ π
  | .turn n => turn P w n
  | .abort n =>
    match w.stage n with
    | .inside _ => w.release (P.key n) n w.shared
    | .waiting => w
    | .finished => w
  | .outside o => { w with shared := P.outside o w.shared }

def run (P : Sessions σ ι κ π ο) (w : World σ ι κ π) (schedule : List (Event ι ο)) : World σ ι κ π :=
  schedule.foldl (step P) w

theorem turn_refused (hn : w.stage n = .waiting) (he : P.enter n w.shared = none) :
    turn P w n = w.put n .finished w.shared := by
  rw [turn, hn]
  simp only [he]

theorem turn_enter (hn : w.stage n = .waiting) (he : P.enter n w.shared = some x) (hfree : w.lock (P.key n) = none) :
    turn P w n = w.acquire (P.key n) n x := by
  rw [turn, hn]
  simp only [he, if_pos hfree]

theorem turn_blocked (hn : w.stage n = .waiting) (he : P.enter n w.shared = some x) (hheld : w.lock (P.key n) ≠ none) :
    turn P w n = w := by
  rw [turn, hn]
  simp only [he, if_neg hheld]

theorem turn_next {s : σ} (hn : w.stage n = .inside x) (hwork : P.work n w.shared x = .next s y) :
    turn P w n = w.put n (.inside y) s := by
  rw [turn, hn]
  simp only [hwork]

theorem turn_leave {s : σ} (hn : w.stage n = .inside x) (hwork : P.work n w.shared x = .leave s) :
    turn P w n = w.release (P.key n) n s := by
  rw [turn, hn]
  simp only [hwork]

theorem turn_finished (hn : w.stage n = .finished) : turn P w n = w := by
  rw [turn, hn]

theorem acquire_safe (h : Safe P I L A w) (hfree : w.lock (P.key n) = none) (hknown : L w.shared n x)
    (hapart : ∀ y, A x y) (hsymm : ∀ {u v}, A u v → A v u) : Safe P I L A (w.acquire (P.key n) n x) := by
  have hstage : ∀ m y, m ≠ n → (w.acquire (P.key n) n x).stage m = .inside y → w.stage m = .inside y := by
    intro m y hne hm
    exact (Function.update_of_ne hne _ _).symm.trans hm
  have hself : (w.acquire (P.key n) n x).stage n = .inside x := Function.update_self _ _ _
  refine ⟨h.store, fun m y hm => ?_, fun k m hk => ?_, fun m y hm => ?_, fun k m u v hkm hk hm => ?_⟩
  · by_cases hne : m = n
    · rw [hne]
      exact Function.update_self _ _ _
    · -- another session inside holds another lock
      have hheld := h.holds m y (hstage m y hne hm)
      have hkey : P.key m ≠ P.key n := fun heq => by
        rw [heq, hfree] at hheld
        cases hheld
      exact (Function.update_of_ne hkey _ _).trans hheld
  · by_cases hkey : k = P.key n
    · rw [hkey] at hk
      cases (acquire_lock_self w (P.key n) n x).symm.trans hk
      exact ⟨hkey.symm, x, hself⟩
    · obtain ⟨hm, y, hinside⟩ := h.held k m ((Function.update_of_ne hkey _ _).symm.trans hk)
      by_cases hne : m = n
      · rw [hne]
        exact ⟨hne ▸ hm, x, hself⟩
      · exact ⟨hm, y, (Function.update_of_ne hne _ _).trans hinside⟩
  · by_cases hne : m = n
    · rw [hne, hself] at hm
      cases hm
      rw [hne]
      exact hknown
    · exact h.known m y (hstage m y hne hm)
  · by_cases hkn : k = n
    · rw [hkn, hself] at hk
      cases hk
      exact hapart v
    · by_cases hmn : m = n
      · rw [hmn, hself] at hm
        cases hm
        exact hsymm (hapart u)
      · exact h.apart k m u v hkm (hstage k u hkn hk) (hstage m v hmn hm)

theorem release_safe (h : Safe P I L A w) (hn : w.stage n = .inside x) {s : σ} (hs : I s)
    (hothers : ∀ m y, m ≠ n → w.stage m = .inside y → L s m y) : Safe P I L A (w.release (P.key n) n s) := by
  have hstage : ∀ m y, (w.release (P.key n) n s).stage m = .inside y → m ≠ n ∧ w.stage m = .inside y := by
    intro m y hm
    by_cases hne : m = n
    · have hself : (w.release (P.key n) n s).stage n = .finished := Function.update_self _ _ _
      rw [hne, hself] at hm
      cases hm
    · exact ⟨hne, (Function.update_of_ne hne _ _).symm.trans hm⟩
  refine ⟨hs, fun m y hm => ?_, fun k m hk => ?_, fun m y hm => ?_, fun k m x y hkm hk hm => ?_⟩
  · obtain ⟨hne, hm⟩ := hstage m y hm
    have hkey : P.key m ≠ P.key n := fun he => hne (h.exclusive hm hn he)
    exact (Function.update_of_ne hkey _ _).trans (h.holds m y hm)
  · have hkey : k ≠ P.key n := by
      rintro rfl
      cases (release_lock_self w (P.key n) n s).symm.trans hk
    obtain ⟨hm, y, hinside⟩ := h.held k m ((Function.update_of_ne hkey _ _).symm.trans hk)
    have hne : m ≠ n := fun he => hkey (by rw [← hm, he])
    exact ⟨hm, y, (Function.update_of_ne hne _ _).trans hinside⟩
  · obtain ⟨hne, hm⟩ := hstage m y hm
    exact hothers m y hne hm
  · exact h.apart k m x y hkm (hstage k x hk).2 (hstage m y hm).2

/-! ## The rule -/

theorem turn_safe (hP : Rule P I L A) (h : Safe P I L A w) (n : ι) : Safe P I L A (turn P w n) := by
  cases hn : w.stage n with
  | finished =>
    rw [turn_finished hn]
    exact h
  | waiting =>
    cases he : P.enter n w.shared with
    | none =>
      rw [turn_refused hn he]
      exact refused_safe h hn
    | some x =>
      by_cases hfree : w.lock (P.key n) = none
      · rw [turn_enter hn he hfree]
        obtain ⟨hknown, hapart⟩ := hP.enter h.store he
        exact acquire_safe h hfree hknown hapart hP.symm
      · rw [turn_blocked hn he hfree]
        exact h
  | inside x =>
    have hknown := h.known n x hn
    have hstore := hP.store h.store hknown
    have hkey : ∀ m y, m ≠ n → w.stage m = .inside y → P.key m ≠ P.key n := fun m y hne hm he =>
      hne (h.exclusive hm hn he)
    have hothers : ∀ m y, m ≠ n → w.stage m = .inside y → L (P.work n w.shared x).shared m y := fun m y hne hm =>
      hP.others h.store (h.known m y hm) hknown (h.apart m n y x hne hm hn) (hkey m y hne hm)
    cases hwork : P.work n w.shared x with
    | leave s =>
      rw [turn_leave hn hwork]
      rw [hwork] at hothers hstore
      exact release_safe h hn hstore hothers
    | next s y =>
      rw [turn_next hn hwork]
      rw [hwork] at hothers hstore
      refine put_safe h hn hstore (hP.own h.store hknown hwork) (fun m z hne hm => ⟨hothers m z hne hm, ?_⟩) hP.symm
      exact hP.apart h.store (h.known m z hm) hknown (h.apart m n z x hne hm hn) (hkey m z hne hm) hwork

theorem step_safe (hP : Rule P I L A) (h : Safe P I L A w) (e : Event ι ο) : Safe P I L A (step P w e) := by
  cases e with
  | turn n => exact turn_safe hP h n
  | abort n =>
    cases hn : w.stage n with
    | inside x =>
      simp only [step, hn]
      exact release_safe h hn h.store fun m y _ hm => h.known m y hm
    | waiting =>
      simp only [step, hn]
      exact h
    | finished =>
      simp only [step, hn]
      exact h
  | outside o =>
    exact ⟨hP.outside_store h.store, h.holds, h.held, fun m y hm => hP.outside h.store (h.known m y hm), h.apart⟩

/-- **Every schedule is safe.** Whatever turns of the sessions and steps beside them follow each other, the store is kept
and no two sessions are inside one lock. -/
theorem run_safe (hP : Rule P I L A) (h : Safe P I L A w) (schedule : List (Event ι ο)) :
    Safe P I L A (run P w schedule) := by
  induction schedule generalizing w with
  | nil => exact h
  | cons e schedule ih => exact ih (step_safe hP h e)

/-! ## Ends -/

variable {rank : π → ℕ}

/-- a session inside finishes by its own turns -/
theorem turns_finish (hrank : ∀ {n s x s' y}, P.work n s x = .next s' y → rank y < rank x)
    (hn : w.stage n = .inside x) :
    ∃ turns, (run P w (List.replicate turns (.turn n))).stage n = .finished ∧
      (run P w (List.replicate turns (.turn n))).lock (P.key n) = none ∧
        ∀ m, m ≠ n → (run P w (List.replicate turns (.turn n))).stage m = w.stage m := by
  induction hr : rank x using Nat.strong_induction_on generalizing w x with
  | _ r ih =>
    cases hwork : P.work n w.shared x with
    | leave s =>
      have hturn : run P w (List.replicate 1 (.turn n)) = w.release (P.key n) n s := turn_leave hn hwork
      refine ⟨1, ?_⟩
      rw [hturn]
      exact ⟨Function.update_self _ _ _, Function.update_self _ _ _, fun m hm => Function.update_of_ne hm _ _⟩
    | next s y =>
      obtain ⟨turns, hturns⟩ := ih (rank y) (hr ▸ hrank hwork) (put_stage_self w n (.inside y) s) rfl
      have hturn : run P w (List.replicate (turns + 1) (.turn n)) =
          run P (w.put n (.inside y) s) (List.replicate turns (.turn n)) := by
        rw [← turn_next hn hwork]
        rfl
      refine ⟨turns + 1, ?_⟩
      rw [hturn]
      exact ⟨hturns.1, hturns.2.1, fun m hm => (hturns.2.2 m hm).trans (Function.update_of_ne hm _ _)⟩

/-- so does one whose lock is free -/
theorem turns_finish_of_free (hrank : ∀ {n s x s' y}, P.work n s x = .next s' y → rank y < rank x)
    (hn : w.stage n = .waiting) (hfree : w.lock (P.key n) = none) :
    ∃ turns, (run P w (List.replicate turns (.turn n))).stage n = .finished := by
  cases he : P.enter n w.shared with
  | none =>
    have hturn : run P w (List.replicate 1 (.turn n)) = w.put n .finished w.shared := turn_refused hn he
    refine ⟨1, ?_⟩
    rw [hturn]
    exact put_stage_self _ _ _ _
  | some x =>
    have hinside : (w.acquire (P.key n) n x).stage n = .inside x := Function.update_self _ _ _
    obtain ⟨turns, hfinished, -⟩ := turns_finish hrank hinside
    refine ⟨turns + 1, ?_⟩
    rw [← turn_enter hn he hfree] at hfinished
    exact hfinished

/-- **No session is blocked for good.** Turns of the session that holds its lock, and then its own, finish it. -/
theorem exists_finishes (hrank : ∀ {n s x s' y}, P.work n s x = .next s' y → rank y < rank x) (h : Safe P I L A w)
    (n : ι) :
    ∃ turns : List ι, (∀ m ∈ turns, P.key m = P.key n) ∧ (run P w (turns.map .turn)).stage n = .finished := by
  cases hn : w.stage n with
  | finished => exact ⟨[], fun m hm => absurd hm List.not_mem_nil, hn⟩
  | inside x =>
    obtain ⟨turns, hfinished, -⟩ := turns_finish hrank hn
    refine ⟨List.replicate turns n, fun m hm => by rw [List.eq_of_mem_replicate hm], ?_⟩
    rw [List.map_replicate]
    exact hfinished
  | waiting =>
    cases hholder : w.lock (P.key n) with
    | none =>
      obtain ⟨turns, hfinished⟩ := turns_finish_of_free hrank hn hholder
      refine ⟨List.replicate turns n, fun m hm => by rw [List.eq_of_mem_replicate hm], ?_⟩
      rw [List.map_replicate]
      exact hfinished
    | some m =>
      obtain ⟨hkey, x, hm⟩ := h.held _ m hholder
      obtain ⟨turns, -, hreleased, hothers⟩ := turns_finish hrank hm
      have hne : n ≠ m := by
        rintro rfl
        rw [hn] at hm
        cases hm
      rw [hkey] at hreleased
      obtain ⟨more, hfinished⟩ := turns_finish_of_free hrank ((hothers n hne).trans hn) hreleased
      refine ⟨List.replicate turns m ++ List.replicate more n, fun k hk => ?_, ?_⟩
      · rcases List.mem_append.1 hk with hk | hk
        · rw [List.eq_of_mem_replicate hk, hkey]
        · rw [List.eq_of_mem_replicate hk]
      · rw [List.map_append, List.map_replicate, List.map_replicate, run, List.foldl_append]
        exact hfinished

end Vault67.CriticalSection
