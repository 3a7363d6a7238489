/-
Loops that may raise, in `Except`.

- `bind_eq_ok`, `ite_error_eq_ok`, `foldlM_cons_ok`, `foldlM_append_ok`: a sequence returns exactly when each part
  returns.
- `foldlM_filter`: rows whose step does nothing can be left out.
- `exists_mapM_ok_iff`: a comprehension returns exactly when it returns for every row.
- `raises_bind`, `raises_mapM`: when a sequence, or a comprehension, raises an exception of a kind.
- `Related.bind`, `Related.foldlM`: two runs that return related values or raise the same.
- `keyed_replay`: one interleaved loop over rows with a key, against one loop per key over that key's rows. If the
  interleaved step returns exactly when the key's own step does, then the interleaved loop returns exactly when the
  loop of every key does, and any relation the steps keep relates the final states.
-/
import Mathlib.Tactic
import Mathlib.Logic.Function.Basic

namespace Vault67.Fallible

universe u

variable {α β σ τ : Type u} {κ ε ε' : Type*}

theorem bind_eq_ok {x : Except ε α} {f : α → Except ε β} {b : β} :
    (x >>= f) = .ok b ↔ ∃ a, x = .ok a ∧ f a = .ok b := by
  cases x with
  | ok a => simp [bind, Except.bind]
  | error e => simp [bind, Except.bind]

@[simp] theorem pure_eq_ok {a b : α} : (pure a : Except ε α) = .ok b ↔ a = b := by
  simp [pure, Except.pure]

theorem bind_eq_error {x : Except ε α} {f : α → Except ε β} {e : ε} :
    (x >>= f) = .error e ↔ x = .error e ∨ ∃ a, x = .ok a ∧ f a = .error e := by
  cases x with
  | ok a => simp [bind, Except.bind]
  | error e => simp [bind, Except.bind]

/-- what a result is checked for -/
theorem exists_ok_of_check {x : Except ε α} {p : α → Prop} [DecidablePred p]
    (h : (match x with | .ok a => decide (p a) | .error _ => false) = true) : ∃ a, x = .ok a ∧ p a := by
  cases x with
  | ok a => exact ⟨a, rfl, of_decide_eq_true h⟩
  | error e => cases h

/-- what an exception is checked for -/
theorem eq_error_of_check [DecidableEq ε] {x : Except ε α} {e : ε}
    (h : (match x with | .ok _ => false | .error e' => decide (e' = e)) = true) : x = .error e := by
  cases x with
  | ok a => cases h
  | error e' => rw [of_decide_eq_true h]

theorem exists_ok_of_isOk {x : Except ε α} (h : x.isOk = true) : ∃ a, x = .ok a := by
  cases x with
  | ok a => exact ⟨a, rfl⟩
  | error e => cases h

@[simp] theorem mapError_eq_ok {x : Except ε α} {f : ε → ε'} {a : α} : x.mapError f = .ok a ↔ x = .ok a := by
  cases x <;> simp [Except.mapError]

/-- a guard that raises -/
theorem ite_error_eq_ok {p : Prop} [Decidable p] {e : ε} {x : Except ε α} {b : α} :
    (if p then .error e else x) = .ok b ↔ ¬p ∧ x = .ok b := by
  split_ifs with h <;> simp [h]

theorem foldlM_cons_ok {f : σ → α → Except ε σ} {s s' : σ} {a : α} {l : List α} :
    (a :: l).foldlM f s = .ok s' ↔ ∃ t, f s a = .ok t ∧ l.foldlM f t = .ok s' := by
  rw [List.foldlM_cons, bind_eq_ok]

theorem foldlM_append_ok {f : σ → α → Except ε σ} {s s' : σ} {l₁ l₂ : List α} :
    (l₁ ++ l₂).foldlM f s = .ok s' ↔ ∃ t, l₁.foldlM f s = .ok t ∧ l₂.foldlM f t = .ok s' := by
  rw [List.foldlM_append, bind_eq_ok]

/-- what every step keeps is kept by the loop -/
theorem foldlM_inv {f : σ → α → Except ε σ} {I : σ → Prop} {s s' : σ} {l : List α}
    (hf : ∀ s t a, a ∈ l → I s → f s a = .ok t → I t) (hs : I s) (h : l.foldlM f s = .ok s') : I s' := by
  induction l generalizing s with
  | nil => cases h; exact hs
  | cons a l ih =>
    obtain ⟨t, ht, hl⟩ := foldlM_cons_ok.1 h
    exact ih (fun s t b hb => hf s t b (List.mem_cons_of_mem a hb)) (hf s t a List.mem_cons_self hs ht) hl

/-- a loop that no state can stop returns exactly when each row's step does -/
theorem exists_foldlM_ok_iff {f : σ → α → Except ε σ} {p : α → Prop} (hf : ∀ s a, (∃ t, f s a = .ok t) ↔ p a) {s : σ}
    {l : List α} : (∃ t, l.foldlM f s = .ok t) ↔ ∀ a ∈ l, p a := by
  induction l generalizing s with
  | nil => simp
  | cons a l ih =>
    rw [List.forall_mem_cons, ← hf s a]
    refine ⟨?_, ?_⟩
    · intro h
      obtain ⟨t, ht⟩ := h
      obtain ⟨s₁, h1, h2⟩ := foldlM_cons_ok.1 ht
      exact ⟨⟨s₁, h1⟩, ih.1 ⟨t, h2⟩⟩
    · intro h
      obtain ⟨⟨s₁, h1⟩, hl⟩ := h
      obtain ⟨t, ht⟩ := (ih (s := s₁)).2 hl
      exact ⟨t, foldlM_cons_ok.2 ⟨s₁, h1, ht⟩⟩

/-- a loop raises what one of its steps raises -/
theorem foldlM_error {f : σ → α → Except ε σ} {s : σ} {l : List α} {e : ε} (h : l.foldlM f s = .error e) :
    ∃ a ∈ l, ∃ t, f t a = .error e := by
  induction l generalizing s with
  | nil => cases h
  | cons a l ih =>
    rw [List.foldlM_cons] at h
    cases hs : f s a with
    | error e' =>
      rw [hs] at h
      cases h
      exact ⟨a, List.mem_cons_self, s, hs⟩
    | ok t =>
      rw [hs] at h
      obtain ⟨b, hb, hf⟩ := ih h
      exact ⟨b, List.mem_cons_of_mem a hb, hf⟩

theorem foldlM_congr {f g : σ → α → Except ε σ} {l : List α} (h : ∀ a ∈ l, ∀ s, f s a = g s a) (s : σ) :
    l.foldlM f s = l.foldlM g s := by
  induction l generalizing s with
  | nil => rfl
  | cons a l ih =>
    rw [List.foldlM_cons, List.foldlM_cons, h a List.mem_cons_self]
    exact bind_congr fun t => ih (fun b hb => h b (List.mem_cons_of_mem a hb)) t

/-- rows whose step does nothing can be left out -/
theorem foldlM_filter {f : σ → α → Except ε σ} {p : α → Bool} (hf : ∀ s a, p a = false → f s a = .ok s) (s : σ)
    (l : List α) : l.foldlM f s = (l.filter p).foldlM f s := by
  induction l generalizing s with
  | nil => rfl
  | cons a l ih =>
    cases h : p a
    · have hs : f s a = .ok s := hf s a h
      simp only [List.foldlM_cons, hs, List.filter_cons, h, Bool.false_eq_true, if_false]
      exact ih s
    · simp only [List.foldlM_cons, List.filter_cons, h, if_true]
      exact bind_congr fun t => ih t

/-! ## Two runs -/

/-- both return related values, or both raise the same -/
def Related {α β : Type u} (R : α → β → Prop) : Except ε α → Except ε β → Prop
  | .ok a, .ok b => R a b
  | .error e, .error e' => e = e'
  | _, _ => False

theorem Related.bind {R : α → β → Prop} {S : σ → τ → Prop} {x : Except ε α} {y : Except ε β} {f : α → Except ε σ}
    {g : β → Except ε τ} (hxy : Related R x y) (hfg : ∀ a b, R a b → Related S (f a) (g b)) :
    Related S (x >>= f) (y >>= g) := by
  cases x with
  | ok a =>
    cases y with
    | ok b => exact hfg a b hxy
    | error e => exact absurd hxy id
  | error e =>
    cases y with
    | ok b => exact absurd hxy id
    | error e' => exact hxy

/-- two loops whose steps keep a relation -/
theorem Related.foldlM {R : σ → τ → Prop} {S : α → β → Prop} {f : σ → α → Except ε σ} {g : τ → β → Except ε τ}
    (hstep : ∀ s t a b, R s t → S a b → Related R (f s a) (g t b)) {l : List α} {m : List β}
    (hlm : List.Forall₂ S l m) {s : σ} {t : τ} (hst : R s t) : Related R (l.foldlM f s) (m.foldlM g t) := by
  induction hlm generalizing s t with
  | nil => exact hst
  | cons hab _ ih =>
    rw [List.foldlM_cons, List.foldlM_cons]
    exact (hstep _ _ _ _ hst hab).bind fun s' t' h => ih h

theorem mapM_ok_iff {f : α → Except ε β} {l : List α} {r : List β} :
    l.mapM f = .ok r ↔ List.Forall₂ (fun a b => f a = .ok b) l r := by
  induction l generalizing r with
  | nil => cases r <;> simp [pure, Except.pure]
  | cons a l ih =>
    rw [List.mapM_cons, bind_eq_ok]
    simp only [bind_eq_ok, pure_eq_ok, ih]
    refine ⟨?_, ?_⟩
    · rintro ⟨b, hb, bs, hbs, rfl⟩
      exact List.Forall₂.cons hb hbs
    · intro h
      cases h with
      | cons hb hbs => exact ⟨_, hb, _, hbs, rfl⟩

theorem exists_mapM_ok_iff {f : α → Except ε β} {l : List α} :
    (∃ r, l.mapM f = .ok r) ↔ ∀ a ∈ l, ∃ b, f a = .ok b := by
  induction l with
  | nil => simp [pure, Except.pure]
  | cons a l ih =>
    refine ⟨?_, ?_⟩
    · rintro ⟨r, hr⟩ c hc
      obtain _ | ⟨hb, hbs⟩ := mapM_ok_iff.1 hr
      rcases List.mem_cons.1 hc with rfl | hc
      · exact ⟨_, hb⟩
      · exact ih.1 ⟨_, mapM_ok_iff.2 hbs⟩ c hc
    · intro h
      obtain ⟨b, hb⟩ := h a List.mem_cons_self
      obtain ⟨bs, hbs⟩ := ih.2 fun c hc => h c (List.mem_cons_of_mem a hc)
      exact ⟨b :: bs, mapM_ok_iff.2 (List.Forall₂.cons hb (mapM_ok_iff.1 hbs))⟩

/-! ## Exceptions of a kind -/

/-- it raises an exception of the kind p -/
def Raises (p : ε → Prop) (x : Except ε α) : Prop := ∃ e, x = .error e ∧ p e

@[simp] theorem not_raises_ok (p : ε → Prop) (a : α) : ¬Raises p (.ok a : Except ε α) := fun h => nomatch h.choose_spec.1

@[simp] theorem raises_error {p : ε → Prop} {e : ε} : Raises p (.error e : Except ε α) ↔ p e := by
  simp [Raises]

theorem raises_bind {p : ε → Prop} {x : Except ε α} {f : α → Except ε β} :
    Raises p (x >>= f) ↔ Raises p x ∨ ∃ a, x = .ok a ∧ Raises p (f a) := by
  cases x with
  | ok a => simp [Raises, bind, Except.bind]
  | error e => simp [Raises, bind, Except.bind]

theorem raises_ok_bind {p : ε → Prop} {a : α} {f : α → Except ε β} :
    Raises p ((.ok a : Except ε α) >>= f) ↔ Raises p (f a) := Iff.rfl

/-- a check whose own exception is not of the kind -/
theorem raises_ite_error {p : ε → Prop} {q : Prop} [Decidable q] {e : ε} {x : Except ε α} (he : ¬p e) :
    Raises p (if q then .error e else x) ↔ ¬q ∧ Raises p x := by
  split_ifs with hq <;> simp [hq, he]

/-- an option whose none raises -/
@[simp] theorem raises_elim {p : ε → Prop} {o : Option α} {e : ε} :
    Raises p (o.elim (.error e) .ok : Except ε α) ↔ o = none ∧ p e := by
  cases o with
  | none => simp
  | some a => simp [not_raises_ok]

theorem elim_eq_ok {o : Option α} {e : ε} {a : α} : (o.elim (.error e) .ok : Except ε α) = .ok a ↔ o = some a := by
  cases o <;> simp

/-- an exception that is caught is replaced by another one -/
theorem raises_catch [DecidableEq (Except ε α)] {p : ε → Prop} {e₀ e₁ : ε} {x : Except ε α} (h : ¬p e₁) :
    Raises p (if x = .error e₀ then .error e₁ else x) ↔ Raises (fun e => e ≠ e₀ ∧ p e) x := by
  cases x with
  | ok a => simp [Raises]
  | error e => by_cases he : e = e₀ <;> simp [he, h]

/-- a comprehension raises what its first row that raises does -/
theorem raises_mapM {p : ε → Prop} {f : α → Except ε β} {l : List α} :
    Raises p (l.mapM f) ↔
      ∃ before a after, l = before ++ a :: after ∧ (∀ b ∈ before, ∃ c, f b = .ok c) ∧ Raises p (f a) := by
  induction l with
  | nil => simp [Raises, pure, Except.pure]
  | cons a l ih =>
    have htail : Raises p ((a :: l).mapM f) ↔ Raises p (f a) ∨ (∃ c, f a = .ok c) ∧ Raises p (l.mapM f) := by
      rw [List.mapM_cons, raises_bind]
      refine or_congr_right ⟨fun h => ?_, fun h => ?_⟩
      · obtain ⟨c, hc, hl⟩ := h
        refine ⟨⟨c, hc⟩, (raises_bind.1 hl).resolve_right fun h' => ?_⟩
        obtain ⟨bs, -, hbs⟩ := h'
        exact not_raises_ok p _ hbs
      · obtain ⟨⟨c, hc⟩, hl⟩ := h
        exact ⟨c, hc, raises_bind.2 (.inl hl)⟩
    rw [htail, ih]
    refine ⟨?_, ?_⟩
    · intro h
      rcases h with ha | ⟨ha, before, b, after, rfl, hbefore, hb⟩
      · exact ⟨[], a, l, rfl, by simp, ha⟩
      · exact ⟨a :: before, b, after, rfl, List.forall_mem_cons.2 ⟨ha, hbefore⟩, hb⟩
    · intro h
      obtain ⟨before, b, after, hl, hbefore, hb⟩ := h
      cases before with
      | nil =>
        cases hl
        exact .inl hb
      | cons c before =>
        cases hl
        obtain ⟨ha, hbefore⟩ := List.forall_mem_cons.1 hbefore
        exact .inr ⟨ha, before, b, after, rfl, hbefore, hb⟩

/-! ## Interleaved and per-key loops -/

variable [DecidableEq κ] {key : α → κ} {f : τ → α → Except ε τ} {g : σ → α → Except ε' σ}

theorem filter_key_cons (a : α) (l : List α) (k : κ) :
    (a :: l).filter (fun b => decide (key b = k)) =
      if key a = k then a :: l.filter (fun b => decide (key b = k)) else l.filter (fun b => decide (key b = k)) := by
  by_cases h : key a = k <;> simp [h]

/-- the loop of key k after the first row a -/
theorem foldlM_key_cons_iff {m : κ → σ} {a : α} {l : List α} {s' : σ} (hg : g (m (key a)) a = .ok s') (k : κ) (r : σ) :
    ((a :: l).filter (fun b => decide (key b = k))).foldlM g (m k) = .ok r ↔
      (l.filter (fun b => decide (key b = k))).foldlM g (Function.update m (key a) s' k) = .ok r := by
  rw [filter_key_cons]
  split_ifs with h
  · subst h
    rw [foldlM_cons_ok, Function.update_self]
    refine ⟨?_, ?_⟩
    · rintro ⟨t, ht, hl⟩
      rw [hg] at ht
      cases ht
      exact hl
    · exact fun hl => ⟨s', hg, hl⟩
  · rw [Function.update_of_ne (Ne.symm h)]

/-- **Interleaving.** R relates the interleaved state to the states of all keys. -/
theorem keyed_replay {R : τ → (κ → σ) → Prop} {l : List α}
    (hstep : ∀ t m a, a ∈ l → R t m →
      (∀ t', f t a = .ok t' → ∃ s', g (m (key a)) a = .ok s' ∧ R t' (Function.update m (key a) s')) ∧
      (∀ s', g (m (key a)) a = .ok s' → ∃ t', f t a = .ok t'))
    {t : τ} {m : κ → σ} (h : R t m) :
    (∀ t', l.foldlM f t = .ok t' →
      ∃ m', (∀ k, (l.filter (fun b => decide (key b = k))).foldlM g (m k) = .ok (m' k)) ∧ R t' m') ∧
    ((∀ k, ∃ s', (l.filter (fun b => decide (key b = k))).foldlM g (m k) = .ok s') →
      ∃ t', l.foldlM f t = .ok t') := by
  induction l generalizing t m with
  | nil =>
    refine ⟨fun t' ht => ?_, fun _ => ⟨t, rfl⟩⟩
    cases ht
    exact ⟨m, fun k => rfl, h⟩
  | cons a l ih =>
    have hl := fun t m b hb => hstep t m b (List.mem_cons_of_mem a hb)
    obtain ⟨h1, h2⟩ := hstep t m a List.mem_cons_self h
    refine ⟨?_, ?_⟩
    · intro t' ht
      obtain ⟨t1, ht1, ht2⟩ := foldlM_cons_ok.1 ht
      obtain ⟨s', hg, hR⟩ := h1 t1 ht1
      obtain ⟨m', hm', hR'⟩ := (ih hl hR).1 t' ht2
      exact ⟨m', fun k => (foldlM_key_cons_iff hg k _).2 (hm' k), hR'⟩
    · intro hk
      -- the loop of a's own key starts with a
      obtain ⟨r, hr⟩ := hk (key a)
      rw [filter_key_cons, if_pos rfl] at hr
      obtain ⟨s', hg, -⟩ := foldlM_cons_ok.1 hr
      obtain ⟨t1, ht1⟩ := h2 s' hg
      obtain ⟨s'', hg', hR⟩ := h1 t1 ht1
      rw [hg] at hg'
      cases hg'
      have hk' : ∀ k, ∃ r, (l.filter (fun b => decide (key b = k))).foldlM g (Function.update m (key a) s' k) = .ok r :=
        fun k => let ⟨r, hr⟩ := hk k; ⟨r, (foldlM_key_cons_iff hg k r).1 hr⟩
      obtain ⟨t2, ht2⟩ := (ih hl hR).2 hk'
      exact ⟨t2, foldlM_cons_ok.2 ⟨t1, ht1, ht2⟩⟩

end Vault67.Fallible
