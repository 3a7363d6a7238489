/-
Weighted-average cost of one holding, over any ordered field.

A purchase adds its quantity and its cost; a sale is refused when it exceeds the quantity held, and otherwise takes out
its share of the cost at the prevailing average and realizes proceeds minus that share.

- `replay_isSome_iff`: a history replays exactly when it is `Covered`: no sale exceeds what the trades before it left.
- `replay_quantity`: the quantity held is what was bought minus what was sold.
- `replay_cash`: realized minus cost grows by exactly the cash of the trades. The average, the partial sales and the
  resets at zero quantity neither create nor lose money.
- `apply_sell_average`: a sale that does not close the position leaves its average cost as it is.
- `replay_average`: from an empty position, the average lies between the unit costs of two purchases.
- `covered_insert_sell`, `covered_insert_buy`: when a trade may be inserted in the middle of a covered history.
-/
import Mathlib.Tactic

namespace Vault67.AverageCost

variable {K : Type*} [Field K] [LinearOrder K]

inductive Trade (K : Type*) where
  | buy (quantity cost : K)
  | sell (quantity proceeds : K)
deriving DecidableEq, Repr

structure Position (K : Type*) where
  quantity : K
  cost : K
  realized : K
deriving DecidableEq, Repr

def Trade.quantity : Trade K → K
  | .buy q _ => q
  | .sell q _ => q

/-- change of the quantity held -/
def Trade.signed : Trade K → K
  | .buy q _ => q
  | .sell q _ => -q

/-- change of the cash balance -/
def Trade.cash : Trade K → K
  | .buy _ c => -c
  | .sell _ r => r

def Position.empty : Position K := ⟨0, 0, 0⟩

def Position.apply (p : Position K) : Trade K → Option (Position K)
  | .buy q c => some ⟨p.quantity + q, p.cost + c, p.realized⟩
  | .sell q r =>
    if q ≤ p.quantity then
      some ⟨p.quantity - q, if p.quantity - q = 0 then 0 else p.cost - p.cost / p.quantity * q,
        p.realized + (r - p.cost / p.quantity * q)⟩
    else none

def Position.replay (p : Position K) (ts : List (Trade K)) : Option (Position K) := ts.foldlM Position.apply p

/-- starting from quantity h, no sale exceeds the quantity held before it -/
def Covered : K → List (Trade K) → Prop
  | _, [] => True
  | h, .buy q _ :: ts => Covered (h + q) ts
  | h, .sell q _ :: ts => q ≤ h ∧ Covered (h - q) ts

/-- a positive quantity, and a purchase that costs something or nothing -/
def Trade.Valid : Trade K → Prop
  | .buy q c => 0 < q ∧ 0 ≤ c
  | .sell q _ => 0 < q

/-- the quantity is not negative, and a closed position costs nothing -/
structure Position.Sound (p : Position K) : Prop where
  quantity_nonneg : 0 ≤ p.quantity
  cost_zero : p.quantity = 0 → p.cost = 0

theorem Position.sound_empty : (Position.empty : Position K).Sound := ⟨le_rfl, fun _ => rfl⟩

theorem Trade.Valid.quantity_pos {t : Trade K} (h : t.Valid) : 0 < t.quantity := by
  cases t with
  | buy q c => exact h.1
  | sell q r => exact h

omit [LinearOrder K] in
/-- what a partial sale leaves of the cost -/
theorem sold_cost {c Q q : K} (hQ : Q ≠ 0) : c - c / Q * q = c / Q * (Q - q) := by
  rw [mul_sub, div_mul_cancel₀ c hQ]

theorem replay_cons {p p' : Position K} {t : Trade K} {ts : List (Trade K)} :
    p.replay (t :: ts) = some p' ↔ ∃ p₁, p.apply t = some p₁ ∧ p₁.replay ts = some p' := by
  simp only [Position.replay, List.foldlM_cons, Option.bind_eq_bind, Option.bind_eq_some_iff]

/-! ## One trade -/

theorem apply_sell_of_le {p : Position K} {q r : K} (h : q ≤ p.quantity) :
    p.apply (.sell q r) = some ⟨p.quantity - q, if p.quantity - q = 0 then 0 else p.cost - p.cost / p.quantity * q,
      p.realized + (r - p.cost / p.quantity * q)⟩ := if_pos h

theorem apply_sell_of_lt {p : Position K} {q r : K} (h : p.quantity < q) : p.apply (.sell q r) = none :=
  if_neg (not_le.2 h)

theorem apply_quantity {p p' : Position K} {t : Trade K} (h : p.apply t = some p') :
    p'.quantity = p.quantity + t.signed := by
  cases t with
  | buy q c => cases h; rfl
  | sell q r =>
    simp only [Position.apply] at h
    split_ifs at h <;> cases h <;> exact sub_eq_add_neg _ _

/-- **One trade moves cash into or out of the position and nothing else.** -/
theorem apply_cash [IsStrictOrderedRing K] {p p' : Position K} {t : Trade K} (ht : 0 < t.quantity)
    (h : p.apply t = some p') : p'.realized - p'.cost = p.realized - p.cost + t.cash := by
  cases t with
  | buy q c =>
    cases h
    simp only [Trade.cash]
    ring
  | sell q r =>
    simp only [Trade.quantity] at ht
    simp only [Position.apply] at h
    split_ifs at h with hle h0 <;> cases h
    · -- sold out: the whole cost is allocated to this sale
      have hpq : p.quantity ≠ 0 := (ht.trans_le hle).ne'
      have hall : p.cost / p.quantity * q = p.cost := by
        rw [show q = p.quantity by linarith, div_mul_cancel₀ _ hpq]
      simp only [Trade.cash, hall]
      ring
    · simp only [Trade.cash]
      ring

/-! ## Histories -/

theorem replay_quantity {p p' : Position K} {ts : List (Trade K)} (h : p.replay ts = some p') :
    p'.quantity = p.quantity + (ts.map Trade.signed).sum := by
  induction ts generalizing p with
  | nil => cases h; simp
  | cons t ts ih =>
    obtain ⟨p₁, h1, h2⟩ := replay_cons.1 h
    rw [ih h2, apply_quantity h1, List.map_cons, List.sum_cons, add_assoc]

theorem replay_cash [IsStrictOrderedRing K] {p p' : Position K} {ts : List (Trade K)} (hts : ∀ t ∈ ts, 0 < t.quantity)
    (h : p.replay ts = some p') : p'.realized - p'.cost = p.realized - p.cost + (ts.map Trade.cash).sum := by
  induction ts generalizing p with
  | nil => cases h; simp
  | cons t ts ih =>
    obtain ⟨p₁, h1, h2⟩ := replay_cons.1 h
    have hc := apply_cash (hts t List.mem_cons_self) h1
    rw [ih (fun u hu => hts u (List.mem_cons_of_mem t hu)) h2, hc, List.map_cons, List.sum_cons, add_assoc]

theorem covered_cons {h : K} {t : Trade K} {ts : List (Trade K)} :
    Covered h (t :: ts) ↔ (∀ q r, t = .sell q r → q ≤ h) ∧ Covered (h + t.signed) ts := by
  cases t with
  | buy q c => simp [Covered, Trade.signed]
  | sell q r => simp [Covered, Trade.signed, sub_eq_add_neg]

theorem apply_isSome_iff {p : Position K} {t : Trade K} :
    (∃ p', p.apply t = some p') ↔ ∀ q r, t = .sell q r → q ≤ p.quantity := by
  cases t with
  | buy q c => simp [Position.apply]
  | sell q r => simp [Position.apply]

/-- **A history replays exactly when it is covered.** -/
theorem replay_isSome_iff {p : Position K} {ts : List (Trade K)} :
    (∃ p', p.replay ts = some p') ↔ Covered p.quantity ts := by
  induction ts generalizing p with
  | nil => simp [Position.replay, Covered]
  | cons t ts ih =>
    rw [covered_cons]
    refine ⟨?_, ?_⟩
    · intro hreplay
      obtain ⟨p', h⟩ := hreplay
      obtain ⟨p₁, h1, h2⟩ := replay_cons.1 h
      refine ⟨apply_isSome_iff.1 ⟨p₁, h1⟩, ?_⟩
      rw [← apply_quantity h1]
      exact ih.1 ⟨p', h2⟩
    · intro hcovered
      obtain ⟨h1, h2⟩ := hcovered
      obtain ⟨p₁, hp₁⟩ := apply_isSome_iff.2 h1
      rw [← apply_quantity hp₁] at h2
      obtain ⟨p', hp'⟩ := ih.2 h2
      exact ⟨p', replay_cons.2 ⟨p₁, hp₁, hp'⟩⟩

theorem covered_append {h : K} {ts us : List (Trade K)} :
    Covered h (ts ++ us) ↔ Covered h ts ∧ Covered (h + (ts.map Trade.signed).sum) us := by
  induction ts generalizing h with
  | nil => simp [Covered]
  | cons t ts ih =>
    rw [List.cons_append, covered_cons, covered_cons, ih, List.map_cons, List.sum_cons, and_assoc, add_assoc]

variable [IsStrictOrderedRing K]

theorem covered_mono {h h' : K} {ts : List (Trade K)} (hh : h ≤ h') (hc : Covered h ts) : Covered h' ts := by
  induction ts generalizing h h' with
  | nil => trivial
  | cons t ts ih =>
    obtain ⟨h1, h2⟩ := covered_cons.1 hc
    exact covered_cons.2 ⟨fun q r e => (h1 q r e).trans hh, ih (by linarith) h2⟩

/-- in a covered history of positive trades the quantity held is never negative -/
theorem covered_nonneg {h : K} {ts : List (Trade K)} (h0 : 0 ≤ h) (hts : ∀ t ∈ ts, 0 < t.quantity)
    (hc : Covered h ts) : 0 ≤ h + (ts.map Trade.signed).sum := by
  induction ts generalizing h with
  | nil => simpa using h0
  | cons t ts ih =>
    obtain ⟨h1, h2⟩ := covered_cons.1 hc
    rw [List.map_cons, List.sum_cons, ← add_assoc]
    refine ih ?_ (fun u hu => hts u (List.mem_cons_of_mem t hu)) h2
    have ht := hts t List.mem_cons_self
    cases t with
    | buy q c => simp only [Trade.quantity, Trade.signed] at ht ⊢; linarith
    | sell q r => have := h1 q r rfl; simp only [Trade.signed]; linarith

/-! ## Inserting a trade in the middle of a history -/

theorem covered_insert_buy {h q c : K} {ts us : List (Trade K)} (hq : 0 ≤ q) (hc : Covered h (ts ++ us)) :
    Covered h (ts ++ .buy q c :: us) := by
  obtain ⟨h1, h2⟩ := covered_append.1 hc
  refine covered_append.2 ⟨h1, ?_⟩
  simp only [Covered]
  exact covered_mono (by linarith) h2

/-- taking q out of the quantity held keeps a history covered exactly when every later sale leaves at least q -/
theorem covered_sub_iff {h q : K} {us : List (Trade K)} (hc : Covered h us) :
    Covered (h - q) us ↔
      ∀ pre x r post, us = pre ++ .sell x r :: post → q ≤ h + (pre.map Trade.signed).sum - x := by
  induction us generalizing h with
  | nil => simp [Covered]
  | cons t us ih =>
    obtain ⟨h1, h2⟩ := covered_cons.1 hc
    rw [covered_cons, show h - q + t.signed = h + t.signed - q by ring, ih h2]
    refine ⟨?_, ?_⟩
    · rintro ⟨ha, hb⟩ pre x r post e
      cases pre with
      | nil =>
        simp only [List.nil_append, List.cons.injEq] at e
        have := ha x r e.1
        simp only [List.map_nil, List.sum_nil]
        linarith
      | cons u pre =>
        simp only [List.cons_append, List.cons.injEq] at e
        obtain ⟨rfl, rfl⟩ := e
        have := hb pre x r post rfl
        rw [List.map_cons, List.sum_cons]
        linarith
    · intro ha
      refine ⟨?_, ?_⟩
      · intro x r e
        have := ha [] x r us (by rw [e]; rfl)
        simp only [List.map_nil, List.sum_nil] at this
        linarith
      · intro pre x r post e
        have := ha (t :: pre) x r post (by rw [e]; rfl)
        rw [List.map_cons, List.sum_cons] at this
        linarith

/-- **Inserting a sale.** In a covered history, a sale of q fits between ts and us exactly when ts left at least q and
every sale of us leaves at least q. -/
theorem covered_insert_sell {h q r : K} {ts us : List (Trade K)} (hc : Covered h (ts ++ us)) :
    Covered h (ts ++ .sell q r :: us) ↔
      q ≤ h + (ts.map Trade.signed).sum ∧
        ∀ pre x r' post, us = pre ++ .sell x r' :: post →
          q ≤ h + (ts.map Trade.signed).sum + (pre.map Trade.signed).sum - x := by
  obtain ⟨h1, h2⟩ := covered_append.1 hc
  rw [covered_append]
  simp only [Covered, h1, true_and, covered_sub_iff h2]

/-! ## The average -/

variable {p p' : Position K} {ts : List (Trade K)}

theorem apply_sound {t : Trade K} (hp : p.Sound) (ht : 0 < t.quantity) (h : p.apply t = some p') : p'.Sound := by
  cases t with
  | buy q c =>
    have hq : 0 < q := ht
    cases h
    have hQ : 0 < p.quantity + q := add_pos_of_nonneg_of_pos hp.quantity_nonneg hq
    exact ⟨hQ.le, fun hzero => absurd hzero hQ.ne'⟩
  | sell q r =>
    simp only [Position.apply] at h
    split_ifs at h with hle hclosed <;> cases h
    · exact ⟨hclosed.ge, fun _ => rfl⟩
    · exact ⟨sub_nonneg.2 hle, fun hzero => absurd hzero hclosed⟩

theorem replay_sound (hp : p.Sound) (hts : ∀ t ∈ ts, 0 < t.quantity) (h : p.replay ts = some p') : p'.Sound := by
  induction ts generalizing p with
  | nil =>
    cases h
    exact hp
  | cons t ts ih =>
    obtain ⟨p₁, h1, h2⟩ := replay_cons.1 h
    exact ih (apply_sound hp (hts t List.mem_cons_self) h1) (fun u hu => hts u (List.mem_cons_of_mem t hu)) h2

theorem apply_cost_nonneg {t : Trade K} (hc : 0 ≤ p.cost) (ht : t.Valid) (h : p.apply t = some p') : 0 ≤ p'.cost := by
  cases t with
  | buy q c =>
    cases h
    exact add_nonneg hc ht.2
  | sell q r =>
    have hq : 0 < q := ht
    simp only [Position.apply] at h
    split_ifs at h with hle hclosed <;> cases h
    · exact le_rfl
    · have hQ : 0 < p.quantity := hq.trans_le hle
      show 0 ≤ p.cost - p.cost / p.quantity * q
      rw [sold_cost hQ.ne']
      exact mul_nonneg (div_nonneg hc hQ.le) (sub_nonneg.2 hle)

theorem replay_cost_nonneg (hc : 0 ≤ p.cost) (hts : ∀ t ∈ ts, t.Valid) (h : p.replay ts = some p') : 0 ≤ p'.cost := by
  induction ts generalizing p with
  | nil =>
    cases h
    exact hc
  | cons t ts ih =>
    obtain ⟨p₁, h1, h2⟩ := replay_cons.1 h
    exact ih (apply_cost_nonneg hc (hts t List.mem_cons_self) h1) (fun u hu => hts u (List.mem_cons_of_mem t hu)) h2

omit [IsStrictOrderedRing K] in
/-- **A partial sale keeps the average.** -/
theorem apply_sell_average {q r : K} (hq : 0 < q) (h : p.apply (.sell q r) = some p') (hopen : p'.quantity ≠ 0) :
    p'.cost / p'.quantity = p.cost / p.quantity := by
  simp only [Position.apply] at h
  split_ifs at h with hle hclosed <;> cases h
  · exact absurd hclosed hopen
  · have hQ : p.quantity ≠ 0 := (hq.trans_le hle).ne'
    show (p.cost - p.cost / p.quantity * q) / (p.quantity - q) = p.cost / p.quantity
    rw [sold_cost hQ, mul_div_cancel_right₀ _ hopen]

/-- a linear combination of quantity and cost that every purchase makes positive is positive in every open position -/
theorem apply_linear {a b : K} {t : Trade K} (hp : p.Sound) (ht : t.Valid) (hbuy : ∀ q c, t = .buy q c → 0 < a * q + b * c)
    (hpos : 0 < p.quantity → 0 < a * p.quantity + b * p.cost) (h : p.apply t = some p') (hopen : 0 < p'.quantity) :
    0 < a * p'.quantity + b * p'.cost := by
  cases t with
  | buy q c =>
    cases h
    have hadd : a * (p.quantity + q) + b * (p.cost + c) = a * p.quantity + b * p.cost + (a * q + b * c) := by ring
    show 0 < a * (p.quantity + q) + b * (p.cost + c)
    rw [hadd]
    rcases hp.quantity_nonneg.eq_or_lt with hzero | hQ
    · rw [hp.cost_zero hzero.symm, ← hzero, mul_zero, mul_zero, add_zero, zero_add]
      exact hbuy q c rfl
    · exact add_pos (hpos hQ) (hbuy q c rfl)
  | sell q r =>
    have hq : 0 < q := ht
    simp only [Position.apply] at h
    split_ifs at h with hle hclosed <;> cases h
    · exact absurd hclosed hopen.ne'
    · have hQ : 0 < p.quantity := hq.trans_le hle
      have hscale : a * (p.quantity - q) + b * (p.cost / p.quantity * (p.quantity - q)) =
          (a * p.quantity + b * p.cost) * ((p.quantity - q) / p.quantity) := by
        have := hQ.ne'
        field_simp
      show 0 < a * (p.quantity - q) + b * (p.cost - p.cost / p.quantity * q)
      rw [sold_cost hQ.ne', hscale]
      exact mul_pos (hpos hQ) (div_pos hopen hQ)

theorem replay_linear {a b : K} (hp : p.Sound) (hts : ∀ t ∈ ts, t.Valid)
    (hbuy : ∀ q c, Trade.buy q c ∈ ts → 0 < a * q + b * c) (hpos : 0 < p.quantity → 0 < a * p.quantity + b * p.cost)
    (h : p.replay ts = some p') (hopen : 0 < p'.quantity) : 0 < a * p'.quantity + b * p'.cost := by
  induction ts generalizing p with
  | nil =>
    cases h
    exact hpos hopen
  | cons t ts ih =>
    obtain ⟨p₁, h1, h2⟩ := replay_cons.1 h
    have ht := hts t List.mem_cons_self
    have hp₁ := apply_sound hp ht.quantity_pos h1
    have hfirst : ∀ q c, t = .buy q c → 0 < a * q + b * c := fun q c e => hbuy q c (e ▸ List.mem_cons_self)
    exact ih hp₁ (fun u hu => hts u (List.mem_cons_of_mem t hu)) (fun q c hc => hbuy q c (List.mem_cons_of_mem t hc))
      (apply_linear hp ht hfirst hpos h1) h2

/-- **The average lies between unit costs.** A position that was opened since it was empty costs per unit at least what
some purchase since then cost per unit, and at most what some purchase did. -/
theorem replay_average (hp : p.Sound) (hzero : p.quantity = 0) (hts : ∀ t ∈ ts, t.Valid) (h : p.replay ts = some p')
    (hopen : 0 < p'.quantity) :
    (∃ q c, Trade.buy q c ∈ ts ∧ c / q ≤ p'.cost / p'.quantity) ∧
      ∃ q c, Trade.buy q c ∈ ts ∧ p'.cost / p'.quantity ≤ c / q := by
  have hQ := hopen.ne'
  have hclosed : ∀ a b : K, 0 < p.quantity → 0 < a * p.quantity + b * p.cost :=
    fun a b hpos => absurd hzero hpos.ne'
  refine ⟨?_, ?_⟩
  · by_contra hnone
    push Not at hnone
    have hbuy : ∀ q c, Trade.buy q c ∈ ts → 0 < -(p'.cost / p'.quantity) * q + 1 * c := by
      intro q c hc
      have hq : 0 < q := (hts _ hc).1
      have hlt := (lt_div_iff₀ hq).1 (hnone q c hc)
      linarith
    have hpos := replay_linear hp hts hbuy (hclosed _ _) h hopen
    rw [neg_mul, div_mul_cancel₀ _ hQ, one_mul, neg_add_cancel] at hpos
    exact lt_irrefl _ hpos
  · by_contra hnone
    push Not at hnone
    have hbuy : ∀ q c, Trade.buy q c ∈ ts → 0 < p'.cost / p'.quantity * q + -1 * c := by
      intro q c hc
      have hq : 0 < q := (hts _ hc).1
      have hlt := (div_lt_iff₀ hq).1 (hnone q c hc)
      linarith
    have hpos := replay_linear hp hts hbuy (hclosed _ _) h hopen
    rw [div_mul_cancel₀ _ hQ, neg_one_mul, add_neg_cancel] at hpos
    exact lt_irrefl _ hpos

end Vault67.AverageCost
