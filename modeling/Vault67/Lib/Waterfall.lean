/-
Sharing one reduction over several pots, in order: `drain avail ks amount k` is what is taken from pot k when `amount`
is taken out of the pots ks one after the other, each giving what it has until the amount is used up.

- `drain_sum`: in total exactly min(amount, what the pots hold) is taken.
- `sum_min_eq_iff`: taking up to L from EVERY pot takes the same total only when L = 0, or the pots hold at most L
  together, or at most one pot is not empty.
- `drain_before`: a pot gives something only when the pots before it have given all they hold.
- `drain_add`: two reductions, one after the other, take what their sum takes.
- `left_mono`: smaller pots and a larger amount leave less in every pot.
- `min_eq_drain_iff`: in exactly these cases it also takes the same from each pot.
- `sub_min_sub_min`: two reductions of one pot leave what their sum leaves.
-/
import Mathlib.Tactic

namespace Vault67.Waterfall

variable {κ K : Type*} [DecidableEq κ] [AddCommGroup K] [LinearOrder K]

def drain (avail : κ → K) : List κ → K → κ → K
  | [], _ => fun _ => 0
  | k :: ks, amount =>
    Function.update (drain avail ks (amount - max 0 (min (avail k) amount))) k (max 0 (min (avail k) amount))

variable {avail : κ → K} {ks : List κ} {amount : K}

theorem drain_nonneg (k : κ) : 0 ≤ drain avail ks amount k := by
  induction ks generalizing amount with
  | nil => exact le_rfl
  | cons j ks ih =>
    by_cases h : k = j
    · subst h
      simp only [drain, Function.update_self]
      exact le_max_left _ _
    · simp only [drain, Function.update_of_ne h]
      exact ih

theorem drain_le (h0 : ∀ k, 0 ≤ avail k) (k : κ) : drain avail ks amount k ≤ avail k := by
  induction ks generalizing amount with
  | nil => exact h0 k
  | cons j ks ih =>
    by_cases h : k = j
    · subst h
      simp only [drain, Function.update_self]
      exact max_le (h0 k) (min_le_left _ _)
    · simp only [drain, Function.update_of_ne h]
      exact ih

theorem drain_of_notMem {k : κ} (h : k ∉ ks) : drain avail ks amount k = 0 := by
  induction ks generalizing amount with
  | nil => rfl
  | cons j ks ih =>
    obtain ⟨hj, hk⟩ := not_or.1 (mt List.mem_cons.2 h)
    simp only [drain, Function.update_of_ne hj]
    exact ih hk

/-- only what the pots of the list hold matters -/
theorem drain_congr {avail' : κ → K} (h : ∀ k ∈ ks, avail k = avail' k) :
    drain avail ks amount = drain avail' ks amount := by
  induction ks generalizing amount with
  | nil => rfl
  | cons j ks ih =>
    rw [drain, drain, h j List.mem_cons_self, ih fun k hk => h k (List.mem_cons_of_mem j hk)]

theorem drain_of_nonpos {k : κ} (h : amount ≤ 0) : drain avail ks amount k = 0 := by
  induction ks generalizing amount with
  | nil => rfl
  | cons j ks ih =>
    have hj : max 0 (min (avail j) amount) = 0 := max_eq_left ((min_le_right _ _).trans h)
    rw [drain, hj, sub_zero]
    by_cases hk : k = j
    · rw [hk, Function.update_self]
    · rw [Function.update_of_ne hk, ih h]

theorem map_drain_cons {j : κ} (h : j ∉ ks) :
    ((j :: ks).map (drain avail (j :: ks) amount)).sum = max 0 (min (avail j) amount) +
      (ks.map (drain avail ks (amount - max 0 (min (avail j) amount)))).sum := by
  have hks : ks.map (drain avail (j :: ks) amount) = ks.map (drain avail ks (amount - max 0 (min (avail j) amount))) :=
    List.map_congr_left fun k hk => by
      simp only [drain, Function.update_of_ne (ne_of_mem_of_not_mem hk h)]
  rw [List.map_cons, List.sum_cons, hks]
  simp only [drain, Function.update_self]

theorem drain_cons_of_ne {j k : κ} (h : k ≠ j) :
    drain avail (j :: ks) amount k = drain avail ks (amount - max 0 (min (avail j) amount)) k :=
  Function.update_of_ne h _ _

variable [IsOrderedAddMonoid K]

/-! ## One pot -/

/-- what is left of one pot -/
theorem sub_min_eq (x y : K) : x - min x y = max 0 (x - y) := by
  rcases le_total x y with h | h
  · rw [min_eq_left h, sub_self, max_eq_left (sub_nonpos.2 h)]
  · rw [min_eq_right h, max_eq_right (sub_nonneg.2 h)]

/-- two reductions leave what their sum leaves -/
theorem sub_min_sub_min (x : K) {y z : K} (hz : 0 ≤ z) : x - min x y - min (x - min x y) z = max 0 (x - (y + z)) := by
  calc x - min x y - min (x - min x y) z = max 0 (max 0 (x - y) - z) := by rw [sub_min_eq, sub_min_eq]
    _ = max 0 (max (0 - z) (x - y - z)) := by rw [max_sub_sub_right]
    _ = max 0 (x - (y + z)) := by rw [← max_assoc, max_eq_left (sub_nonpos.2 hz), sub_sub]


/-- **The reduction is shared.** In total exactly min(amount, what the pots hold) is taken. -/
theorem drain_sum (hks : ks.Nodup) (h0 : ∀ k, 0 ≤ avail k) (ha : 0 ≤ amount) :
    (ks.map (drain avail ks amount)).sum = min amount (ks.map avail).sum := by
  induction ks generalizing amount with
  | nil => simp [ha]
  | cons j ks ih =>
    obtain ⟨hj, hks⟩ := List.nodup_cons.1 hks
    have hs : 0 ≤ (ks.map avail).sum := List.sum_nonneg (by simpa using fun k _ => h0 k)
    have hm : max 0 (min (avail j) amount) = min (avail j) amount := max_eq_right (le_min (h0 j) ha)
    have hr : 0 ≤ amount - min (avail j) amount := sub_nonneg.2 (min_le_right _ _)
    rw [map_drain_cons hj, hm, ih hks hr, List.map_cons, List.sum_cons]
    rcases le_total (avail j) amount with h | h
    · rw [min_eq_left h, ← min_add_add_left, add_sub_cancel]
    · rw [min_eq_right h, sub_self, min_eq_left hs, add_zero, min_eq_left (h.trans (le_add_of_nonneg_right hs))]

/-! ## Taking up to L from every pot -/

omit [DecidableEq κ] in
theorem sum_min_of_sum_le (h0 : ∀ k, 0 ≤ avail k) {L : K} (h : (ks.map avail).sum ≤ L) :
    (ks.map fun k => min (avail k) L).sum = (ks.map avail).sum := by
  congr 1
  refine List.map_congr_left fun k hk => min_eq_left (le_trans ?_ h)
  exact List.single_le_sum (by simpa using fun k _ => h0 k) _ (List.mem_map_of_mem hk)

omit [DecidableEq κ] in
theorem sum_min_ge (h0 : ∀ k, 0 ≤ avail k) {L : K} (hL : 0 ≤ L) :
    min L (ks.map avail).sum ≤ (ks.map fun k => min (avail k) L).sum := by
  induction ks with
  | nil => simp
  | cons j ks ih =>
    rw [List.map_cons, List.sum_cons, List.map_cons, List.sum_cons]
    have hm : 0 ≤ (ks.map fun k => min (avail k) L).sum :=
      List.sum_nonneg (by simpa using fun k _ => ⟨h0 k, hL⟩)
    rcases le_total (avail j) L with h | h
    · rw [min_eq_left h]
      calc min L (avail j + (ks.map avail).sum) ≤ min (avail j + L) (avail j + (ks.map avail).sum) :=
            min_le_min_right _ (le_add_of_nonneg_left (h0 j))
        _ = avail j + min L (ks.map avail).sum := min_add_add_left _ _ _
        _ ≤ _ := by gcongr
    · rw [min_eq_right h]
      exact (min_le_left _ _).trans (le_add_of_nonneg_right hm)

omit [DecidableEq κ] in
/-- **Repeated or shared.** The totals agree in exactly three cases. -/
theorem sum_min_eq_iff (h0 : ∀ k, 0 ≤ avail k) {L : K} (hL : 0 ≤ L) :
    (ks.map fun k => min (avail k) L).sum = min L (ks.map avail).sum ↔
      L = 0 ∨ (ks.map avail).sum ≤ L ∨ (ks.filter fun k => decide (0 < avail k)).length ≤ 1 := by
  induction ks with
  | nil => simp [hL]
  | cons j ks ih =>
    have hS : 0 ≤ (ks.map avail).sum := List.sum_nonneg (by simpa using fun k _ => h0 k)
    rcases (h0 j).eq_or_lt with hj | hj
    · -- an empty pot counts for nothing on either side
      simpa [← hj, hL] using ih
    · rw [List.map_cons, List.sum_cons, List.map_cons, List.sum_cons]
      have hlen : ((j :: ks).filter fun k => decide (0 < avail k)).length ≤ 1 ↔
          (ks.filter fun k => decide (0 < avail k)) = [] := by simp [hj]
      rw [hlen]
      refine ⟨?_, ?_⟩
      · intro h
        by_contra hc
        obtain ⟨hL0, hc⟩ := not_or.1 hc
        obtain ⟨hgt, hne⟩ := not_or.1 hc
        have hLpos : 0 < L := lt_of_le_of_ne hL (Ne.symm hL0)
        rw [min_eq_left (not_le.1 hgt).le] at h
        have hge := @sum_min_ge _ _ _ _ avail ks _ h0 L hL
        rcases le_total L (avail j) with hjL | hjL
        · -- pot j alone gives L, and another pot gives something
          rw [min_eq_right hjL] at h
          have hzero : (ks.map fun k => min (avail k) L).sum = 0 := by simpa using h
          rw [hzero] at hge
          obtain ⟨k, hk⟩ := List.exists_mem_of_ne_nil _ hne
          have hk' := List.mem_filter.1 hk
          have hle : avail k ≤ (ks.map avail).sum :=
            List.single_le_sum (by simpa using fun k _ => h0 k) _ (List.mem_map_of_mem hk'.1)
          have : 0 < min L (ks.map avail).sum := lt_min hLpos ((of_decide_eq_true hk'.2).trans_le hle)
          exact absurd hge (not_le.2 this)
        · rw [min_eq_left hjL] at h
          rcases le_total (ks.map avail).sum L with hSL | hSL
          · rw [sum_min_of_sum_le h0 hSL] at h
            exact hgt h.le
          · rw [min_eq_left hSL] at hge
            have : L < avail j + (ks.map fun k => min (avail k) L).sum :=
              hge.trans_lt (lt_add_of_pos_left _ hj)
            exact absurd h this.ne'
      · intro h
        rcases h with rfl | h | h
        · have hz : (ks.map fun k => min (avail k) 0).sum = 0 := by
            simp [fun k => min_eq_right (h0 k)]
          rw [hz, min_eq_right hj.le, min_eq_left (add_nonneg hj.le hS), add_zero]
        · have hjL : avail j ≤ L := (le_add_of_nonneg_right hS).trans h
          have hSL : (ks.map avail).sum ≤ L := (le_add_of_nonneg_left hj.le).trans h
          rw [min_eq_left hjL, sum_min_of_sum_le h0 hSL, min_eq_right h]
        · have hz : ∀ k ∈ ks, avail k = 0 := fun k hk =>
            le_antisymm (by simpa using List.filter_eq_nil_iff.1 h k hk) (h0 k)
          have h1 : (ks.map avail).sum = 0 := by rw [List.map_congr_left hz]; simp
          have h2 : (ks.map fun k => min (avail k) L).sum = 0 := by
            rw [List.map_congr_left fun k hk => by rw [hz k hk, min_eq_left hL]]
            simp
          rw [h1, h2, add_zero, add_zero, min_comm]

theorem drain_of_sum_le (h0 : ∀ k, 0 ≤ avail k) (h : (ks.map avail).sum ≤ amount) {k : κ} (hk : k ∈ ks) :
    drain avail ks amount k = avail k := by
  induction ks generalizing amount with
  | nil => simp at hk
  | cons j ks ih =>
    rw [List.map_cons, List.sum_cons] at h
    have hS : 0 ≤ (ks.map avail).sum := List.sum_nonneg (by simpa using fun k _ => h0 k)
    have hj : max 0 (min (avail j) amount) = avail j := by
      rw [min_eq_left ((le_add_of_nonneg_right hS).trans h), max_eq_right (h0 j)]
    simp only [drain, hj]
    by_cases hkj : k = j
    · subst hkj
      exact Function.update_self _ _ _
    · rw [Function.update_of_ne hkj]
      exact ih (le_sub_iff_add_le'.2 h) ((List.mem_cons.1 hk).resolve_left hkj)

omit [IsOrderedAddMonoid K] in
theorem min_eq_drain_of_single (h0 : ∀ k, 0 ≤ avail k) (ha : 0 ≤ amount)
    (h : (ks.filter fun k => decide (0 < avail k)).length ≤ 1) {k : κ} (hk : k ∈ ks) :
    min (avail k) amount = drain avail ks amount k := by
  induction ks generalizing amount with
  | nil => simp at hk
  | cons j ks ih =>
    have hm : max 0 (min (avail j) amount) = min (avail j) amount := max_eq_right (le_min (h0 j) ha)
    simp only [drain, hm]
    by_cases hkj : k = j
    · subst hkj
      rw [Function.update_self]
    · rw [Function.update_of_ne hkj]
      have hks : k ∈ ks := (List.mem_cons.1 hk).resolve_left hkj
      rcases (h0 j).eq_or_lt with hj | hj
      · rw [← hj, min_eq_left ha, sub_zero]
        refine ih ha ?_ hks
        simpa [← hj] using h
      · -- pot j is the only one that is not empty
        have hnil : (ks.filter fun k => decide (0 < avail k)) = [] := by simpa [hj] using h
        have hz : avail k = 0 := le_antisymm (by simpa using List.filter_eq_nil_iff.1 hnil k hks) (h0 k)
        have hd : drain avail ks (amount - min (avail j) amount) k = 0 :=
          le_antisymm (hz ▸ drain_le h0 k) (drain_nonneg k)
        rw [hz, min_eq_left ha, hd]

/-- **Pot by pot.** Taking up to L from every pot drains the pots in order exactly in the same three cases. -/
theorem min_eq_drain_iff (hks : ks.Nodup) (h0 : ∀ k, 0 ≤ avail k) {L : K} (hL : 0 ≤ L) :
    (∀ k ∈ ks, min (avail k) L = drain avail ks L k) ↔
      L = 0 ∨ (ks.map avail).sum ≤ L ∨ (ks.filter fun k => decide (0 < avail k)).length ≤ 1 := by
  refine ⟨?_, ?_⟩
  · intro h
    rw [← sum_min_eq_iff h0 hL, ← drain_sum hks h0 hL]
    exact congrArg List.sum (List.map_congr_left h)
  · intro h k hk
    rcases h with rfl | h | h
    · have hd : drain avail ks 0 k ≤ (ks.map (drain avail ks 0)).sum :=
        List.single_le_sum (by simpa using fun k _ => drain_nonneg k) _ (List.mem_map_of_mem hk)
      rw [drain_sum hks h0 le_rfl] at hd
      rw [min_eq_right (h0 k)]
      exact le_antisymm (drain_nonneg k) (hd.trans (min_le_left _ _))
    · rw [drain_of_sum_le h0 h hk, min_eq_left]
      exact (List.single_le_sum (by simpa using fun k _ => h0 k) _ (List.mem_map_of_mem hk)).trans h
    · exact min_eq_drain_of_single h0 hL h hk

/-! ## Comparing two reductions -/

omit [DecidableEq κ] in
/-- what is left of a pot t that gives up to r -/
theorem pot_left {t : K} (ht : 0 ≤ t) (r : K) : t - max 0 (min t r) = min t (max (t - r) 0) := by
  rcases le_total r 0 with hr | hr
  · rw [max_eq_left ((min_le_right t r).trans hr), sub_zero, min_eq_left]
    exact (le_sub_self_iff t |>.2 hr).trans (le_max_left _ _)
  · rw [max_eq_right (le_min ht hr)]
    rcases le_total r t with hrt | htr
    · rw [min_eq_right hrt, max_eq_left (sub_nonneg.2 hrt), min_eq_right (sub_le_self t hr)]
    · rw [min_eq_left htr, sub_self, max_eq_right (sub_nonpos.2 htr), min_eq_right ht]

omit [DecidableEq κ] in
/-- what is left of the amount r that a pot t has given to -/
theorem amount_left {t : K} (ht : 0 ≤ t) (r : K) : r - max 0 (min t r) = min r (max (r - t) 0) := by
  rcases le_total r 0 with hr | hr
  · rw [max_eq_left ((min_le_right t r).trans hr), sub_zero, max_eq_right ((sub_le_self r ht).trans hr), min_eq_left hr]
  · rw [max_eq_right (le_min ht hr)]
    rcases le_total r t with hrt | htr
    · rw [min_eq_right hrt, sub_self, max_eq_right (sub_nonpos.2 hrt), min_eq_right hr]
    · rw [min_eq_left htr, max_eq_left (sub_nonneg.2 htr), min_eq_right (sub_le_self r ht)]

/-- **The reduction is monotone.** Smaller pots and a larger amount leave less in every pot. -/
theorem left_mono {avail' : κ → K} {amount' : K} (h0 : ∀ k ∈ ks, 0 ≤ avail k) (hle : ∀ k ∈ ks, avail k ≤ avail' k)
    (ha : amount' ≤ amount) {k : κ} (hk : k ∈ ks) :
    avail k - drain avail ks amount k ≤ avail' k - drain avail' ks amount' k := by
  induction ks generalizing amount amount' with
  | nil => simp at hk
  | cons j ks ih =>
    have hj := h0 j List.mem_cons_self
    have hjle := hle j List.mem_cons_self
    by_cases hkj : k = j
    · subst hkj
      simp only [drain, Function.update_self]
      rw [pot_left hj, pot_left (hj.trans hjle)]
      exact min_le_min hjle (max_le_max (sub_le_sub hjle ha) le_rfl)
    · simp only [drain, Function.update_of_ne hkj]
      refine ih (fun i hi => h0 i (List.mem_cons_of_mem j hi)) (fun i hi => hle i (List.mem_cons_of_mem j hi)) ?_
        ((List.mem_cons.1 hk).resolve_left hkj)
      rw [amount_left hj, amount_left (hj.trans hjle)]
      exact min_le_min ha (max_le_max (sub_le_sub ha hjle) le_rfl)

/-! ## Greedy, and in two steps -/

/-- **In order.** A pot that gives something comes after pots that gave all they hold. -/
theorem drain_before (h0 : ∀ k, 0 ≤ avail k) {before after : List κ} {k : κ} (hks : (before ++ k :: after).Nodup)
    (hk : 0 < drain avail (before ++ k :: after) amount k) {j : κ} (hj : j ∈ before) :
    drain avail (before ++ k :: after) amount j = avail j := by
  induction before generalizing amount with
  | nil => simp at hj
  | cons i before ih =>
    rw [List.cons_append, List.nodup_cons] at hks
    have hki : k ≠ i := by
      rintro rfl
      exact hks.1 (List.mem_append_right _ List.mem_cons_self)
    simp only [List.cons_append, drain, Function.update_of_ne hki] at hk ⊢
    rcases List.mem_cons.1 hj with rfl | hjb
    · -- something is left of the amount, so pot j gave everything
      rw [Function.update_self]
      have hleft : 0 < amount - max 0 (min (avail j) amount) := by
        by_contra hnot
        rw [drain_of_nonpos (not_lt.1 hnot)] at hk
        exact lt_irrefl _ hk
      rw [amount_left (h0 j), lt_min_iff] at hleft
      have hlt : avail j < amount := by simpa using hleft.2
      rw [min_eq_left hlt.le, max_eq_right (h0 j)]
    · have hji : j ≠ i := by
        rintro rfl
        exact hks.1 (List.mem_append_left _ hjb)
      rw [Function.update_of_ne hji]
      exact ih hks.2 hk hjb

omit [DecidableEq κ] in
/-- two amounts taken from a pot t, one after the other -/
theorem pot_add {t a b : K} (ht : 0 ≤ t) (ha : 0 ≤ a) (hb : 0 ≤ b) :
    max 0 (min t a) + max 0 (min (t - max 0 (min t a)) b) = max 0 (min t (a + b)) := by
  rw [max_eq_right (le_min ht ha), max_eq_right (le_min ht (add_nonneg ha hb))]
  rcases le_total t a with hta | hat
  · rw [min_eq_left hta, sub_self, min_eq_left hb, max_self, add_zero, min_eq_left (hta.trans (le_add_of_nonneg_right hb))]
  · rw [min_eq_right hat, max_eq_right (le_min (sub_nonneg.2 hat) hb), ← min_add_add_left, add_sub_cancel]

/-- **In two steps.** What two reductions take, one after the other, their sum takes. -/
theorem drain_add (h0 : ∀ k, 0 ≤ avail k) (hks : ks.Nodup) {a b : K} (ha : 0 ≤ a) (hb : 0 ≤ b) (k : κ) :
    drain avail ks a k + drain (fun i => avail i - drain avail ks a i) ks b k = drain avail ks (a + b) k := by
  induction ks generalizing a b with
  | nil => simp [drain]
  | cons j ks ih =>
    obtain ⟨hj, hks⟩ := List.nodup_cons.1 hks
    have hpot := pot_add (h0 j) ha hb
    by_cases hkj : k = j
    · subst hkj
      simp only [drain, Function.update_self]
      exact hpot
    · have htail : drain (fun i => avail i - drain avail (j :: ks) a i) ks =
          drain (fun i => avail i - drain avail ks (a - max 0 (min (avail j) a)) i) ks := by
        funext c
        apply drain_congr
        intro i hi
        rw [drain_cons_of_ne (ne_of_mem_of_not_mem hi hj)]
      have hleft : ∀ {t r : K}, 0 ≤ t → 0 ≤ r → 0 ≤ r - max 0 (min t r) := fun ht hr => by
        rw [amount_left ht]
        exact le_min hr (le_max_right _ _)
      have hpotj : drain avail (j :: ks) a j = max 0 (min (avail j) a) := Function.update_self _ _ _
      have hpot0 : 0 ≤ avail j - max 0 (min (avail j) a) := hpotj ▸ sub_nonneg.2 (drain_le h0 j)
      have hrest := ih hks (hleft (h0 j) ha) (hleft hpot0 hb)
      rw [drain_cons_of_ne hkj, drain_cons_of_ne hkj, drain_cons_of_ne hkj, htail, hpotj, hrest]
      congr 1
      rw [← hpot]
      abel

end Vault67.Waterfall
