/-
Numbers written with the ASCII digits, and read back.

- `number_toDigits`, `int_toDigits`: `str(n)` reads as n, as a run of digits and as `int`;
- `padded_succ`: a number with leading zeros, digit by digit. `number_padded`, `digits_padded`: it reads as the number.
-/
import Mathlib.Tactic
import Vault67.Lib.Calendar
import Vault67.Lib.Text

namespace Vault67

open Text

/-! ## Digits -/

namespace Text

variable {c : Char} {cs : List Char}

theorem isDigit_iff : c.isDigit = true ↔ 48 ≤ c.toNat ∧ c.toNat ≤ 57 := by
  simp only [Char.isDigit, Bool.and_eq_true, decide_eq_true_eq, ge_iff_le, UInt32.le_iff_toNat_le]
  rfl

theorem digitValue_of_isDigit (h : c.isDigit) : digitValue c = some (c.toNat - 48) := by
  obtain ⟨hlow, hhigh⟩ := isDigit_iff.1 h
  have hfind : zeros.find? (fun z => z ≤ c.toNat ∧ c.toNat < z + 10) = some 0x30 :=
    List.find?_cons_of_pos (decide_eq_true ⟨hlow, by omega⟩)
  rw [digitValue, hfind]
  rfl

theorem isSpace_of_isDigit (h : c.isDigit) : isSpace c = false := by
  obtain ⟨hlow, hhigh⟩ := isDigit_iff.1 h
  unfold isSpace
  simp only [decide_eq_false_iff_not]
  omega

theorem ne_of_isDigit {d : Char} (h : c.isDigit) (hd : d.isDigit = false) : c ≠ d := by
  rintro rfl
  rw [h] at hd
  cases hd

theorem not_mem_of_isDigit {d : Char} (h : ∀ c ∈ cs, c.isDigit) (hd : d.isDigit = false) : d ∉ cs := fun hmem =>
  ne_of_isDigit (h d hmem) hd rfl

/-- nothing to strip -/
theorem stripOf_eq_self {p : Char → Bool} (h : ∀ c ∈ cs, p c = false) : stripOf p cs = cs := by
  have hleft : cs.dropWhile p = cs := by
    cases cs with
    | nil => rfl
    | cons c cs => rw [List.dropWhile_cons_of_neg (by simp [h c List.mem_cons_self])]
  rw [stripOf, hleft, List.rdropWhile_eq_self_iff]
  intro hne
  simp [h _ (List.getLast_mem hne)]

theorem number_eq_ofDigitChars (h : ∀ c ∈ cs, c.isDigit) : number cs = Nat.ofDigitChars 10 cs 0 := by
  have hfold : ∀ n, cs.foldl (fun n c => 10 * n + (digitValue c).getD 0) n = Nat.ofDigitChars 10 cs n := by
    induction cs with
    | nil => simp
    | cons c cs ih =>
      intro n
      rw [List.foldl_cons, Nat.ofDigitChars_cons, digitValue_of_isDigit (h c List.mem_cons_self)]
      exact ih (fun d hd => h d (List.mem_cons_of_mem c hd)) _
  exact hfold 0

theorem toDigits_isDigit (n : ℕ) : ∀ c ∈ Nat.toDigits 10 n, c.isDigit := fun _ hc =>
  Nat.isDigit_of_mem_toDigits (by norm_num) (by norm_num) hc

/-- `str(n)` reads as n -/
theorem number_toDigits (n : ℕ) : number (Nat.toDigits 10 n) = n := by
  rw [number_eq_ofDigitChars (toDigits_isDigit n), Nat.ofDigitChars_ten_toDigits]

/-- no sign before a digit -/
theorem sign_of_isDigit (h : c.isDigit) (cs : List Char) : sign (c :: cs) = (false, c :: cs) := by
  have hminus := ne_of_isDigit (d := '-') h rfl
  have hplus := ne_of_isDigit (d := '+') h rfl
  unfold sign
  split
  · rename_i heq
    exact absurd (List.head_eq_of_cons_eq heq) hminus
  · rename_i heq
    exact absurd (List.head_eq_of_cons_eq heq) hplus
  · rfl

/-- `int` of a run of digits -/
theorem int_of_digits (hne : cs ≠ []) (hdigits : ∀ c ∈ cs, c.isDigit) (hlength : cs.length ≤ 4300) :
    int cs = some (number cs) := by
  have hspace : ∀ c ∈ cs, isIntSpace c = false := by
    intro c hc
    rw [isIntSpace, isSpace_of_isDigit (hdigits c hc), Bool.false_and]
  have hsign : sign cs = (false, cs) := by
    cases cs with
    | nil => rfl
    | cons c cs => exact sign_of_isDigit (hdigits c List.mem_cons_self) cs
  have hparts : cs.splitOn '_' = [cs] := List.splitOn_eq_singleton fun h => ne_of_isDigit (d := '_') (hdigits _ h) rfl rfl
  have hall : ∀ c ∈ cs, isDigit c = true := by
    intro c hc
    rw [isDigit, digitValue_of_isDigit (hdigits c hc)]
    rfl
  rw [int, stripOf_eq_self hspace, hsign]
  simpa [hparts, hne, hlength] using hall

end Text

/-! ## Leading zeros -/

namespace CivilDate

theorem padded_zero : padded 0 0 = [] := by
  simp [padded, Nat.toDigits_of_lt_base]

theorem padded_succ (width n : ℕ) : padded (width + 1) n = padded width (n / 10) ++ [Nat.digitChar (n % 10)] := by
  have hle : 10 ≤ 10 ^ (width + 1) + n := by
    rw [pow_succ]
    have := Nat.one_le_pow width 10 (by norm_num)
    omega
  have hdiv : (10 ^ (width + 1) + n) / 10 = 10 ^ width + n / 10 := by
    rw [pow_succ]
    omega
  have hmod : (10 ^ (width + 1) + n) % 10 = n % 10 := by
    rw [pow_succ]
    omega
  rw [padded, Nat.toDigits_of_base_le (by norm_num) hle, hdiv, hmod, List.tail_append_of_ne_nil Nat.toDigits_ne_nil]
  rfl

theorem padded_isDigit (width n : ℕ) : ∀ c ∈ padded width n, c.isDigit := fun c hc =>
  toDigits_isDigit _ c (List.mem_of_mem_tail hc)

theorem length_padded {width n : ℕ} (h : n < 10 ^ width) : (padded width n).length = width := by
  induction width generalizing n with
  | zero =>
    obtain rfl : n = 0 := by omega
    rw [padded_zero]
    rfl
  | succ width ih =>
    rw [padded_succ, List.length_append, ih (by rw [pow_succ] at h; omega)]
    rfl

theorem ofDigitChars_padded {width n : ℕ} (h : n < 10 ^ width) : Nat.ofDigitChars 10 (padded width n) 0 = n := by
  induction width generalizing n with
  | zero =>
    obtain rfl : n = 0 := by omega
    rw [padded_zero, Nat.ofDigitChars_nil]
  | succ width ih =>
    rw [padded_succ, Nat.ofDigitChars_append, ih (by rw [pow_succ] at h; omega),
      Nat.ofDigitChars_cons_digitChar_of_lt_ten (Nat.mod_lt n (by norm_num)), Nat.ofDigitChars_nil]
    omega

theorem number_padded {width n : ℕ} (h : n < 10 ^ width) : number (padded width n) = n := by
  rw [number_eq_ofDigitChars (padded_isDigit width n), ofDigitChars_padded h]

/-- **Digits are the padded number they write.** -/
theorem padded_number {cs : List Char} (h : ∀ c ∈ cs, c.isDigit) :
    number cs < 10 ^ cs.length ∧ padded cs.length (number cs) = cs := by
  induction cs using List.reverseRecOn with
  | nil => exact ⟨Nat.zero_lt_one, padded_zero⟩
  | append_singleton cs c ih =>
    obtain ⟨hlt, hpadded⟩ := ih fun d hd => h d (List.mem_append_left _ hd)
    have hc := isDigit_iff.1 (h c (by simp))
    have hchar : Nat.digitChar (c.toNat - 48) = c := by
      apply Char.toNat_inj.1
      rw [Nat.toNat_digitChar_of_lt_ten (by omega)]
      omega
    have hnumber : number (cs ++ [c]) = 10 * number cs + (c.toNat - 48) := by
      rw [number, List.foldl_append, List.foldl_cons, digitValue_of_isDigit (h c (by simp))]
      rfl
    rw [List.length_append, List.length_singleton, hnumber]
    refine ⟨?_, ?_⟩
    · rw [pow_succ]
      omega
    · have hdiv : (10 * number cs + (c.toNat - 48)) / 10 = number cs := by omega
      have hmod : (10 * number cs + (c.toNat - 48)) % 10 = c.toNat - 48 := by omega
      rw [padded_succ, hdiv, hmod, hpadded, hchar]

/-- `digits` reads what `padded` writes -/
theorem digits_padded {width n : ℕ} (h : n < 10 ^ width) (rest : List Char) :
    digits width (padded width n ++ rest) = some (n, rest) := by
  have hlength := length_padded h
  have htake : (padded width n ++ rest).take width = padded width n := List.take_left' hlength
  have hdrop : (padded width n ++ rest).drop width = rest := List.drop_left' hlength
  have hle : width ≤ (padded width n ++ rest).length := by
    rw [List.length_append]
    omega
  have hall : (padded width n).all Char.isDigit = true := List.all_eq_true.2 (padded_isDigit width n)
  rw [digits, htake, hdrop, if_pos ⟨hle, hall⟩]
  exact congrArg (fun v => some (v, rest)) (ofDigitChars_padded h)

end CivilDate

end Vault67
