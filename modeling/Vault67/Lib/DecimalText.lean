/-
`Decimal(text)` of a number written with two decimals and its digits in groups of three.

- `remove_groups`: without its commas a grouped number is its digits;
- `unsigned_point`, `parse_point`: digits, a point and digits read as the number they write;
- `parse_fixed`: `Decimal(f"{x:,.2f}".replace(",", ""))` is x rounded to cents.
-/
import Mathlib.Tactic
import Vault67.Lib.Decimal
import Vault67.Lib.Digits

namespace Vault67

open Rounding Text

/-! ## Groups -/

section
variable {α : Type}

theorem flatten_toChunks_go (n : ℕ) (xs : List α) (acc₁ : Array α) (acc₂ : Array (List α)) :
    (List.toChunks.go n xs acc₁ acc₂).flatten = acc₂.toList.flatten ++ acc₁.toList ++ xs := by
  induction xs generalizing acc₁ acc₂ with
  | nil => simp [List.toChunks.go]
  | cons x xs ih =>
    unfold List.toChunks.go
    split_ifs with hfull
    · rw [ih]
      simp
    · rw [ih]
      simp

/-- the chunks of a list make up the list -/
theorem flatten_toChunks (n : ℕ) (l : List α) : (l.toChunks n).flatten = l := by
  cases l with
  | nil => cases n <;> rfl
  | cons x xs =>
    cases n with
    | zero => simp [List.toChunks]
    | succ n =>
      rw [List.toChunks, flatten_toChunks_go]
      · simp
      · simp

theorem filter_intercalate [DecidableEq α] {x : α} {ls : List (List α)} (h : ∀ l ∈ ls, x ∉ l) :
    ([x].intercalate ls).filter (· ≠ x) = ls.flatten := by
  induction ls with
  | nil => rfl
  | cons l ls ih =>
    have hl : l.filter (· ≠ x) = l := List.filter_eq_self.2 fun y hy => by
      simpa using fun heq : y = x => h l List.mem_cons_self (heq ▸ hy)
    have htail := ih fun m hm => h m (List.mem_cons_of_mem l hm)
    cases ls with
    | nil => simpa using hl
    | cons m ls =>
      rw [List.intercalate_cons_cons, List.filter_append, List.filter_append, hl, htail]
      simp

end

/-- without its commas a grouped number is its digits -/
theorem remove_groups {cs : List Char} (h : ',' ∉ cs) : remove ',' (groups cs) = cs := by
  have hchunks : ∀ l ∈ cs.reverse.toChunks 3, ',' ∉ l := by
    intro l hl hmem
    refine h (List.mem_reverse.1 ?_)
    rw [← flatten_toChunks 3 cs.reverse]
    exact List.mem_flatten_of_mem hl hmem
  rw [remove, groups, List.filter_reverse, filter_intercalate hchunks, flatten_toChunks, List.reverse_reverse]

/-! ## Numerals -/

namespace Numeral

variable {cs whole fraction : List Char}

theorem isAsciiDigit_iff {c : Char} : isAsciiDigit c = true ↔ c.isDigit = true := by
  simp [isAsciiDigit, Char.isDigit, Char.le_def]

/-- ASCII characters other than the underscore are kept -/
theorem ascii_eq_some (h : ∀ c ∈ cs, c ≠ '_' ∧ 0 < c.toNat ∧ c.toNat < 128) : ascii cs = some cs := by
  have hfilter : cs.filter (· ≠ '_') = cs := List.filter_eq_self.2 fun c hc => by simpa using (h c hc).1
  rw [ascii, hfilter]
  induction cs with
  | nil => rfl
  | cons c cs ih =>
    obtain ⟨hc, hcs⟩ := List.forall_mem_cons.1 h
    rw [List.mapM_cons, if_pos hc.2, ih hcs (List.filter_eq_self.2 fun d hd => by simpa using (hcs d hd).1)]
    rfl

/-- digits, a point and digits -/
theorem unsigned_point (negative : Bool) (hne : whole ≠ []) (hwhole : ∀ c ∈ whole, c.isDigit)
    (hfraction : ∀ c ∈ fraction, c.isDigit) :
    unsigned negative (whole ++ '.' :: fraction) =
      some ⟨negative, number (whole ++ fraction), -fraction.length⟩ := by
  have hw : ∀ c ∈ whole, isAsciiDigit c = true := fun c hc => isAsciiDigit_iff.2 (hwhole c hc)
  have hf : ∀ c ∈ fraction, isAsciiDigit c = true := fun c hc => isAsciiDigit_iff.2 (hfraction c hc)
  have hspan : (whole ++ '.' :: fraction).span isAsciiDigit = (whole, '.' :: fraction) := by
    rw [List.span_eq_takeWhile_dropWhile, List.takeWhile_append_of_pos hw, List.dropWhile_append_of_pos hw]
    simp [isAsciiDigit]
  have hrest : fraction.span isAsciiDigit = (fraction, []) := by
    rw [List.span_eq_takeWhile_dropWhile, List.takeWhile_eq_self_iff.2 hf, List.dropWhile_eq_nil_iff.2 hf]
  simp only [unsigned, hspan, hrest]
  rw [if_neg (by simp [hne])]
  simp [exponentPart]

theorem toLower_of_isDigit {c : Char} (h : c.isDigit) : c.toLower = c := by
  have hle := (isDigit_iff.1 h).2
  apply dif_neg
  intro hupper
  have hge := UInt32.le_iff_toNat_le.1 hupper.1
  have hupperA : 'A'.val.toNat = 65 := rfl
  have hval : c.val.toNat = c.toNat := rfl
  omega

/-- a number that begins with a digit is no word -/
theorem unsignedNumeral_of_digit (negative : Bool) {c : Char} (hc : c.isDigit) (cs : List Char) :
    unsignedNumeral negative (c :: cs) =
      (unsigned negative (c :: cs)).bind fun x => if InRange x then some (.finite x) else none := by
  have hi := ne_of_isDigit (d := 'i') hc rfl
  have hn := ne_of_isDigit (d := 'n') hc rfl
  have hs := ne_of_isDigit (d := 's') hc rfl
  unfold unsignedNumeral
  simp [toLower_of_isDigit hc, hi, hn, hs]

/-- **A number with a point.** A sign, digits, a point and two more digits read as the number they write. -/
theorem parse_point (negative : Bool) (hne : whole ≠ []) (hwhole : ∀ c ∈ whole, c.isDigit)
    (hfraction : ∀ c ∈ fraction, c.isDigit) (hlength : fraction.length = 2)
    (hlt : number (whole ++ fraction) < 10 ^ 30) :
    parse ((if negative then ['-'] else []) ++ (whole ++ '.' :: fraction)) =
      some (.finite ⟨negative, number (whole ++ fraction), -2⟩) := by
  obtain ⟨c, cs, rfl⟩ := List.exists_cons_of_ne_nil hne
  have hdigit : c.isDigit := hwhole c List.mem_cons_self
  generalize htext : (if negative then ['-'] else []) ++ ((c :: cs) ++ '.' :: fraction) = text
  have hchars : ∀ d ∈ text, d = '-' ∨ d = '.' ∨ d.isDigit := by
    intro d hd
    rw [← htext] at hd
    rcases List.mem_append.1 hd with hsign | hrest
    · split_ifs at hsign
      · exact .inl (List.mem_singleton.1 hsign)
      · cases hsign
    · rcases List.mem_append.1 hrest with hd | hd
      · exact .inr (.inr (hwhole d hd))
      · rcases List.mem_cons.1 hd with rfl | hd
        · exact .inr (.inl rfl)
        · exact .inr (.inr (hfraction d hd))
  have hstrip : strip text = text := by
    apply stripOf_eq_self
    intro d hd
    rcases hchars d hd with rfl | rfl | hd
    · decide
    · decide
    · exact isSpace_of_isDigit hd
  have hascii : ascii text = some text := by
    apply ascii_eq_some
    intro d hd
    rcases hchars d hd with rfl | rfl | hd
    · decide
    · decide
    · have := isDigit_iff.1 hd
      exact ⟨ne_of_isDigit (d := '_') hd rfl, by omega, by omega⟩
  have hsign : sign text = (negative, c :: (cs ++ '.' :: fraction)) := by
    rw [← htext]
    cases negative
    · exact sign_of_isDigit hdigit _
    · rfl
  have hread : unsigned negative (c :: (cs ++ '.' :: fraction)) = some ⟨negative, number (c :: cs ++ fraction), -2⟩ := by
    rw [← List.cons_append, unsigned_point negative hne hwhole hfraction, hlength]
    rfl
  have hrange : InRange ⟨negative, number (c :: cs ++ fraction), -2⟩ := by
    have hlog : Nat.log 10 (number (c :: cs ++ fraction)) ≤ 30 := by
      rcases Nat.eq_zero_or_pos (number (c :: cs ++ fraction)) with hzero | hpos
      · rw [hzero]
        simp
      · exact (Nat.log_lt_of_lt_pow hpos.ne' hlt).le
    refine ⟨?_, ?_⟩
    · unfold Decimal.adjusted
      dsimp only
      omega
    · norm_num
  rw [parse, hstrip, hascii, Option.bind_some, hsign]
  dsimp only
  rw [unsignedNumeral_of_digit negative hdigit, hread, Option.bind_some, if_pos hrange]

end Numeral

/-! ## Two decimals -/

namespace Decimal

/-- the cents of the number, rounded -/
def cents (x : Decimal) : ℕ := (halfEven (|x.value| * 100)).toNat

/-- the text of a number without its commas -/
def ungrouped (x : Decimal) : List Char :=
  (if x.negative then ['-'] else []) ++
    (Nat.toDigits 10 (x.cents / 100) ++ '.' :: CivilDate.padded 2 (x.cents % 100))

theorem fixed_eq (x : Decimal) : x.fixed = (if x.negative then ['-'] else []) ++
    (groups (Nat.toDigits 10 (x.cents / 100)) ++ '.' :: CivilDate.padded 2 (x.cents % 100)) := by
  rw [fixed, ← List.append_assoc, CivilDate.padded, List.drop_one]
  rfl

theorem remove_fixed (x : Decimal) : remove ',' x.fixed = x.ungrouped := by
  have hsign : remove ',' (if x.negative then ['-'] else []) = if x.negative then ['-'] else [] := by
    cases x.negative <;> rfl
  have hfraction : remove ',' ('.' :: CivilDate.padded 2 (x.cents % 100)) = '.' :: CivilDate.padded 2 (x.cents % 100) :=
    remove_eq_self fun h => not_mem_of_isDigit (CivilDate.padded_isDigit _ _) rfl ((List.mem_cons.1 h).resolve_left (by decide))
  have hgroups := remove_groups (not_mem_of_isDigit (toDigits_isDigit (x.cents / 100)) rfl)
  rw [fixed_eq, remove, List.filter_append, List.filter_append]
  change remove ',' _ ++ (remove ',' _ ++ remove ',' _) = _
  rw [hsign, hgroups, hfraction]
  rfl

/-- the characters of the text -/
theorem mem_ungrouped {x : Decimal} {c : Char} (h : c ∈ x.ungrouped) : c = '-' ∨ c = '.' ∨ c.isDigit := by
  rcases List.mem_append.1 h with hsign | hrest
  · split_ifs at hsign
    · exact .inl (List.mem_singleton.1 hsign)
    · cases hsign
  · rcases List.mem_append.1 hrest with hwhole | hfraction
    · exact .inr (.inr (toDigits_isDigit _ c hwhole))
    · rcases List.mem_cons.1 hfraction with rfl | hdigit
      · exact .inr (.inl rfl)
      · exact .inr (.inr (CivilDate.padded_isDigit _ _ c hdigit))

/-- the number the digits write -/
theorem number_cents (n : ℕ) : number (Nat.toDigits 10 (n / 100) ++ CivilDate.padded 2 (n % 100)) = n := by
  have hlt : n % 100 < 10 ^ 2 := Nat.mod_lt n (by norm_num)
  have hdigits : ∀ c ∈ Nat.toDigits 10 (n / 100) ++ CivilDate.padded 2 (n % 100), c.isDigit := by
    intro c hc
    rcases List.mem_append.1 hc with hc | hc
    · exact toDigits_isDigit _ c hc
    · exact CivilDate.padded_isDigit _ _ c hc
  rw [number_eq_ofDigitChars hdigits, Nat.ofDigitChars_append, Nat.ofDigitChars_ten_toDigits,
    Nat.ofDigitChars_eq_ofDigitChars_zero, CivilDate.length_padded hlt, CivilDate.ofDigitChars_padded hlt]
  omega

/-- **A formatted number reads as its cents.** -/
theorem parse_fixed {x : Decimal} (h : x.cents < 10 ^ 30) :
    Numeral.parse (remove ',' x.fixed) = some (.finite ⟨x.negative, x.cents, -2⟩) := by
  rw [remove_fixed, ungrouped]
  have hlt : x.cents % 100 < 10 ^ 2 := Nat.mod_lt _ (by norm_num)
  have hread := Numeral.parse_point x.negative Nat.toDigits_ne_nil (toDigits_isDigit (x.cents / 100))
    (CivilDate.padded_isDigit 2 (x.cents % 100)) (CivilDate.length_padded hlt) (by rwa [number_cents])
  rwa [number_cents] at hread

end Decimal

end Vault67
