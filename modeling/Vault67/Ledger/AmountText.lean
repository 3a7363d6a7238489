/-
Amounts in both decimal notations.

`Rendering notation a`: a text of the amount a with two decimals, its digits grouped in any way the notation allows, or not
at all, and spaces around it.

- `strip_surrounded`: the spaces around a text go.
- `rfind_lt`: the decimal mark is the last of the two marks.
- `normaliseAmount_text`: what is left is the digits and a point.
- `parseAmount_exact`: so the amount that is read is the one that was written, and whatever is read is stored as it is.
-/
import Mathlib.Tactic
import Vault67.Ledger.PdfReads
import Vault67.Lib.DecimalText

namespace Vault67.Ledger

open Fallible Text

/-! ## Notations -/

/-- the decimal mark, and the characters that may group the digits before it -/
structure NumberStyle where
  mark : Char
  separators : List Char
deriving DecidableEq, Repr

/-- the non-breaking space -/
def nbsp : Char := Char.ofNat 0xA0

/-- 1,234.56 -/
def pointStyle : NumberStyle := ⟨'.', [',']⟩

/-- 1.234,56 -/
def commaStyle : NumberStyle := ⟨',', ['.', ' ', nbsp]⟩

/-- a sign, digits, a mark and more digits -/
def signed (negative : Bool) (whole : List Char) (mark : Char) (fraction : List Char) : List Char :=
  (if negative then ['-'] else []) ++ (whole ++ mark :: fraction)

/-- a text of the amount -/
structure Rendering (style : NumberStyle) (a : ℚ) where
  before : List Char
  whole : List Char
  fraction : List Char
  after : List Char
  before_spaces : ∀ c ∈ before, isSpace c = true
  after_spaces : ∀ c ∈ after, isSpace c = true
  whole_start : ∀ c ∈ whole.head?, isSpace c = false
  whole_chars : ∀ c ∈ whole, c.isDigit ∨ c ∈ style.separators
  whole_digits : whole.filter Char.isDigit ≠ []
  fraction_digits : ∀ c ∈ fraction, c.isDigit
  fraction_length : fraction.length = 2
  value : |a| * 100 = number (whole.filter Char.isDigit ++ fraction)

namespace Rendering

variable {style : NumberStyle} {a : ℚ} (r : Rendering style a)

def text : List Char := r.before ++ (signed (a < 0) r.whole style.mark r.fraction ++ r.after)

end Rendering

/-! ## Texts -/

theorem strip_surrounded {before core after : List Char} (hbefore : ∀ c ∈ before, isSpace c = true)
    (hafter : ∀ c ∈ after, isSpace c = true) (hhead : ∀ c ∈ core.head?, isSpace c = false)
    (hlast : ∀ c ∈ core.getLast?, isSpace c = false) (hne : core ≠ []) : strip (before ++ (core ++ after)) = core := by
  obtain ⟨c, cs, rfl⟩ := List.exists_cons_of_ne_nil hne
  have hleft : (before ++ (c :: cs ++ after)).dropWhile isSpace = c :: cs ++ after := by
    rw [List.dropWhile_append_of_pos hbefore, List.cons_append, List.dropWhile_cons_of_neg]
    simp [hhead c rfl]
  have hright : (c :: cs ++ after).reverse.dropWhile isSpace = (c :: cs).reverse := by
    have hreverse : ∀ d ∈ after.reverse, isSpace d = true := fun d hd => hafter d (List.mem_reverse.1 hd)
    rw [List.reverse_append, List.dropWhile_append_of_pos hreverse]
    obtain ⟨d, ds, hd⟩ := List.exists_cons_of_ne_nil (List.reverse_ne_nil_iff.2 (List.cons_ne_nil c cs))
    rw [hd, List.dropWhile_cons_of_neg]
    have hmem : d ∈ (c :: cs).getLast? := by
      rw [← List.head?_reverse, hd]
      rfl
    simp [hlast d hmem]
  rw [strip, stripOf, hleft, List.rdropWhile, hright, List.reverse_reverse]

/-- before the last of two marks -/
theorem rfind_lt {mark other : Char} {start fraction : List Char} (hne : other ≠ mark) (hmark : mark ∉ fraction)
    (hother : other ∉ fraction) : rfind other (start ++ mark :: fraction) < rfind mark (start ++ mark :: fraction) := by
  have hmark' : mark ∉ fraction.reverse := fun h => hmark (List.mem_reverse.1 h)
  have hother' : other ∉ fraction.reverse := fun h => hother (List.mem_reverse.1 h)
  rw [rfind, rfind, List.reverse_append, List.reverse_cons, List.append_assoc, List.singleton_append,
    List.idxOf_append_of_notMem hmark', List.idxOf_append_of_notMem hother', List.idxOf_cons_self,
    List.idxOf_cons_ne _ hne.symm]
  omega

theorem mem_signed {negative : Bool} {whole fraction : List Char} {mark c : Char} :
    c ∈ signed negative whole mark fraction ↔ negative = true ∧ c = '-' ∨ c ∈ whole ∨ c = mark ∨ c ∈ fraction := by
  unfold signed
  split_ifs with h <;> simp [h]

/-- a separator goes from the whole number alone -/
theorem remove_signed {negative : Bool} {whole fraction : List Char} {mark c : Char} (hminus : c ≠ '-') (hmark : c ≠ mark)
    (hfraction : c ∉ fraction) : remove c (signed negative whole mark fraction) = signed negative (remove c whole) mark fraction := by
  have hsign : remove c (if negative then ['-'] else []) = if negative then ['-'] else [] := by
    apply remove_eq_self
    split_ifs
    · simpa using hminus
    · exact List.not_mem_nil
  have hrest : remove c (mark :: fraction) = mark :: fraction := remove_eq_self (by simp [hmark, hfraction])
  unfold signed
  rw [remove, List.filter_append, List.filter_append]
  change remove c _ ++ (remove c _ ++ remove c _) = _
  rw [hsign, hrest]

theorem replace_signed {negative : Bool} {whole fraction : List Char} {mark mark' : Char} (hminus : mark ≠ '-')
    (hwhole : mark ∉ whole) (hfraction : mark ∉ fraction) :
    replace mark mark' (signed negative whole mark fraction) = signed negative whole mark' fraction := by
  have hkeep : ∀ {cs : List Char}, mark ∉ cs → cs.map (fun x => if x = mark then mark' else x) = cs := by
    intro cs hcs
    calc cs.map (fun x => if x = mark then mark' else x) = cs.map id :=
          List.map_congr_left fun c hc => if_neg (ne_of_mem_of_not_mem hc hcs)
      _ = cs := List.map_id cs
  have hsign : mark ∉ (if negative then ['-'] else []) := by
    split_ifs
    · simpa using hminus
    · exact List.not_mem_nil
  unfold signed replace
  rw [List.map_append, List.map_append, List.map_cons, hkeep hsign, hkeep hwhole, hkeep hfraction, if_pos rfl]

theorem filter_digits_of_mem {whole : List Char} {separator : Char} (hseparator : separator.isDigit = false)
    (hwhole : ∀ c ∈ whole, c.isDigit ∨ c = separator) : remove separator whole = whole.filter Char.isDigit := by
  apply List.filter_congr
  intro c hc
  rcases hwhole c hc with hdigit | rfl
  · simpa [hdigit] using ne_of_isDigit hdigit hseparator
  · simp [hseparator]

section
variable {text whole fraction : List Char} {negative : Bool}

/-- a number with a point keeps it -/
theorem normaliseAmount_point (htext : remove ' ' (remove nbsp (strip text)) = signed negative whole '.' fraction)
    (hwhole : ∀ c ∈ whole, c.isDigit ∨ c = ',') (hfraction : ∀ c ∈ fraction, c.isDigit) :
    normaliseAmount text = signed negative (whole.filter Char.isDigit) '.' fraction := by
  have hcomma : ',' ∉ fraction := not_mem_of_isDigit hfraction rfl
  have hpoint : '.' ∉ fraction := not_mem_of_isDigit hfraction rfl
  have hremove : remove ',' (signed negative whole '.' fraction) = signed negative (whole.filter Char.isDigit) '.' fraction := by
    rw [remove_signed (by decide) (by decide) hcomma, filter_digits_of_mem rfl hwhole]
  have hmem : '.' ∈ signed negative whole '.' fraction := mem_signed.2 (by simp)
  have hlast : rfind ',' (signed negative whole '.' fraction) < rfind '.' (signed negative whole '.' fraction) := by
    unfold signed
    rw [← List.append_assoc]
    exact rfind_lt (by decide) hpoint hcomma
  unfold nbsp at htext
  unfold normaliseAmount
  dsimp only
  rw [htext]
  by_cases hgrouped : ',' ∈ signed negative whole '.' fraction
  · rw [if_pos ⟨hgrouped, hmem⟩, if_neg (not_lt.2 hlast.le), hremove]
  · rw [if_neg fun h => hgrouped h.1, if_neg hgrouped, ← hremove, remove_eq_self hgrouped]

/-- a decimal comma becomes a point -/
theorem normaliseAmount_comma (htext : remove ' ' (remove nbsp (strip text)) = signed negative whole ',' fraction)
    (hwhole : ∀ c ∈ whole, c.isDigit ∨ c = '.') (hfraction : ∀ c ∈ fraction, c.isDigit) :
    normaliseAmount text = signed negative (whole.filter Char.isDigit) '.' fraction := by
  have hcomma : ',' ∉ fraction := not_mem_of_isDigit hfraction rfl
  have hpoint : '.' ∉ fraction := not_mem_of_isDigit hfraction rfl
  have hdigits : ∀ c ∈ whole.filter Char.isDigit, c.isDigit := fun c hc => (List.mem_filter.1 hc).2
  have hremove : remove '.' (signed negative whole ',' fraction) = signed negative (whole.filter Char.isDigit) ',' fraction := by
    rw [remove_signed (by decide) (by decide) hpoint, filter_digits_of_mem rfl hwhole]
  have hreplace : replace ',' '.' (signed negative (whole.filter Char.isDigit) ',' fraction) =
      signed negative (whole.filter Char.isDigit) '.' fraction :=
    replace_signed (by decide) (not_mem_of_isDigit hdigits rfl) hcomma
  have hmem : ',' ∈ signed negative whole ',' fraction := mem_signed.2 (by simp)
  have hlast : rfind '.' (signed negative whole ',' fraction) < rfind ',' (signed negative whole ',' fraction) := by
    unfold signed
    rw [← List.append_assoc]
    exact rfind_lt (by decide) hcomma hpoint
  unfold nbsp at htext
  unfold normaliseAmount
  dsimp only
  rw [htext]
  by_cases hgrouped : '.' ∈ signed negative whole ',' fraction
  · rw [if_pos ⟨hmem, hgrouped⟩, if_pos hlast, hremove, hreplace]
  · rw [if_neg fun h => hgrouped h.2, if_pos hmem, ← hreplace, ← hremove, remove_eq_self hgrouped]

end

/-! ## Renderings -/

namespace Rendering

variable {style : NumberStyle} {a : ℚ} (r : Rendering style a)

theorem strip_text : strip r.text = signed (a < 0) r.whole style.mark r.fraction := by
  have hwhole : r.whole ≠ [] := by
    intro h
    exact r.whole_digits (by rw [h]; rfl)
  obtain ⟨c, cs, hc⟩ := List.exists_cons_of_ne_nil hwhole
  obtain ⟨d, e, hfraction⟩ := List.length_eq_two.1 r.fraction_length
  apply strip_surrounded r.before_spaces r.after_spaces
  · have hstart := r.whole_start c (by rw [hc]; rfl)
    unfold signed
    split_ifs
    · simp
      decide
    · simpa [hc] using hstart
  · have he : isSpace e = false := isSpace_of_isDigit (r.fraction_digits e (by simp [hfraction]))
    simpa [signed, hfraction] using he
  · simp [signed]

/-- what is left of the text without any spaces -/
theorem stripped (hmark : ' ' ≠ style.mark ∧ nbsp ≠ style.mark) : remove ' ' (remove nbsp (strip r.text)) =
    signed (a < 0) (remove ' ' (remove nbsp r.whole)) style.mark r.fraction := by
  rw [strip_text, remove_signed (by decide) hmark.2 (not_mem_of_isDigit r.fraction_digits rfl),
    remove_signed (by decide) hmark.1 (not_mem_of_isDigit r.fraction_digits rfl)]

/-- **Both notations.** What is left of a rendering, of its groups and its separators, is its sign, its digits and a
point. -/
theorem normaliseAmount_text (hstyle : style = pointStyle ∨ style = commaStyle) :
    normaliseAmount r.text = signed (a < 0) (r.whole.filter Char.isDigit) '.' r.fraction := by
  have hfilter : (remove ' ' (remove nbsp r.whole)).filter Char.isDigit = r.whole.filter Char.isDigit := by
    rw [remove, remove, List.filter_filter, List.filter_filter]
    apply List.filter_congr
    intro c _
    by_cases hdigit : c.isDigit
    · simp [hdigit, ne_of_isDigit (d := ' ') hdigit rfl, ne_of_isDigit (d := nbsp) hdigit rfl]
    · simp [hdigit]
  rw [← hfilter]
  have hchars : ∀ c ∈ remove ' ' (remove nbsp r.whole), c.isDigit ∨ c ∈ style.separators ∧ c ≠ ' ' ∧ c ≠ nbsp := by
    intro c hc
    obtain ⟨hc, hspace⟩ := List.mem_filter.1 hc
    obtain ⟨hc, hnbsp⟩ := List.mem_filter.1 hc
    exact (r.whole_chars c hc).imp_right fun h => ⟨h, by simpa using hspace, by simpa using hnbsp⟩
  rcases hstyle with rfl | rfl
  · refine normaliseAmount_point (r.stripped (by decide)) ?_ r.fraction_digits
    intro c hc
    exact (hchars c hc).imp_right fun h => List.mem_singleton.1 h.1
  · refine normaliseAmount_comma (r.stripped (by decide)) ?_ r.fraction_digits
    intro c hc
    refine (hchars c hc).imp_right fun h => ?_
    simpa [commaStyle, h.2] using h.1

end Rendering

/-! ## Amounts -/

/-- a text that is a number of cents reads as it -/
theorem parseAmount_cents {value : List Char} {negative : Bool} {n : ℕ}
    (hread : Numeral.parse (normaliseAmount value) = some (.finite ⟨negative, n, -2⟩)) (hne : n ≠ 0) (hlt : n < 10 ^ 18)
    (rowNumber : String) : parseAmount value rowNumber = .ok ⟨negative, n, -2⟩ := by
  have hsmall : |(⟨negative, n, -2⟩ : Decimal).value| < 10 ^ 16 := by
    have hcast : (n : ℚ) < 10 ^ 18 := by exact_mod_cast hlt
    rw [Decimal.abs_value_eq]
    norm_num
    linarith
  have hlong : tooLong ⟨negative, n, -2⟩ = .ok false := tooLong_eq_false_iff.2 ⟨by norm_num, hsmall⟩
  unfold parseAmount
  rw [hread]
  dsimp only
  rw [if_neg hne, hlong]
  rfl

/-- the value of a number of cents -/
theorem value_of_cents {a : ℚ} {n : ℕ} (h : |a| * 100 = n) : (⟨a < 0, n, -2⟩ : Decimal).value = a := by
  have hvalue : (if a < 0 then -1 else 1) * (n : ℚ) = a * 100 := by
    rw [← h]
    split_ifs with hneg
    · rw [abs_of_neg hneg]
      ring
    · rw [abs_of_nonneg (not_lt.1 hneg), one_mul]
  simp only [Decimal.value, decide_eq_true_eq]
  rw [hvalue]
  norm_num
  ring

theorem Rendering.parseAmount {style : NumberStyle} {a : ℚ} (r : Rendering style a)
    (hstyle : style = pointStyle ∨ style = commaStyle) (hne : a ≠ 0) (hlt : |a| < 10 ^ 16) (rowNumber : String) :
    ∃ x, Ledger.parseAmount r.text rowNumber = .ok x ∧ x.value = a := by
  have hvalue := r.value
  have hdigits : ∀ c ∈ r.whole.filter Char.isDigit, c.isDigit := fun c hc => (List.mem_filter.1 hc).2
  have hcents : number (r.whole.filter Char.isDigit ++ r.fraction) < 10 ^ 18 := by
    have hcast : (number (r.whole.filter Char.isDigit ++ r.fraction) : ℚ) < 10 ^ 18 := by
      rw [← hvalue]
      linarith
    exact_mod_cast hcast
  have hpos : number (r.whole.filter Char.isDigit ++ r.fraction) ≠ 0 := by
    intro hzero
    rw [hzero, Nat.cast_zero] at hvalue
    simp [hne] at hvalue
  have hread := Numeral.parse_point (decide (a < 0)) r.whole_digits hdigits r.fraction_digits r.fraction_length
    (hcents.trans (by norm_num))
  refine ⟨_, parseAmount_cents ?_ hpos hcents rowNumber, value_of_cents hvalue⟩
  rw [r.normaliseAmount_text hstyle]
  exact hread

/-- **Both notations are read correctly.** Every rendering of an amount, with a decimal point or with a decimal comma, is
read as the amount, and every amount that reads is stored without rounding. -/
theorem parseAmount_exact :
    (∀ style, style = pointStyle ∨ style = commaStyle → ∀ a : ℚ, a ≠ 0 → |a| < 10 ^ 16 → ∀ (r : Rendering style a)
      (rowNumber : String), ∃ x, parseAmount r.text rowNumber = .ok x ∧ x.value = a) ∧
    ∀ (value : List Char) (rowNumber : String) (x : Decimal), parseAmount value rowNumber = .ok x →
      x.value ≠ 0 ∧ |x.value| < 10 ^ 16 ∧ HasPlaces 4 x.value ∧ storeMoney x.value = .ok x.value := by
  refine ⟨?_, ?_⟩
  · intro style hstyle a hne hlt r rowNumber
    exact r.parseAmount hstyle hne hlt rowNumber
  · intro value rowNumber x h
    obtain ⟨hne, hplaces, hlt⟩ := parseAmount_ok h
    exact ⟨hne, hlt, hplaces, storeMoney_eq_ok hplaces hlt⟩

/-- a debit of 1234.56 -/
def groupedDebit : Rendering commaStyle (-(123456 / 100)) where
  before := [' ']
  whole := "1.234".toList
  fraction := "56".toList
  after := ['\n']
  before_spaces := List.all_eq_true.1 (by decide)
  after_spaces := List.all_eq_true.1 (by decide)
  whole_start := by
    intro c hc
    obtain rfl : '1' = c := Option.some_inj.1 hc
    decide
  whole_chars := by
    have hall : "1.234".toList.all (fun c => c.isDigit || decide (c ∈ commaStyle.separators)) = true := by decide
    intro c hc
    simpa using List.all_eq_true.1 hall c hc
  whole_digits := by decide
  fraction_digits := List.all_eq_true.1 (by decide)
  fraction_length := by decide
  value := by
    have hnumber : number ("1.234".toList.filter Char.isDigit ++ "56".toList) = 123456 := by decide +kernel
    rw [hnumber]
    norm_num

theorem parseAmount_exact_groupedDebit :
    groupedDebit.text = " -1.234,56\n".toList ∧
      (∃ x, parseAmount groupedDebit.text "2" = .ok x ∧ x.value = -(123456 / 100)) ∧
      ∀ x, parseAmount groupedDebit.text "2" = .ok x → storeMoney x.value = .ok x.value := by
  refine ⟨?_, ?_, ?_⟩
  · have hneg : decide (-(123456 / 100) < (0 : ℚ)) = true := by
      rw [decide_eq_true_eq]
      norm_num
    rw [Rendering.text, hneg]
    decide +kernel
  · exact parseAmount_exact.1 commaStyle (.inr rfl) _ (by norm_num) (by norm_num [abs_lt]) groupedDebit "2"
  · intro x hx
    exact (parseAmount_exact.2 _ _ x hx).2.2.2

end Vault67.Ledger
