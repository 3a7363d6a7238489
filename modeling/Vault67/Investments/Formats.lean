/-
The number formats of a posting: which submissions of `InvestmentTransactionForm`, cleaned and passed on to
`create_investment_transaction`, end in a ValidationError or in a posted amount that fits a (20, 4) column, and which end
in another exception.

- `Valid.checked`: what the form's checks say of its posting;
- `posting_inFormat_iff`: a submission is refused or posted in format exactly when `FitsFormats` holds of its fields.
-/
import Mathlib.Tactic
import Vault67.Investments.Amounts
import Vault67.Investments.ShortSelling

namespace Vault67.Investments

open Fallible

/-! ## The holding of a sale -/

/-- a replay is refused for an oversell, or it meets a trade without a quantity or a rate -/
theorem replayItem_error {db : Db} {symbol : String} {s : Replay} {i : InvestmentTransaction} {e : Error}
    (h : replayItem db symbol s i = .error e) : e = .typeError ∨ ∃ m, e = .message m := by
  have hnone : ∀ {x : Option ℚ} {e : Error}, notNone x = .error e → e = .typeError := by
    intro x e hx
    cases x with
    | none =>
      cases hx
      rfl
    | some x => cases hx
  unfold replayItem at h
  split at h
  · rcases bind_eq_error.1 h with hq | ⟨q, -, h⟩
    · exact .inl (hnone hq)
    · rcases bind_eq_error.1 h with hr | ⟨r, -, h⟩
      · exact .inl (hnone hr)
      · cases h
  · rcases bind_eq_error.1 h with hq | ⟨q, hq, h⟩
    · exact .inl (hnone hq)
    · have hpos : 0 < q := i.constraints.quantity_pos q (notNone_eq_ok.1 hq)
      split_ifs at h with hlt hzero
      · cases h
        exact .inr ⟨_, rfl⟩
      · -- an empty position is oversold
        rw [hzero] at hlt
        exact absurd hpos hlt
      · rcases bind_eq_error.1 h with hr | ⟨r, -, h⟩
        · exact .inl (hnone hr)
        · cases h
  · cases h

theorem calculateHolding_error {db : Db} {account security : ℕ} {asOfDate : Option Date} {e : Error}
    (h : calculateHolding db account security asOfDate = .error e) : e = .typeError ∨ ∃ m, e = .message m := by
  rcases bind_eq_error.1 h with hreplay | ⟨s, -, h⟩
  · obtain ⟨i, -, s, hi⟩ := foldlM_error hreplay
    exact replayItem_error hi
  · cases h

/-! ## The form -/

namespace InvestmentTransactionForm

variable {db : Db} {f : InvestmentTransactionForm}

/-- what the field checks say -/
structure ValidFields (db : Db) (f : InvestmentTransactionForm) : Prop where
  account : ∃ a, f.fields.account = some a ∧ f.accountChoice db a
  security : ∃ s, f.fields.security = some s ∧ (db.security s).active
  trade_date : ∃ d, f.fields.tradeDate = some d
  quantity : ∀ q ∈ f.fields.quantity, ¬badQuantity q
  price : ∀ p ∈ f.fields.pricePerUnit, ¬badPrice p
  gross_given : ¬f.Trades → f.fields.grossAmount ≠ none
  gross : ∀ x ∈ f.fields.grossAmount, ¬badMoney x
  fees : ∃ x, f.fields.fees = some x ∧ ¬badMoney x
  taxes : ∃ x, f.fields.taxes = some x ∧ ¬badMoney x
  currency : ∃ k, f.fields.currency = some k
  rate : ∀ r ∈ f.fields.exchangeRate, ¬badRate r
  reference : f.fields.reference.length ≤ 100

theorem validFields_of_fieldErrors (h : f.fieldErrors db = []) : ValidFields db f := by
  have hchecks := raised_eq_nil.1 h
  simp only [List.forall_mem_cons, decide_eq_false_iff_not] at hchecks
  obtain ⟨haccount, hchoice, hsecurity, hactive, hdate, hquantity, hprice, hgiven, hgross, hfees, hfeesOk, htaxes,
    htaxesOk, hcurrency, hrate, hreference, -⟩ := hchecks
  push Not at hchoice hactive hquantity hprice hgiven hgross hfeesOk htaxesOk hrate
  obtain ⟨a, ha⟩ := Option.ne_none_iff_exists'.1 haccount
  obtain ⟨s, hs⟩ := Option.ne_none_iff_exists'.1 hsecurity
  obtain ⟨fees, hf⟩ := Option.ne_none_iff_exists'.1 hfees
  obtain ⟨taxes, ht⟩ := Option.ne_none_iff_exists'.1 htaxes
  constructor
  case account => exact ⟨a, ha, hchoice a ha⟩
  case security => exact ⟨s, hs, hactive s hs⟩
  case trade_date => exact Option.ne_none_iff_exists'.1 hdate
  case quantity => exact hquantity
  case price => exact hprice
  case gross_given => exact hgiven
  case gross => exact hgross
  case fees => exact ⟨fees, hf, hfeesOk fees hf⟩
  case taxes => exact ⟨taxes, ht, htaxesOk taxes ht⟩
  case currency => exact Option.ne_none_iff_exists'.1 hcurrency
  case rate => exact hrate
  case reference => exact not_lt.1 hreference

theorem filter_valid {α : Type} {o : Option α} {valid : α → Prop} [DecidablePred valid] (h : ∀ a ∈ o, valid a) :
    o.filter (fun a => valid a) = o := by
  cases o with
  | none => rfl
  | some a => simp [h a rfl]

/-- the field checks drop nothing -/
theorem ValidFields.cleanedFields (h : ValidFields db f) : f.cleanedFields db = f.fields := by
  obtain ⟨a, ha, hchoice⟩ := h.account
  obtain ⟨s, hs, hactive⟩ := h.security
  obtain ⟨fees, hfees, hfeesOk⟩ := h.fees
  obtain ⟨taxes, htaxes, htaxesOk⟩ := h.taxes
  have haccount : f.fields.account.filter (fun i => f.accountChoice db i) = f.fields.account := by simp [ha, hchoice]
  have hsecurity : f.fields.security.filter (fun s => (db.security s).active) = f.fields.security := by simp [hs, hactive]
  have hfeesKept : f.fields.fees.filter (fun x => ¬badMoney x) = f.fields.fees := by simp [hfees, hfeesOk]
  have htaxesKept : f.fields.taxes.filter (fun x => ¬badMoney x) = f.fields.taxes := by simp [htaxes, htaxesOk]
  unfold InvestmentTransactionForm.cleanedFields
  rw [filter_valid h.quantity, filter_valid h.price, filter_valid h.gross, filter_valid h.rate, haccount, hsecurity,
    hfeesKept, htaxesKept]

/-- the form has no error -/
def Valid (db : Db) (f : InvestmentTransactionForm) : Prop :=
  f.fieldErrors db = [] ∧ f.cleanErrors db = [] ∧ f.holdingErrors db = .ok []

/-- the gross amount of the submission -/
def gross (f : InvestmentTransactionForm) : ℚ :=
  match f.fields.quantity, f.fields.pricePerUnit with
  | some q, some p => rounded q p
  | _, _ => f.fields.grossAmount.getD 0

/-- the submission as the arguments of a posting -/
def posting (f : InvestmentTransactionForm) : InvestmentPosting where
  owner := f.user
  account := f.fields.account.getD 0
  security := f.fields.security.getD 0
  transactionType := f.operation.transactionType
  tradeDate := f.fields.tradeDate.getD 0
  grossAmount := f.gross
  currency := f.fields.currency.getD 0
  quantity := f.fields.quantity
  pricePerUnit := f.fields.pricePerUnit
  fees := f.fields.fees.getD 0
  taxes := f.fields.taxes.getD 0
  settlementDate := f.fields.settlementDate
  exchangeRate := f.fields.exchangeRate
  reference := f.fields.reference
  notes := f.fields.notes

/-- the amounts of a submission stay inside the number formats -/
structure FitsFormats (db : Db) (f : InvestmentTransactionForm) : Prop where
  product : ∀ q ∈ (f.cleanedFields db).quantity, ∀ p ∈ (f.cleanedFields db).pricePerUnit, q * p < quantizeBound
  holding : f.operation = .sell → ∀ a ∈ (f.cleanedFields db).account, ∀ s ∈ (f.cleanedFields db).security,
    (f.cleanedFields db).quantity ≠ none → calculateHolding db a s (f.cleanedFields db).tradeDate ≠ .error .typeError
  given : f.Valid db → f.Trades → f.fields.quantity ≠ none ∧ f.fields.pricePerUnit ≠ none
  cash : f.Valid db → ¬Late f.posting → |f.posting.net * f.posting.rate db| < storeBound

theorem nonneg_of_not_bad {minValue x : ℚ} {digits places : ℕ} (hmin : 0 ≤ minValue)
    (h : ¬badNumber minValue digits places x) : 0 ≤ x ∧ minValue ≤ x ∧ FitsDecimal digits places x := by
  obtain ⟨hle, hfits⟩ := not_or.1 h
  exact ⟨hmin.trans (not_lt.1 hle), not_lt.1 hle, not_not.1 hfits⟩

/-- a product of valid fields -/
theorem product_nonneg {q p : ℚ} (hq : q ∈ (f.cleanedFields db).quantity) (hp : p ∈ (f.cleanedFields db).pricePerUnit) :
    0 ≤ q * p := by
  have hquantity : ¬badQuantity q := by simpa using (Option.filter_eq_some_iff.1 hq).2
  have hprice : ¬badPrice p := by simpa using (Option.filter_eq_some_iff.1 hp).2
  exact mul_nonneg (nonneg_of_not_bad (by norm_num) hquantity).1 (nonneg_of_not_bad le_rfl hprice).1

theorem cleanedFields_quantity_of_not_trades (h : ¬f.Trades) : (f.cleanedFields db).quantity = none := by
  simp [InvestmentTransactionForm.cleanedFields, fields, h]

theorem raises_cleanGross : Raises Escapes (f.cleanGross db) ↔
    ∃ q ∈ (f.cleanedFields db).quantity, ∃ p ∈ (f.cleanedFields db).pricePerUnit, quantizeBound ≤ q * p := by
  have hnonneg := @product_nonneg db f
  have hnone := @cleanedFields_quantity_of_not_trades db f
  unfold cleanGross
  dsimp only
  generalize f.cleanedFields db = c at hnonneg hnone ⊢
  by_cases htrades : f.Trades
  · rw [if_pos htrades]
    cases hq : c.quantity with
    | none => simp
    | some q =>
      cases hp : c.pricePerUnit with
      | none => simp
      | some p =>
        have habs : |q * p| = q * p := abs_of_nonneg (hnonneg hq hp)
        simp only [raises_bind, not_raises_ok, and_false, exists_false, or_false, quantize_product, habs]
        split_ifs with hlt
        · simpa using hlt
        · simpa using not_lt.1 hlt
  · rw [if_neg htrades, hnone htrades]
    simp

theorem raises_holdingErrors : Raises Escapes (f.holdingErrors db) ↔
    f.operation = .sell ∧ ∃ a ∈ (f.cleanedFields db).account, ∃ s ∈ (f.cleanedFields db).security,
      (f.cleanedFields db).quantity ≠ none ∧ calculateHolding db a s (f.cleanedFields db).tradeDate = .error .typeError := by
  unfold holdingErrors
  dsimp only
  generalize f.cleanedFields db = c
  by_cases hsell : f.operation = .sell
  · rw [if_pos hsell]
    cases ha : c.account with
    | none => simp
    | some a =>
      cases hs : c.security with
      | none => simp
      | some s =>
        cases hq : c.quantity with
        | none => simp
        | some q =>
          cases hh : calculateHolding db a s c.tradeDate with
          | ok holding => simp [hsell, hh]
          | error e =>
            rcases calculateHolding_error hh with rfl | ⟨m, rfl⟩
            · simp [hsell, hh]
            · simp [hsell, hh, Error.message]
  · simp [hsell]

theorem cleanGross_returns (h : ¬Raises Escapes (f.cleanGross db)) : ∃ gross, f.cleanGross db = .ok gross := by
  cases hgross : f.cleanGross db with
  | ok gross => exact ⟨gross, rfl⟩
  | error e =>
    have hdecimal : e = .decimal := by
      unfold cleanGross at hgross
      dsimp only at hgross
      split_ifs at hgross
      split at hgross
      · rw [quantize_product] at hgross
        split_ifs at hgross
        · cases hgross
        · exact (Except.error.inj hgross).symm
      · cases hgross
    rw [hgross, hdecimal] at h
    simp at h

theorem holdingErrors_returns (h : ¬Raises Escapes (f.holdingErrors db)) : ∃ es, f.holdingErrors db = .ok es := by
  cases hholding : f.holdingErrors db with
  | ok es => exact ⟨es, rfl⟩
  | error e =>
    obtain ⟨es, rfl⟩ : ∃ es, e = .validation es := by
      rw [hholding, raises_error] at h
      exact not_forall_not.1 h
    unfold holdingErrors at hholding
    dsimp only at hholding
    split_ifs at hholding
    split at hholding
    · split at hholding
      · cases hholding
      · cases hholding
      · cases hholding
        rename_i hnot _
        exact absurd rfl (hnot es)
    · cases hholding

/-- the quantity and the price of a valid trade -/
theorem ValidFields.trade (h : ValidFields db f) (hgiven : f.fields.quantity ≠ none ∧ f.fields.pricePerUnit ≠ none) :
    ∃ q p, f.fields.quantity = some q ∧ f.fields.pricePerUnit = some p ∧ 0 < q ∧ 0 ≤ q * p := by
  obtain ⟨q, hq⟩ := Option.ne_none_iff_exists'.1 hgiven.1
  obtain ⟨p, hp⟩ := Option.ne_none_iff_exists'.1 hgiven.2
  obtain ⟨hnonneg, hle, -⟩ := nonneg_of_not_bad (by norm_num) (h.quantity q hq)
  have hprice := (nonneg_of_not_bad le_rfl (h.price p hp)).1
  exact ⟨q, p, hq, hp, lt_of_lt_of_le (by norm_num) hle, mul_nonneg hnonneg hprice⟩

/-- nothing else has a quantity and a price -/
theorem fields_of_not_trades (h : ¬f.Trades) : f.fields.quantity = none ∧ f.fields.pricePerUnit = none := by
  simp [fields, h]

theorem transactionType_trades :
    f.operation.transactionType = .buy ∨ f.operation.transactionType = .sell ↔ f.Trades := by
  unfold Trades
  cases f.operation <;> simp [InvestmentOperation.transactionType]

/-- the gross amount of a valid form -/
theorem cleanGross_eq (h : ValidFields db f)
    (hproduct : ∀ q ∈ f.fields.quantity, ∀ p ∈ f.fields.pricePerUnit, q * p < quantizeBound)
    (hgiven : f.Trades → f.fields.quantity ≠ none ∧ f.fields.pricePerUnit ≠ none) :
    f.cleanGross db = .ok (some f.gross) := by
  unfold cleanGross gross
  rw [h.cleanedFields]
  dsimp only
  by_cases htrades : f.Trades
  · obtain ⟨q, p, hq, hp, -, hnonneg⟩ := h.trade (hgiven htrades)
    have hlt : |q * p| < quantizeBound := by
      rw [abs_of_nonneg hnonneg]
      exact hproduct q hq p hp
    rw [if_pos htrades, hq, hp]
    dsimp only
    rw [quantize_product, if_pos hlt]
    rfl
  · obtain ⟨x, hx⟩ := Option.ne_none_iff_exists'.1 (h.gross_given htrades)
    rw [if_neg htrades, (fields_of_not_trades htrades).1, hx]
    rfl

/-- a sale that the form accepts is covered -/
theorem checkHolding_of_holdingErrors (hv : ValidFields db f) (h : f.holdingErrors db = .ok [])
    (hgiven : f.Trades → f.fields.quantity ≠ none ∧ f.fields.pricePerUnit ≠ none) :
    checkHolding db f.posting = .ok () := by
  obtain ⟨a, ha, -⟩ := hv.account
  obtain ⟨s, hs, -⟩ := hv.security
  obtain ⟨d, hd⟩ := hv.trade_date
  unfold checkHolding
  split_ifs with hsell
  · have hoperation : f.operation = .sell := by
      cases hop : f.operation <;> simp [posting, hop, InvestmentOperation.transactionType] at hsell ⊢
    obtain ⟨q, hq⟩ := Option.ne_none_iff_exists'.1 (hgiven (.inr hoperation)).1
    unfold holdingErrors at h
    rw [if_pos hoperation, hv.cleanedFields] at h
    simp only [ha, hs, hq, hd] at h
    have hholding : ∃ holding, calculateHolding db a s (some d) = .ok holding ∧ ¬holding.quantity < q := by
      cases hh : calculateHolding db a s (some d) with
      | ok holding =>
        rw [hh] at h
        exact ⟨holding, rfl, by simpa [raised] using h⟩
      | error e =>
        rcases calculateHolding_error hh with rfl | ⟨m, rfl⟩
        · rw [hh] at h
          cases h
        · rw [hh] at h
          cases h
    obtain ⟨holding, hh, hcovered⟩ := hholding
    have hheld : calculateHoldingQuantity db f.posting.account f.posting.security (some f.posting.tradeDate) =
        .ok holding.quantity := by
      simp only [calculateHoldingQuantity, posting, ha, hs, hd, Option.getD_some, hh]
      rfl
    rw [hheld]
    refine if_neg fun hall => hcovered (hall q hq)
  · rfl

/-- **What the posting of a valid form looks like.** Every condition that the service tests of it before the amounts
holds. -/
theorem Valid.checked (hsymbol : ∀ s, (db.security s).symbol.length ≤ 24) (h : f.Valid db)
    (hproduct : ∀ q ∈ f.fields.quantity, ∀ p ∈ f.fields.pricePerUnit, q * p < quantizeBound)
    (hgiven : f.Trades → f.fields.quantity ≠ none ∧ f.fields.pricePerUnit ≠ none) : Checked db f.posting := by
  have hv := validFields_of_fieldErrors h.1
  obtain ⟨a, ha, hmem, howner, -, htype⟩ := hv.account
  obtain ⟨s, hs, hactive⟩ := hv.security
  obtain ⟨fees, hfees, hfeesOk⟩ := hv.fees
  obtain ⟨taxes, htaxes, htaxesOk⟩ := hv.taxes
  obtain ⟨k, hk⟩ := hv.currency
  have hclean := raised_eq_nil.1 h.2.1
  simp only [List.forall_mem_cons, decide_eq_false_iff_not, hv.cleanedFields, ha, hs, hk] at hclean
  obtain ⟨-, hcurrency, hneeded, hone, -⟩ := hclean
  push Not at hcurrency hneeded hone
  have hfeesFacts := nonneg_of_not_bad le_rfl hfeesOk
  have htaxesFacts := nonneg_of_not_bad le_rfl htaxesOk
  constructor
  case account_mem => simpa [posting, ha] using hmem
  case account_owner => simpa [posting, ha] using howner
  case account_type => simpa [posting, ha] using htype
  case security_active => simpa [posting, hs] using hactive
  case security_currency => simpa [posting, hs, hk] using hcurrency s rfl k rfl
  case type_supported => cases hop : f.operation <;> simp [posting, hop, InvestmentOperation.transactionType, supported]
  case trade =>
    intro ht
    obtain ⟨q, p, hq, hp, hpos, hnonneg⟩ := hv.trade (hgiven (transactionType_trades.1 ht))
    refine ⟨q, p, hq, hp, hpos, ?_, by simp [posting, gross, hq, hp]⟩
    rw [abs_of_nonneg hnonneg]
    exact hproduct q hq p hp
  case not_trade => exact fun ht => fields_of_not_trades fun h => ht (transactionType_trades.2 h)
  case quantity =>
    intro q hq
    obtain ⟨-, hle, hfits⟩ := nonneg_of_not_bad (by norm_num) (hv.quantity q hq)
    exact ⟨lt_of_lt_of_le (by norm_num) hle, hfits⟩
  case price =>
    intro p hp
    obtain ⟨hnonneg, -, hfits⟩ := nonneg_of_not_bad le_rfl (hv.price p hp)
    exact ⟨hnonneg, hfits⟩
  case gross =>
    by_cases ht : f.Trades
    · obtain ⟨q, p, hq, hp, -, hnonneg⟩ := hv.trade (hgiven ht)
      have hgross : f.posting.grossAmount = rounded q p := by simp [posting, gross, hq, hp]
      rw [hgross]
      exact ⟨rounded_nonneg hnonneg, rounded_places q p⟩
    · obtain ⟨x, hx⟩ := Option.ne_none_iff_exists'.1 (hv.gross_given ht)
      obtain ⟨hnonneg, -, hplaces, -⟩ := nonneg_of_not_bad le_rfl (hv.gross x hx)
      have hgross : f.posting.grossAmount = x := by simp [posting, gross, (fields_of_not_trades ht).1, hx]
      rw [hgross]
      exact ⟨hnonneg, hplaces⟩
  case fees => simpa [posting, hfees] using And.intro hfeesFacts.1 hfeesFacts.2.2
  case taxes => simpa [posting, htaxes] using And.intro htaxesFacts.1 htaxesFacts.2.2
  case rate =>
    intro r hr
    exact (nonneg_of_not_bad (by norm_num) (hv.rate r hr)).2
  case rate_given =>
    intro hne hnone
    have hzero := hneeded a rfl k rfl (by simpa [posting, ha, hk] using Ne.symm hne)
    rw [show f.fields.exchangeRate = none from hnone] at hzero
    exact hzero rfl
  case rate_one =>
    intro heq
    have hsame : (db.account a).currency = k := by simpa [posting, ha, hk] using Eq.symm heq
    exact or_iff_not_imp_left.2 fun hsome => hone a rfl k rfl hsame hsome
  case holding => exact checkHolding_of_holdingErrors hv h.2.2 hgiven
  case symbol => exact hsymbol _
  case reference => exact hv.reference

theorem cleanData_valid (h : f.Valid db)
    (hproduct : ∀ q ∈ f.fields.quantity, ∀ p ∈ f.fields.pricePerUnit, q * p < quantizeBound)
    (hgiven : f.Trades → f.fields.quantity ≠ none ∧ f.fields.pricePerUnit ≠ none) :
    f.cleanData db = .ok { f.fields with grossAmount := some f.gross } := by
  have hv := validFields_of_fieldErrors h.1
  rw [cleanData, cleanGross_eq hv hproduct hgiven, h.2.2, h.1, h.2.1, hv.cleanedFields]
  rfl

/-- a valid form is posted -/
theorem cleanAndPost_valid (h : f.Valid db)
    (hproduct : ∀ q ∈ f.fields.quantity, ∀ p ∈ f.fields.pricePerUnit, q * p < quantizeBound)
    (hgiven : f.Trades → f.fields.quantity ≠ none ∧ f.fields.pricePerUnit ≠ none) :
    cleanAndPost db f = InContext.createInvestmentTransaction Investments.product db f.posting := by
  have hv := validFields_of_fieldErrors h.1
  obtain ⟨a, ha, -⟩ := hv.account
  obtain ⟨s, hs, -⟩ := hv.security
  obtain ⟨d, hd⟩ := hv.trade_date
  obtain ⟨fees, hfees, -⟩ := hv.fees
  obtain ⟨taxes, htaxes, -⟩ := hv.taxes
  obtain ⟨k, hk⟩ := hv.currency
  rw [cleanAndPost, cleanData_valid h hproduct hgiven]
  simp only [posting, ha, hs, hd, hfees, htaxes, hk, Option.getD_some]
  rfl

/-- without a quantity or a price there is no gross amount to post -/
theorem cleanAndPost_missing (h : f.Valid db) (htrades : f.Trades)
    (hmissing : ¬(f.fields.quantity ≠ none ∧ f.fields.pricePerUnit ≠ none)) :
    Raises Escapes (cleanAndPost db f) := by
  have hv := validFields_of_fieldErrors h.1
  have hgross : f.cleanGross db = .ok none := by
    unfold cleanGross
    rw [hv.cleanedFields]
    dsimp only
    rw [if_pos htrades]
    have hnone : f.fields.grossAmount = none := by simp [fields, htrades]
    cases hq : f.fields.quantity with
    | none => simp [hnone]
    | some q =>
      cases hp : f.fields.pricePerUnit with
      | none => simp [hnone]
      | some p => simp [hq, hp] at hmissing
  have hdata : f.cleanData db = .ok { f.fields with grossAmount := none } := by
    rw [cleanData, hgross, h.2.2, h.1, h.2.1, hv.cleanedFields]
    rfl
  obtain ⟨a, ha, -⟩ := hv.account
  obtain ⟨s, hs, -⟩ := hv.security
  obtain ⟨d, hd⟩ := hv.trade_date
  rw [cleanAndPost, hdata]
  simp [raises_bind, ha, hs, hd, notNone]

end InvestmentTransactionForm

/-! ## Cleaning and posting -/

/-- refused with a ValidationError, or posted with an amount of at most 4 decimals below 10^16 -/
def InFormat (db : Db) : Except Error Db → Prop
  | .ok db' => ∃ t i e, db' = db.post t [e] [i] ∧ HasPlaces 4 e.amount ∧ |e.amount| < 10 ^ 16
  | .error e => ∃ es, e = .validation es

open InvestmentTransactionForm

theorem inFormat_iff {db : Db} {f : InvestmentTransactionForm} :
    InFormat db (cleanAndPost db f) ↔ ¬Raises Escapes (cleanAndPost db f) := by
  cases hpost : cleanAndPost db f with
  | ok db' =>
    simp only [cleanAndPost, bind_eq_ok] at hpost
    obtain ⟨c, -, a, -, s, -, d, -, g, -, fees, -, taxes, -, k, -, hcreate⟩ := hpost
    exact iff_of_true (create_ok_fits hcreate) (not_raises_ok _ _)
  | error e =>
    rw [raises_error]
    exact ⟨fun ⟨es, he⟩ => by simp [he], fun h => not_forall_not.1 h⟩

/-- **Posting arithmetic.** A submission that `InvestmentTransactionForm.clean` cleans and `create_investment_transaction`
posts is refused with a ValidationError, or posted with an amount that fits, exactly when its amounts stay inside the
number formats. -/
theorem posting_inFormat_iff (db : Db) (hsymbol : ∀ s, (db.security s).symbol.length ≤ 24)
    (f : InvestmentTransactionForm) : InFormat db (cleanAndPost db f) ↔ FitsFormats db f := by
  rw [inFormat_iff]
  by_cases hgross : Raises Escapes (f.cleanGross db)
  · -- quantizing quantity * price needs more than 28 digits
    refine iff_of_false (not_not.2 ?_) fun h => ?_
    · exact raises_bind.2 (.inl (raises_bind.2 (.inl hgross)))
    · obtain ⟨q, hq, p, hp, hle⟩ := raises_cleanGross.1 hgross
      exact (h.product q hq p hp).not_ge hle
  obtain ⟨gross, hg⟩ := cleanGross_returns hgross
  have hproduct : ∀ q ∈ (f.cleanedFields db).quantity, ∀ p ∈ (f.cleanedFields db).pricePerUnit, q * p < quantizeBound := by
    intro q hq p hp
    by_contra hle
    exact hgross (raises_cleanGross.2 ⟨q, hq, p, hp, not_lt.1 hle⟩)
  by_cases hholding : Raises Escapes (f.holdingErrors db)
  · -- a stored trade has no rate
    refine iff_of_false (not_not.2 ?_) fun h => ?_
    · refine raises_bind.2 (.inl (raises_bind.2 (.inr ⟨gross, hg, raises_bind.2 (.inl hholding)⟩)))
    · obtain ⟨hsell, a, ha, s, hs, hq, herror⟩ := raises_holdingErrors.1 hholding
      exact h.holding hsell a ha s hs hq herror
  obtain ⟨es, hes⟩ := holdingErrors_returns hholding
  have hread : f.operation = .sell → ∀ a ∈ (f.cleanedFields db).account, ∀ s ∈ (f.cleanedFields db).security,
      (f.cleanedFields db).quantity ≠ none →
        calculateHolding db a s (f.cleanedFields db).tradeDate ≠ .error .typeError := by
    intro hsell a ha s hs hq herror
    exact hholding (raises_holdingErrors.2 ⟨hsell, a, ha, s, hs, hq, herror⟩)
  by_cases hvalid : f.Valid db
  · have hfields := (validFields_of_fieldErrors hvalid.1).cleanedFields
    by_cases hgiven : f.Trades → f.fields.quantity ≠ none ∧ f.fields.pricePerUnit ≠ none
    · have hposted : ∀ q ∈ f.fields.quantity, ∀ p ∈ f.fields.pricePerUnit, q * p < quantizeBound := hfields ▸ hproduct
      rw [cleanAndPost_valid hvalid hposted hgiven, (hvalid.checked hsymbol hposted hgiven).raises_iff, not_and, not_le]
      exact ⟨fun h => ⟨hproduct, hread, fun _ => hgiven, fun _ => h⟩, fun h => h.cash hvalid⟩
    · -- the gross amount is missing
      refine iff_of_false (not_not.2 ?_) fun h => hgiven (h.given hvalid)
      obtain ⟨htrades, hmissing⟩ := Classical.not_imp.1 hgiven
      exact cleanAndPost_missing hvalid htrades hmissing
  · -- the form has errors
    have herrors : f.fieldErrors db ++ f.cleanErrors db ++ es ≠ [] := by
      intro hnil
      obtain ⟨hboth, hnone⟩ := List.append_eq_nil_iff.1 hnil
      obtain ⟨hfieldErrors, hcleanErrors⟩ := List.append_eq_nil_iff.1 hboth
      exact hvalid ⟨hfieldErrors, hcleanErrors, by rw [hes, hnone]⟩
    have hdata : f.cleanData db = .error (.validation (f.fieldErrors db ++ f.cleanErrors db ++ es)) := by
      rw [cleanData, hg, hes]
      exact if_pos herrors
    refine iff_of_true ?_ ⟨hproduct, hread, fun h => absurd h hvalid, fun h => absurd h hvalid⟩
    rw [cleanAndPost, hdata]
    simp [raises_bind]

/-- a purchase at the account of `brokerageDb` -/
def purchase (quantity price fees : ℚ) : InvestmentTransactionForm where
  user := 1
  operation := .buy
  data := {
    account := some 0
    security := some 0
    tradeDate := some 1
    settlementDate := none
    quantity := some quantity
    pricePerUnit := some price
    grossAmount := none
    fees := some fees
    taxes := some 0
    currency := some 1
    exchangeRate := none
    reference := ""
    notes := "" }

theorem posting_inFormat_iff_twoShares : InFormat brokerageDb (cleanAndPost brokerageDb (purchase 2 10 1)) := by
  have hquantity : ((purchase 2 10 1).cleanedFields brokerageDb).quantity = some 2 := by decide +kernel
  have hprice : ((purchase 2 10 1).cleanedFields brokerageDb).pricePerUnit = some 10 := by decide +kernel
  refine (posting_inFormat_iff brokerageDb (fun _ => show "ETF".length ≤ 24 by decide) _).2 ?_
  constructor
  case product =>
    intro q hq p hp
    rw [hquantity] at hq
    rw [hprice] at hp
    cases hq
    cases hp
    unfold quantizeBound
    norm_num
  case holding => exact nofun
  case given => exact fun _ _ => ⟨nofun, nofun⟩
  case cash => exact fun _ _ => by decide +kernel

/-- **The corners.** 10^13 shares at 10^13 end in InvalidOperation; a gross amount and fees of 9 * 10^15 each, which fit
their columns, add up to cash that does not. -/
theorem largeAmounts_escape :
    cleanAndPost brokerageDb (purchase (10 ^ 13) (10 ^ 13) 0) = .error .decimal ∧
      cleanAndPost brokerageDb (purchase (9 * 10 ^ 14) 10 (9 * 10 ^ 15)) = .error .database ∧
      ¬∀ f, InFormat brokerageDb (cleanAndPost brokerageDb f) := by
  have hdecimal : cleanAndPost brokerageDb (purchase (10 ^ 13) (10 ^ 13) 0) = .error .decimal :=
    eq_error_of_check (by decide +kernel)
  refine ⟨hdecimal, eq_error_of_check (by decide +kernel), fun h => ?_⟩
  have hformat := h (purchase (10 ^ 13) (10 ^ 13) 0)
  rw [hdecimal] at hformat
  obtain ⟨es, hes⟩ := hformat
  cases hes

end Vault67.Investments
