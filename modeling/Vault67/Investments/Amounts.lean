/-
Posting arithmetic: products rounded to 28 digits and then to 4 decimals, and a posting whose fields the form has checked.

- `abs_rounded_lt_iff`, `abs_rounded_lt_store_iff`: a rounded product stays below 10^24, or 10^16, exactly when the exact
  product is below a bound;
- `Checked.raises_iff`: a checked posting escapes, with an exception that is no ValidationError, exactly when `full_clean`
  does not refuse it and its cash reaches the second bound;
- `create_ok_fits`: what a posting writes has at most 4 decimals and is below 10^16;
- `create_exact`: below 10^12 the context posts what `createInvestmentTransaction` of `Posting` does.
-/
import Mathlib.Tactic
import Vault67.Investments.Forms

namespace Vault67.Investments

open Fallible Rounding Ledger

/-! ## Bounds of a product -/

/-- `(x * y).quantize(MONEY_QUANTUM)`, when it does not raise -/
def rounded (x y : ℚ) : ℚ := toPlaces halfEven 4 (product x y)

/-- quantizing needs more than 28 digits from here on -/
def quantizeBound : ℚ := 10 ^ 24 - 1 / 20000

/-- a rounded product is 10^16 or more from here on: half a unit of the fourth place below, and half a unit of the last
of the 28 digits below that -/
def storeBound : ℚ := 10 ^ 16 - 1 / 20000 - 5 / 10 ^ 13

theorem etiny_le {e : ℤ} (he : -16 ≤ e) : decimalContext.etiny ≤ e := by
  have : decimalContext.etiny = -1000026 := by decide
  omega

theorem abs_rounded (x y : ℚ) : |rounded x y| = toPlaces halfEven 4 (decimalContext.keep |x * y|) := by
  rw [rounded, abs_toPlaces_halfEven, product, Context.abs_keep]

theorem abs_rounded_lt_iff (x y : ℚ) : |rounded x y| < 10 ^ 24 ↔ |x * y| < quantizeBound := by
  have hq : 0 ≤ |x * y| := abs_nonneg _
  generalize hz : decimalContext.keep |x * y| = z
  have hlt : z < ((10 ^ 28 : ℤ) : ℚ) * 10 ^ (-4 : ℤ) ↔ halfEven (|x * y| / 10 ^ (-4 : ℤ)) < 10 ^ 28 := by
    rw [← hz]
    exact Context.keep_lt_iff (etiny_le (by norm_num)) hq (by decide) (by decide)
  have hle : z ≤ ((10 ^ 28 - 1 : ℤ) : ℚ) * 10 ^ (-4 : ℤ) ↔ halfEven (|x * y| / 10 ^ (-4 : ℤ)) ≤ 10 ^ 28 - 1 := by
    rw [← hz]
    exact Context.keep_le_iff (etiny_le (by norm_num)) hq (by decide) (by decide)
  rw [Int.le_sub_one_iff] at hle
  have hround : halfEven (|x * y| / 10 ^ (-4 : ℤ)) < 10 ^ 28 ↔ |x * y| < quantizeBound := by
    rw [halfEven_lt_iff (by decide), quantizeBound, div_lt_iff₀ (by positivity)]
    norm_num
  rw [abs_rounded, hz, show (10 : ℚ) ^ 24 = ((10 ^ 28 : ℤ) : ℚ) / 10 ^ 4 by norm_num, toPlaces_lt_iff (by decide),
    ← hround]
  refine ⟨fun h => hlt.1 ?_, fun h => ?_⟩
  · norm_num at h ⊢
    linarith
  · have := hle.2 h
    norm_num at this ⊢
    linarith

theorem abs_rounded_lt_store_iff (x y : ℚ) : |rounded x y| < 10 ^ 16 ↔ |x * y| < storeBound := by
  have hq : 0 ≤ |x * y| := abs_nonneg _
  generalize hz : decimalContext.keep |x * y| = z
  have hlt : z < ((10 ^ 28 - 5 * 10 ^ 7 : ℤ) : ℚ) * 10 ^ (-12 : ℤ) ↔
      halfEven (|x * y| / 10 ^ (-12 : ℤ)) < 10 ^ 28 - 5 * 10 ^ 7 := by
    rw [← hz]
    exact Context.keep_lt_iff (etiny_le (by norm_num)) hq (by decide) (by decide)
  have hround : halfEven (|x * y| / 10 ^ (-12 : ℤ)) < 10 ^ 28 - 5 * 10 ^ 7 ↔ |x * y| < storeBound := by
    rw [halfEven_lt_iff (by decide), storeBound, div_lt_iff₀ (by positivity)]
    norm_num
  rw [abs_rounded, hz, show (10 : ℚ) ^ 16 = ((10 ^ 20 : ℤ) : ℚ) / 10 ^ 4 by norm_num, toPlaces_lt_iff (by decide),
    ← hround, ← hlt]
  norm_num
  constructor <;> intro h <;> linarith

theorem storeBound_lt : storeBound < quantizeBound := by
  unfold storeBound quantizeBound
  norm_num

theorem quantize_product (x y : ℚ) :
    quantize (product x y) = if |x * y| < quantizeBound then .ok (rounded x y) else .error .decimal := by
  unfold quantize
  exact if_congr (abs_rounded_lt_iff x y) rfl rfl

theorem rounded_places (x y : ℚ) : HasPlaces 4 (rounded x y) := hasPlaces_iff.2 (toPlaces_mul halfEven 4 _)

theorem rounded_nonneg {x y : ℚ} (h : 0 ≤ x * y) : 0 ≤ rounded x y := by
  have hkeep : 0 ≤ product x y := Context.keep_nonneg h
  have hn : 0 ≤ halfEven (product x y * 10 ^ 4) := halfEven_nonneg (by positivity)
  unfold rounded toPlaces
  positivity

theorem storeMoney_of_places {x : ℚ} (h : HasPlaces 4 x) :
    storeMoney x = if |x| < 10 ^ 16 then .ok x else .error .database := by
  unfold storeMoney
  rw [toPlaces_eq_self halfAway_intCast (hasPlaces_iff.1 h)]

/-! ## A posting that the form has checked -/

/-- an exception that the view does not catch -/
def Escapes (e : Error) : Prop := ∀ es, e ≠ .validation es

@[simp] theorem not_escapes_validation (es : Errors) : ¬Escapes (.validation es) := fun h => h es rfl

@[simp] theorem not_escapes_message (m : Message) : ¬Escapes (.message m) := not_escapes_validation _

@[simp] theorem escapes_decimal : Escapes .decimal := fun _ => by simp

@[simp] theorem escapes_database : Escapes .database := fun _ => by simp

@[simp] theorem escapes_typeError : Escapes .typeError := fun _ => by simp

/-- what a form without errors says of its posting -/
structure Checked (db : Db) (p : InvestmentPosting) : Prop where
  account_mem : p.account ∈ db.accountIds
  account_owner : (db.account p.account).owner = p.owner
  account_type : (db.account p.account).accountType = .brokerage
  security_active : (db.security p.security).active
  security_currency : (db.security p.security).currency = p.currency
  type_supported : supported p.transactionType
  trade : p.transactionType = .buy ∨ p.transactionType = .sell →
    ∃ q pr, p.quantity = some q ∧ p.pricePerUnit = some pr ∧ 0 < q ∧ |q * pr| < quantizeBound ∧
      p.grossAmount = rounded q pr
  not_trade : ¬(p.transactionType = .buy ∨ p.transactionType = .sell) → p.quantity = none ∧ p.pricePerUnit = none
  quantity : ∀ q ∈ p.quantity, 0 < q ∧ FitsDecimal 28 8 q
  price : ∀ pr ∈ p.pricePerUnit, 0 ≤ pr ∧ FitsDecimal 28 8 pr
  gross : 0 ≤ p.grossAmount ∧ HasPlaces 4 p.grossAmount
  fees : 0 ≤ p.fees ∧ FitsDecimal 20 4 p.fees
  taxes : 0 ≤ p.taxes ∧ FitsDecimal 20 4 p.taxes
  rate : ∀ r ∈ p.exchangeRate, 1 / 10 ^ 12 ≤ r ∧ FitsDecimal 24 12 r
  rate_given : p.currency ≠ (db.account p.account).currency → p.exchangeRate ≠ none
  rate_one : p.currency = (db.account p.account).currency → p.exchangeRate = none ∨ p.exchangeRate = some 1
  holding : checkHolding db p = .ok ()
  symbol : (db.security p.security).symbol.length ≤ 24
  reference : p.reference.length ≤ 100

/-- refused by `full_clean` and not by the form -/
def Late (p : InvestmentPosting) : Prop := 10 ^ 16 ≤ p.grossAmount ∨ ∃ s ∈ p.settlementDate, s < p.tradeDate

section
variable {db db' : Db} {p : InvestmentPosting} {t : Transaction}

theorem length_title_le (type : TransactionType) : (title type).length ≤ 10 := by
  cases type <;> decide

/-- the ledger transaction of a checked posting is written -/
theorem Checked.createTransaction_ok (h : Checked db p) :
    ∃ t, createTransaction db p.owner p.tradeDate s!"{title p.transactionType} {(db.security p.security).symbol}"
        p.transactionType p.reference p.notes = .ok (t, db.addTransaction t) ∧
      t.owner = p.owner ∧ t.transactionDate = p.tradeDate ∧ t.transactionType = p.transactionType := by
  have hlength : s!"{title p.transactionType} {(db.security p.security).symbol}".length ≤ 255 := by
    have htitle := length_title_le p.transactionType
    have hsymbol := h.symbol
    change (title p.transactionType ++ " " ++ (db.security p.security).symbol).length ≤ 255
    rw [String.length_append, String.length_append]
    have hblank : " ".length = 1 := rfl
    omega
  have href : p.reference.length ≤ 100 := h.reference
  refine ⟨⟨db.nextTransaction, p.owner, p.tradeDate, s!"{title p.transactionType} {(db.security p.security).symbol}",
    p.transactionType, p.reference, p.notes⟩, ?_, rfl, rfl, rfl⟩
  rw [createTransaction, storeText, if_pos hlength, storeText, if_pos href]
  rfl

/-- the draft of a checked posting is valid, unless it is refused late -/
theorem Checked.cleanFields (h : Checked db p) (hlate : ¬Late p) : cleanFields (p.draft t) = [] := by
  obtain ⟨hgross, -⟩ := not_or.1 hlate
  have hgrossFits : FitsDecimal 20 4 p.grossAmount := by
    refine ⟨h.gross.2, ?_⟩
    rw [abs_of_nonneg h.gross.1]
    exact not_le.1 hgross
  rw [Investments.cleanFields, errorsOf_eq_nil]
  simp only [List.forall_mem_cons, List.not_mem_nil, false_implies, implies_true, and_true, decide_eq_false_iff_not,
    not_exists, not_and, not_not]
  exact ⟨fun q hq => (h.quantity q hq).2, fun pr hpr => (h.price pr hpr).2, hgrossFits, h.fees.2, h.taxes.2,
    fun r hr => not_lt.2 (h.rate r hr).1, fun r hr => (h.rate r hr).2⟩

theorem Checked.constraints (h : Checked db p) : (p.draft t).Constraints where
  quantity_pos q hq := (h.quantity q hq).1
  price_nonneg pr hpr := (h.price pr hpr).1
  gross_nonneg := h.gross.1
  fees_nonneg := h.fees.1
  taxes_nonneg := h.taxes.1

/-- the product that `clean` compares the gross amount with is the form's -/
theorem Checked.cleanQuantities (h : Checked db p) (ht : t.transactionType = p.transactionType) :
    ∃ checks, InContext.cleanQuantities product (p.draft t) = .ok checks ∧ ∀ c ∈ checks, c.1 = false := by
  have htype : (p.draft t).transactionType = p.transactionType := ht
  by_cases htrade : p.transactionType = .buy ∨ p.transactionType = .sell
  · obtain ⟨q, pr, hq, hpr, hpos, hbound, hgross⟩ := h.trade htrade
    have hexpected : InContext.expectedGross product (p.draft t) = .ok (some (rounded q pr)) := by
      simp only [InContext.expectedGross, InvestmentPosting.draft, hq, hpr, quantize_product, if_pos hbound]
      rfl
    refine ⟨_, by rw [InContext.cleanQuantities, htype, if_pos htrade, hexpected]; rfl, ?_⟩
    have hprice := (h.price pr hpr).1
    simp [InvestmentPosting.draft, hq, hpr, hgross, hpos, hprice]
  · obtain ⟨hq, hpr⟩ := h.not_trade htrade
    refine ⟨_, by rw [InContext.cleanQuantities, htype, if_neg htrade], ?_⟩
    simp [InvestmentPosting.draft, hq, hpr]

/-- the ledger transaction that a posting starts with -/
structure Starts (p : InvestmentPosting) (t : Transaction) : Prop where
  owner : t.owner = p.owner
  date : t.transactionDate = p.tradeDate
  type : t.transactionType = p.transactionType

theorem Checked.clean (h : Checked db p) (ht : Starts p t) (hlate : ¬Late p) :
    InContext.clean product (db.addTransaction t) (p.draft t) = .ok [] := by
  obtain ⟨-, hsettled⟩ := not_or.1 hlate
  obtain ⟨checks, hchecks, hvalid⟩ := h.cleanQuantities ht.type
  have howner : t.owner = (db.account p.account).owner := ht.owner.trans h.account_owner.symm
  have hdate : ¬∃ s ∈ p.settlementDate, s < t.transactionDate := ht.date ▸ hsettled
  rw [InContext.clean, hchecks]
  refine congrArg Except.ok (errorsOf_eq_nil.2 ?_)
  simp only [List.forall_mem_append, List.forall_mem_cons, List.not_mem_nil, false_implies, implies_true, and_true,
    decide_eq_false_iff_not]
  refine ⟨⟨⟨not_not.2 h.account_type, not_not.2 howner, not_not.2 h.security_active, not_not.2 h.security_currency,
    hdate⟩, hvalid⟩, fun hc => h.rate_given hc.1 hc.2, fun hc => ?_⟩
  rcases h.rate_one hc.1 with hnone | hone
  · exact hc.2.1 hnone
  · exact hc.2.2 hone

theorem Checked.fullClean (h : Checked db p) (ht : Starts p t) (hlate : ¬Late p) :
    InContext.fullClean product (db.addTransaction t) (p.draft t) = .ok ⟨p.draft t, h.constraints⟩ := by
  rw [InContext.fullClean, h.clean ht hlate]
  exact dif_pos ⟨h.constraints, by rw [h.cleanFields hlate, List.append_nil]⟩

theorem Checked.fullClean_late (h : Checked db p) (ht : Starts p t) (hlate : Late p) :
    ∃ es, InContext.fullClean product (db.addTransaction t) (p.draft t) = .error (.validation es) := by
  obtain ⟨checks, hchecks, -⟩ := h.cleanQuantities ht.type
  rw [InContext.fullClean, InContext.clean, hchecks]
  refine ⟨_, dif_neg fun hnil => ?_⟩
  obtain ⟨hfields, hown⟩ := List.append_eq_nil_iff.1 hnil.2
  rcases hlate with hgross | hsettled
  · have hfits : |p.grossAmount| < 10 ^ 16 :=
      (not_not.1 (errorsOf_mem_eq_nil hfields (p := ¬FitsDecimal 20 4 (p.draft t).grossAmount) "gross_amount"
        (.badDecimal 20 4) (by simp))).2
    rw [abs_of_nonneg h.gross.1] at hfits
    exact hfits.not_ge hgross
  · have hdate : ¬∃ s ∈ p.settlementDate, s < t.transactionDate :=
      errorsOf_mem_eq_nil hown (p := ∃ s ∈ (p.draft t).settlementDate, s < (p.draft t).tradeDate) "settlement_date"
        (.text "Settlement date cannot be before the trade date.") (by simp)
    rw [ht.date] at hdate
    exact hdate hsettled

end

/-- the native cash of a posting -/
def InvestmentPosting.net (p : InvestmentPosting) : ℚ :=
  match p.transactionType with
  | .buy => -(p.grossAmount + p.fees + p.taxes)
  | .sell => p.grossAmount - p.fees - p.taxes
  | .dividend => p.grossAmount - p.fees - p.taxes
  | _ => -p.grossAmount

/-- its rate to the account's currency -/
def InvestmentPosting.rate (db : Db) (p : InvestmentPosting) : ℚ :=
  if p.currency = (db.account p.account).currency then 1 else p.exchangeRate.getD 0

section
variable {db db' : Db} {p : InvestmentPosting}

theorem Checked.rate_eq (h : Checked db p) :
    (if p.currency = (db.account p.account).currency then some 1 else p.exchangeRate) = some (p.rate db) := by
  unfold InvestmentPosting.rate
  split_ifs with hsame
  · rfl
  · obtain ⟨r, hr⟩ := Option.ne_none_iff_exists'.1 (h.rate_given hsame)
    rw [hr]
    rfl

/-- the steps of a checked posting that can go wrong -/
theorem Checked.create_eq (h : Checked db p) : ∃ t, Starts p t ∧
    InContext.createInvestmentTransaction product db p =
      InContext.fullClean product (db.addTransaction t) (p.draft t) >>= fun detail =>
        quantize (product detail.netCashImpactNative (p.rate db)) >>= fun cash =>
          if cash = 0 then .error (.message (.text "Net cash impact must not be zero."))
          else createEntry ((db.addTransaction t).addInvestment detail) t p.account cash (db.account p.account).currency
            (some (p.rate db)) (some cash) (TransactionType.value p.transactionType) := by
  obtain ⟨t, ht, howner, hdate, htype⟩ := h.createTransaction_ok
  refine ⟨t, ⟨howner, hdate, htype⟩, ?_⟩
  simp only [InContext.createInvestmentTransaction, h.account_owner, h.account_type, h.type_supported, ne_eq,
    not_true_eq_false, if_false, h.holding, h.rate_eq, ht]
  rfl

theorem raises_createEntry {t : Transaction} {account currency : ℕ} {amount : ℚ} {rate base : Option ℚ} {type : String}
    (haccount : account ∈ db.accountIds) (hplaces : HasPlaces 4 amount) (hne : amount ≠ 0) :
    Raises Escapes (createEntry db t account amount currency rate base type) ↔ 10 ^ 16 ≤ |amount| := by
  rw [createEntry, storeMoney_of_places hplaces]
  split_ifs with hlt
  · refine iff_of_false ?_ hlt.not_ge
    simp [raises_bind, haccount, hne]
  · refine iff_of_true ?_ (not_lt.1 hlt)
    simp [raises_bind]

theorem netCashImpactNative_eq {t : Transaction} (h : Starts p t) : (p.draft t).netCashImpactNative = p.net := by
  unfold InvestmentDraft.netCashImpactNative InvestmentPosting.net InvestmentDraft.transactionType
  rw [show (p.draft t).transaction.transactionType = p.transactionType from h.type]
  rfl

/-- **When a checked posting escapes.** It is not refused by `full_clean`, and the rounded cash does not fit. -/
theorem Checked.raises_iff (h : Checked db p) :
    Raises Escapes (InContext.createInvestmentTransaction product db p) ↔
      ¬Late p ∧ storeBound ≤ |p.net * p.rate db| := by
  obtain ⟨t, ht, hcreate⟩ := h.create_eq
  rw [hcreate]
  by_cases hlate : Late p
  · obtain ⟨es, hes⟩ := h.fullClean_late ht hlate
    refine iff_of_false ?_ fun hc => hc.1 hlate
    rw [hes]
    simp [raises_bind]
  · have hnet : InvestmentDraft.netCashImpactNative (p.draft t) = p.net := netCashImpactNative_eq ht
    have hstore := abs_rounded_lt_store_iff p.net (p.rate db)
    rw [h.fullClean ht hlate, raises_bind]
    simp only [not_raises_ok, false_or, Except.ok.injEq, exists_eq_left', hnet, quantize_product, hlate,
      not_false_eq_true, true_and]
    split_ifs with hquantize
    · simp only [raises_bind, not_raises_ok, false_or, Except.ok.injEq, exists_eq_left']
      split_ifs with hzero
      · rw [hzero, abs_zero] at hstore
        exact iff_of_false (by simp) (not_le.2 (hstore.1 (by positivity)))
      · have haccount : p.account ∈ ((db.addTransaction t).addInvestment ⟨p.draft t, h.constraints⟩).accountIds :=
          h.account_mem
        rw [raises_createEntry haccount (rounded_places _ _) hzero, ← not_lt, hstore, not_lt]
    · exact iff_of_true (by simp [raises_bind]) (storeBound_lt.le.trans (not_lt.1 hquantize))

/-- **What a posting writes fits.** The cash entry of an accepted posting has four decimals at most and is below the
bound of its column. -/
theorem create_ok_fits (h : InContext.createInvestmentTransaction product db p = .ok db') :
    ∃ t i e, db' = db.post t [e] [i] ∧ HasPlaces 4 e.amount ∧ |e.amount| < 10 ^ 16 := by
  simp only [InContext.createInvestmentTransaction, ite_error_eq_ok, bind_eq_ok, not_not] at h
  obtain ⟨-, -, -, ⟨⟩, -, ⟨t, db₁⟩, ht, i, -, rate, -, cash, hcash, -, he⟩ := h
  obtain ⟨-, -, -, -, rfl⟩ := createTransaction_ok ht
  obtain ⟨e, -, -, -, -, hstore, -, -, rfl⟩ := createEntry_ok he
  have hplaces := quantize_places hcash
  rw [storeMoney_of_places hplaces] at hstore
  split_ifs at hstore with hlt
  cases hstore
  exact ⟨t, i, e, Db.addEntry_addInvestment db t e i, hplaces, hlt⟩

end

/-! ## Exact products -/

/-- a product with 16 decimals below 10^12 has at most 28 digits -/
theorem product_exact {j k : ℕ} {x y : ℚ} (hx : HasPlaces j x) (hy : HasPlaces k y) (hjk : j + k = 16)
    (hlt : |x * y| < 10 ^ 12) : product x y = x * y := by
  obtain ⟨m, hm⟩ := hasPlaces_iff.1 hx
  obtain ⟨n, hn⟩ := hasPlaces_iff.1 hy
  have hunits : x * y * 10 ^ 16 = ((m * n : ℤ) : ℚ) := by
    calc x * y * 10 ^ 16 = x * 10 ^ j * (y * 10 ^ k) := by rw [← hjk, pow_add]; ring
      _ = ((m * n : ℤ) : ℚ) := by rw [hm, hn, Int.cast_mul]
  have hdigits : |m * n| < 10 ^ 28 := by
    have habs : |((m * n : ℤ) : ℚ)| = |x * y| * 10 ^ 16 := by
      rw [← hunits, abs_mul _ ((10 : ℚ) ^ 16), abs_of_pos (by positivity : (0 : ℚ) < 10 ^ 16)]
    have hbound : |((m * n : ℤ) : ℚ)| < 10 ^ 28 := by
      rw [habs]
      linarith
    exact_mod_cast hbound
  refine Context.keep_eq_self ⟨m * n, -16, hdigits, etiny_le le_rfl, ?_⟩
  rw [← hunits]
  norm_num
  ring

/-- amounts with the decimals of their columns, and products below 10^12 -/
structure Short (db : Db) (p : InvestmentPosting) : Prop where
  quantity : ∀ q ∈ p.quantity, HasPlaces 8 q
  price : ∀ pr ∈ p.pricePerUnit, HasPlaces 8 pr
  gross : ∀ q ∈ p.quantity, ∀ pr ∈ p.pricePerUnit, |q * pr| < 10 ^ 12
  net : HasPlaces 4 p.net
  rate : HasPlaces 12 (p.rate db)
  cash : |p.net * p.rate db| < 10 ^ 12

section
variable {db : Db} {p : InvestmentPosting}

theorem Short.expectedGross (h : Short db p) (t : Transaction) :
    InContext.expectedGross product (p.draft t) = InContext.expectedGross (· * ·) (p.draft t) := by
  simp only [InContext.expectedGross, InvestmentPosting.draft]
  cases hq : p.quantity with
  | none => rfl
  | some q =>
    cases hpr : p.pricePerUnit with
    | none => rfl
    | some pr =>
      have hexact := product_exact (h.quantity q hq) (h.price pr hpr) rfl (h.gross q hq pr hpr)
      simp only [hexact]

theorem Short.fullClean (h : Short db p) (db' : Db) (t : Transaction) :
    InContext.fullClean product db' (p.draft t) = InContext.fullClean (· * ·) db' (p.draft t) := by
  unfold InContext.fullClean InContext.clean InContext.cleanQuantities
  rw [h.expectedGross]

/-- the cash of a detail that the posting has made -/
theorem Short.cash_exact (h : Short db p) {t : Transaction} (ht : Starts p t) {i : InvestmentTransaction}
    (hi : i.toInvestmentDraft = p.draft t) {rate : ℚ}
    (hrate : (if p.currency = (db.account p.account).currency then some 1 else p.exchangeRate) = some rate) :
    product i.netCashImpactNative rate = i.netCashImpactNative * rate := by
  have hnet : i.netCashImpactNative = p.net := by rw [hi, netCashImpactNative_eq ht]
  have heq : p.rate db = rate := by
    unfold InvestmentPosting.rate
    split_ifs at hrate ⊢ with hsame
    · exact Option.some.inj hrate
    · rw [hrate]
      rfl
  rw [hnet, ← heq]
  exact product_exact h.net h.rate rfl h.cash

/-- **Below 10^12 a posting is exact.** It writes the same rows and raises the same errors with products of 28 digits
and with exact ones. -/
theorem create_exact (h : Short db p) :
    InContext.createInvestmentTransaction product db p = createInvestmentTransaction db p := by
  rw [← InContext.createInvestmentTransaction_exact]
  unfold InContext.createInvestmentTransaction
  refine if_congr Iff.rfl rfl (if_congr Iff.rfl rfl (if_congr Iff.rfl rfl (bind_congr fun _ => ?_)))
  cases ht : createTransaction db p.owner p.tradeDate s!"{title p.transactionType} {(db.security p.security).symbol}"
      p.transactionType p.reference p.notes with
  | error e => rfl
  | ok created =>
    obtain ⟨t, db'⟩ := created
    obtain ⟨-, howner, hdate, htype, -⟩ := createTransaction_ok ht
    change InContext.fullClean product db' (p.draft t) >>= _ = InContext.fullClean (· * ·) db' (p.draft t) >>= _
    rw [h.fullClean]
    cases hi : InContext.fullClean (· * ·) db' (p.draft t) with
    | error e => rfl
    | ok i =>
      have hdraft : i.toInvestmentDraft = p.draft t := by
        rw [InContext.fullClean_exact] at hi
        exact (fullClean_ok hi).1
      cases hrate : notNone (if p.currency = (db.account p.account).currency then some 1 else p.exchangeRate) with
      | error e => rfl
      | ok rate =>
        change quantize (product i.netCashImpactNative rate) >>= _ = quantize (i.netCashImpactNative * rate) >>= _
        rw [h.cash_exact ⟨howner, hdate, htype⟩ hdraft (notNone_eq_ok.1 hrate)]

end

end Vault67.Investments
