/-
`AccountDetailView`: the page of one account, with its contract, the contract's progress and the estimated tax.

The numbers K are those of the interest calculation; the results are about the real ones. The closing date and the tax
treatment are columns of the account that the ledger does not read; the page gets them beside the account.

- `step_contracts`: every operation keeps the contracts: fixed-term accounts have one that passes its validation, and no
  other account has one.
- `detail_page_adds_up`: so the page of every account is shown on every day, and its figures add up.
- `contract_funded`: a new contract is funded with its principal on its first day, from the funding account if there is one.
-/
import Mathlib.Tactic
import Vault67.Accounts.Contracts
import Vault67.Accounts.FixedTerm
import Vault67.Ledger.Book
import Vault67.Tax.Treatments

namespace Vault67.Accounts

open Fallible Ledger Machine OrderBy Rounding Tax

/-! ## The page -/

structure FixedTermPage (K : Type) where
  fixedTerm : FixedTermDetails
  fixedProjection : FixedTermProjection K
  fixedProgress : FixedTermProgress K
  fixedStatus : FixedTermStatus
  fixedRatePercent : ℚ
  principalDiffersFromBalance : Bool
  returnTaxResult : ReturnTaxResult K
  netMaturityValue : K

structure AccountPage (K : Type) where
  balance : ℚ
  recentEntries : List TransactionEntry
  fixedTerm : Option (FixedTermPage K)

inductive AccountPageError where
  | notFound
  /-- a ValueError -/
  | value (message : String)

/-- the newest twenty entries -/
def recentEntries (db : Db) (account : ℕ) : List TransactionEntry :=
  (orderBy (fun e : TransactionEntry => OrderDual.toDual (toLex (e.transaction.transactionDate, e.pk)))
    (db.entries.filter fun e => e.account = account)).take 20

section

variable {K : Type} [Field K] [LinearOrder K] [Pow K K]

/-- what the page shows of a contract -/
def fixedTermPage (db : Db) (account : ℕ) (closingDate : Option Date) (treatment : Option ReturnTaxTreatment)
    (details : FixedTermDetails) (today : Date) : Except String (FixedTermPage K) := do
  let projection ← projection details
  let progress ← calculateFixedTermProgress details today
  let taxResult ← calculateReturnTax projection.grossInterest treatment
  .ok {
    fixedTerm := details
    fixedProjection := projection
    fixedProgress := progress
    fixedStatus := getFixedTermStatus (db.account account) closingDate details today
    fixedRatePercent := details.annualInterestRate * 100
    principalDiffersFromBalance := accountBalance db account none ≠ details.principal
    returnTaxResult := taxResult
    netMaturityValue := details.principal + taxResult.netReturn }

/-- `AccountDetailView` -/
def accountDetailView (db : Db) (user account : ℕ) (closingDate : Option Date) (treatment : Option ReturnTaxTreatment)
    (today : Date) : Except AccountPageError (AccountPage K) :=
  if account ∈ db.accountIds ∧ (db.account account).owner = user then do
    let fixedTerm ← match db.fixedTerm account with
      | none => .ok none
      | some details => ((fixedTermPage db account closingDate treatment details today).mapError .value).map some
    .ok ⟨accountBalance db account none, recentEntries db account, fixedTerm⟩
  else .error .notFound

end

variable {db db' : Db}

/-! ## Contracts -/

/-- exactly the fixed-term accounts have a contract, and it has passed its validation -/
structure ContractsKept (db : Db) : Prop where
  unknown : ∀ i, i ∉ db.accountIds → db.fixedTerm i = none
  known : ∀ i ∈ db.accountIds, (db.account i).accountType = .fixedTerm ↔ db.fixedTerm i ≠ none
  accepted : ∀ i, ∀ details ∈ db.fixedTerm i, Accepted details ∧ FitsDecimal 20 4 details.principal

theorem init_contracts (currencyCode : ℕ → String) (security : ℕ → Security) :
    ContractsKept (Db.init currencyCode security) := by
  constructor <;> simp [Db.init]

theorem ContractsKept.of_chart (h : ContractsKept db) (hchart : chartOfAccounts db' = chartOfAccounts db) :
    ContractsKept db' := by
  simp only [chartOfAccounts, ChartOfAccounts.mk.injEq] at hchart
  obtain ⟨haccount, hids, hfixed, -⟩ := hchart
  refine ⟨?_, ?_, ?_⟩
  · rw [hids, hfixed]
    exact h.unknown
  · rw [hids, hfixed, haccount]
    exact h.known
  · rw [hfixed]
    exact h.accepted

/-- what `save_fixed_term_details` stores: a contract for a fixed-term account, none for another -/
theorem saveFixedTermDetails_details {c : FormData} {account : ℕ} {details : Option FixedTermDetails}
    (h : saveFixedTermDetails db c account = .ok (details, db')) :
    ((db.account account).accountType = .fixedTerm ↔ details ≠ none) ∧
      ∀ d ∈ details, Accepted d ∧ FitsDecimal 20 4 d.principal := by
  unfold saveFixedTermDetails at h
  by_cases htype : (db.account account).accountType = .fixedTerm
  · simp only [htype, ne_eq, not_true_eq_false, if_false, bind_eq_ok, ite_error_eq_ok] at h
    obtain ⟨terms, -, -, d, hclean, h⟩ := h
    cases h
    refine ⟨by simp [htype], fun d' hd' => ?_⟩
    cases hd'
    refine ⟨accepted_of_fullClean hclean, ?_⟩
    obtain ⟨hfields, -, rfl⟩ := fullClean_eq_ok.1 hclean
    rw [FixedTermDraft.cleanFields, raised_eq_nil] at hfields
    have hfits := hfields (decide (¬FitsDecimal 20 4 d.principal), "principal", .badDecimal 20 4) (by simp)
    simpa using hfits
  · simp only [ne_eq, htype, not_false_eq_true, if_true, Except.ok.injEq, Prod.mk.injEq] at h
    obtain ⟨rfl, -⟩ := h
    exact ⟨by simp [htype], by simp⟩

/-- an account gets the contract that its type asks for -/
theorem ContractsKept.update (h : ContractsKept db) {account : ℕ} {details : Option FixedTermDetails}
    (hids : ∀ i, i ∈ db'.accountIds ↔ i ∈ db.accountIds ∨ i = account)
    (hother : ∀ i, i ≠ account → db'.account i = db.account i)
    (hfixed : db'.fixedTerm = Function.update db.fixedTerm account details)
    (htype : (db'.account account).accountType = .fixedTerm ↔ details ≠ none)
    (hdetails : ∀ d ∈ details, Accepted d ∧ FitsDecimal 20 4 d.principal) : ContractsKept db' := by
  refine ⟨fun i hi => ?_, fun i hi => ?_, fun i d hd => ?_⟩
  · rw [hids, not_or] at hi
    rw [hfixed, Function.update_of_ne hi.2]
    exact h.unknown i hi.1
  · by_cases heq : i = account
    · subst heq
      rw [hfixed, Function.update_self]
      exact htype
    · rw [hfixed, Function.update_of_ne heq, hother i heq]
      exact h.known i (((hids i).1 hi).resolve_right heq)
  · rw [hfixed] at hd
    by_cases heq : i = account
    · rw [heq, Function.update_self] at hd
      exact hdetails d hd
    · rw [Function.update_of_ne heq] at hd
      exact h.accepted i d hd

theorem fundFixedTerm_chart {user : ℕ} {details : FixedTermDetails} {funding : Option ℕ}
    (h : fundFixedTerm db user account details funding = .ok db') : chartOfAccounts db' = chartOfAccounts db := by
  cases funding with
  | none => exact ((create_writes _ _ _ _ _ _ _ _).adds _ _ h).1
  | some source => exact ((createTransfer_writes _ _ _ _ _ _ _).adds _ _ h).1

theorem accountCreateView_contracts (hdb : Integrity db) (h : ContractsKept db) {user : ℕ} {data : FormData}
    (hview : accountCreateView db user data = .ok db') : ContractsKept db' := by
  simp only [accountCreateView, bind_eq_ok] at hview
  obtain ⟨c, -, row, -, ⟨details, db₁⟩, hsave, hfund⟩ := hview
  have hfresh : db.nextAccount ∉ db.accountIds := fun hin => lt_irrefl _ (hdb.account_lt _ hin)
  obtain ⟨htype, hdetails⟩ := saveFixedTermDetails_details hsave
  have hdb₁ := saveFixedTermDetails_ok hsave
  have hkept : ContractsKept db₁ := by
    rw [hdb₁]
    refine h.update (fun i => ?_) (fun i hi => ?_) rfl htype hdetails
    · simp
    · simp [Function.update_of_ne hi]
  cases details with
  | none =>
    cases hfund
    exact hkept
  | some details => exact hkept.of_chart (fundFixedTerm_chart hfund)

theorem accountUpdateView_contracts (h : ContractsKept db) {user account : ℕ} {data : FormData}
    (hview : accountUpdateView db user account data = .ok db') : ContractsKept db' := by
  unfold accountUpdateView at hview
  split_ifs at hview with hknown
  · simp only [bind_eq_ok] at hview
    obtain ⟨c, -, row, -, ⟨details, db₁⟩, hsave, hview⟩ := hview
    cases hview
    obtain ⟨htype, hdetails⟩ := saveFixedTermDetails_details hsave
    have hdb₁ := saveFixedTermDetails_ok hsave
    rw [hdb₁]
    refine h.update (fun i => ⟨.inl, fun hi => ?_⟩) (fun i hi => ?_) rfl htype hdetails
    · exact hi.elim id fun heq => heq ▸ hknown.1
    · simp [Function.update_of_ne hi]

theorem archiveAccount_contracts (h : ContractsKept db) {user account : ℕ}
    (hview : archiveAccount db user account = .ok db') : ContractsKept db' := by
  unfold archiveAccount at hview
  split_ifs at hview
  · cases hview
    refine ⟨h.unknown, fun i hi => ?_, h.accepted⟩
    refine Iff.trans ?_ (h.known i hi)
    by_cases heq : i = account
    · simp [heq]
    · simp [Function.update_of_ne heq]

/-- one operation, one case for each -/
theorem step_contracts (hdb : Integrity db) (h : ContractsKept db) {op : Op} (hstep : step db op = .ok db') :
    ContractsKept db' := by
  cases op with
  | createDeposit owner account amount date description type notes =>
    exact h.of_chart ((create_writes owner account amount type date description notes "").adds _ _ hstep).1
  | createWithdrawal owner account amount date description type notes =>
    exact h.of_chart ((createWithdrawal_writes owner account amount date description type notes).adds _ _ hstep).1
  | createTransfer owner source destination amount date description notes =>
    exact h.of_chart ((createTransfer_writes owner source destination amount date description notes).adds _ _ hstep).1
  | importTransactions owner account rows =>
    exact h.of_chart ((Ledger.importTransactions_writes owner account rows).adds _ _ hstep).1
  | createInvestmentTransaction p =>
    obtain ⟨i, e, -, -, -, -, rfl⟩ := Investments.createInvestmentTransaction_ok hstep
    exact h.of_chart rfl
  | deleteTransaction owner pk =>
    obtain ⟨t, -, hdelete⟩ := bind_eq_ok.1 hstep
    simp only [deleteTransaction, ite_error_eq_ok, Except.ok.injEq] at hdelete
    obtain ⟨-, -, rfl⟩ := hdelete
    exact h.of_chart rfl
  | deleteAccountTransactions owner account =>
    obtain ⟨⟨n, db₁⟩, hdelete, hstep⟩ := bind_eq_ok.1 hstep
    cases hstep
    simp only [deleteAccountTransactions, ite_error_eq_ok] at hdelete
    obtain ⟨-, -, hdelete⟩ := hdelete
    split_ifs at hdelete <;> cases hdelete <;> exact h.of_chart rfl
  | createAccount user data => exact accountCreateView_contracts hdb h hstep
  | updateAccount user account data => exact accountUpdateView_contracts h hstep
  | archiveAccount user account => exact archiveAccount_contracts h hstep

theorem run_contracts (currencyCode : ℕ → String) (security : ℕ → Security) (ops : List Op) :
    ContractsKept (run step (Db.init currencyCode security) ops) := by
  have hboth : Integrity (run step (Db.init currencyCode security) ops) ∧
      ContractsKept (run step (Db.init currencyCode security) ops) := by
    refine run_inv (I := fun db => Integrity db ∧ ContractsKept db) (fun _ => True) (fun db op db' h _ hstep => ?_)
      (fun _ _ => trivial) ⟨init_integrity currencyCode security, init_contracts currencyCode security⟩
    exact ⟨step_integrity h.1 hstep, step_contracts h.1 h.2 hstep⟩
  exact hboth.2

/-! ## The page adds up -/

variable {account : ℕ}

/-- only entries of the account are shown, and one that is not shown is older than the twenty that are -/
def AccountPage.Newest {K : Type} (page : AccountPage K) (db : Db) (account : ℕ) : Prop :=
  (∀ e ∈ page.recentEntries, e ∈ db.entries ∧ e.account = account) ∧
    ∀ e ∈ db.entries, e.account = account → e ∉ page.recentEntries → page.recentEntries.length = 20 ∧
      ∀ shown ∈ page.recentEntries,
        toLex (e.transaction.transactionDate, e.pk) ≤ toLex (shown.transaction.transactionDate, shown.pk)

theorem newest {K : Type} {balance : ℚ} {fixedTerm : Option (FixedTermPage K)} :
    AccountPage.Newest ⟨balance, recentEntries db account, fixedTerm⟩ db account := by
  set sorted := orderBy (fun e : TransactionEntry => OrderDual.toDual (toLex (e.transaction.transactionDate, e.pk)))
    (db.entries.filter fun e => e.account = account) with hsorted
  have hshown : recentEntries db account = sorted.take 20 := rfl
  have hpairs := orderBy_sorted (fun e : TransactionEntry => OrderDual.toDual
    (toLex (e.transaction.transactionDate, e.pk))) (db.entries.filter fun e => e.account = account)
  rw [← hsorted, ← List.take_append_drop 20 sorted, List.pairwise_append] at hpairs
  refine ⟨fun e he => ?_, fun e he haccount hnot => ?_⟩
  · have hmem : e ∈ sorted := List.mem_of_mem_take he
    simpa [hsorted] using hmem
  · have hmem : e ∈ sorted := by simp [hsorted, he, haccount]
    have hrest : e ∈ sorted.drop 20 := by
      rw [← List.take_append_drop 20 sorted] at hmem
      exact (List.mem_append.1 hmem).resolve_left hnot
    have hlong : 20 ≤ sorted.length := by
      by_contra hlt
      rw [List.drop_eq_nil_of_le (not_le.1 hlt).le] at hrest
      cases hrest
    refine ⟨?_, fun shown hin => OrderDual.toDual_le_toDual.1 (hpairs.2.2 shown hin e hrest)⟩
    dsimp only
    rw [hshown, List.length_take, min_eq_left hlong]

/-- the figures of a contract on a day agree with each other -/
structure FixedTermPage.AddsUp (page : FixedTermPage ℝ) (treatment : Option ReturnTaxTreatment) : Prop where
  maturity : page.fixedProjection.maturityValue = page.fixedTerm.principal + page.fixedProjection.grossInterest
  days : page.fixedProgress.daysElapsed + page.fixedProgress.daysRemaining = page.fixedProjection.durationDays
  accrued : 0 ≤ page.fixedProgress.accruedInterest ∧
    page.fixedProgress.accruedInterest ≤ page.fixedProjection.grossInterest
  percent : 0 ≤ page.fixedProgress.progressPercent ∧ page.fixedProgress.progressPercent ≤ 100
  planned : page.fixedStatus = .planned → page.fixedProgress.accruedInterest = 0
  matured : page.fixedStatus = .matured → page.fixedProgress.accruedInterest = page.fixedProjection.grossInterest ∧
    page.fixedProgress.progressPercent = 100
  taxed : Taxed page.fixedProjection.grossInterest treatment page.returnTaxResult
  /-- what is left at maturity and the tax on the interest are what the contract is worth at maturity -/
  net : page.netMaturityValue + page.returnTaxResult.estimatedTax = page.fixedProjection.maturityValue
  kept : page.fixedTerm.principal ≤ page.netMaturityValue

theorem getFixedTermStatus_dates (row : FinancialAccount) (closingDate : Option Date) (details : FixedTermDetails)
    (day : Date) :
    (getFixedTermStatus row closingDate details day = .planned → day < details.startDate) ∧
      (getFixedTermStatus row closingDate details day = .matured → details.maturityDate ≤ day) := by
  unfold getFixedTermStatus
  split_ifs with hclosed hplanned hactive
  · simp
  · simp [hplanned]
  · simp
  · simp [not_lt.1 hactive]

/-- an accepted contract under a sound treatment is shown on every day -/
theorem fixedTermPage_spec {details : FixedTermDetails} (haccepted : Accepted details) (closingDate : Option Date)
    {treatment : Option ReturnTaxTreatment} (htreatment : ∀ t ∈ treatment, t.Sound) (today : Date) :
    ∃ page : FixedTermPage ℝ, fixedTermPage db account closingDate treatment details today = .ok page ∧
      page.AddsUp treatment ∧ page.fixedTerm = details ∧
      (page.principalDiffersFromBalance ↔ accountBalance db account none ≠ details.principal) := by
  have hagree := reached_agreement details
  have hgross : 0 ≤ (projected details).grossInterest :=
    ((hagree.accrued_before details.startDate le_rfl).ge).trans (hagree.accrued_le details.startDate)
  obtain ⟨tax, htax, htaxed⟩ := calculateReturnTax_spec hgross htreatment
  refine ⟨⟨details, projected details, reached details today,
    getFixedTermStatus (db.account account) closingDate details today, details.annualInterestRate * 100,
    accountBalance db account none ≠ details.principal, tax, details.principal + tax.netReturn⟩, ?_, ?_, rfl, by simp⟩
  · exact bind_eq_ok.2 ⟨projected details, projection_eq haccepted, bind_eq_ok.2 ⟨reached details today,
      progress_eq haccepted today, bind_eq_ok.2 ⟨tax, htax, rfl⟩⟩⟩
  · obtain ⟨hplanned, hmatured⟩ := getFixedTermStatus_dates (db.account account) closingDate details today
    have hstart : 0 ≤ (reached details today).accruedInterest := by
      rcases le_total today details.startDate with hle | hge
      · exact (hagree.accrued_before today hle).ge
      · exact (hagree.accrued_before _ le_rfl).ge.trans (hagree.accrued_mono hge)
    constructor
    case maturity => rfl
    case days => exact hagree.elapsed_add_remaining today
    case accrued => exact ⟨hstart, hagree.accrued_le today⟩
    case percent => exact hagree.percent_mem today
    case planned => exact fun h => hagree.accrued_before today (hplanned h).le
    case matured =>
      exact fun h => ⟨hagree.accrued_after today (hmatured h), (percent_eq_iff details today).2 (hmatured h)⟩
    case taxed => exact htaxed
    case net =>
      have hnet := htaxed.net
      change (details.principal : ℝ) + tax.netReturn + tax.estimatedTax =
        details.principal + (projected details).grossInterest
      linarith
    case kept =>
      have hnet := htaxed.net
      have hle := htaxed.le
      change (details.principal : ℝ) ≤ details.principal + tax.netReturn
      linarith

/-- **The page adds up.** After any run of the ledger and any requests to the treatments, the page of every account is shown
to its owner, with a contract exactly for a fixed-term account, and on every day the contract's figures agree. -/
theorem detail_page_adds_up (currencyCode : ℕ → String) (security : ℕ → Security) (ops : List Op)
    (upper : String → String) (requests : List (ℕ × TreatmentRequest)) {account : ℕ}
    (hknown : account ∈ (run step (Db.init currencyCode security) ops).accountIds) (closingDate : Option Date)
    {treatment : Option ReturnTaxTreatment}
    (htreatment : ∀ t ∈ treatment, t ∈ (run (treatmentPage upper) ⟨[], 0⟩ requests).rows) (today : Date) :
    ∃ page : AccountPage ℝ,
      accountDetailView (run step (Db.init currencyCode security) ops)
        ((run step (Db.init currencyCode security) ops).account account).owner account closingDate treatment today =
        .ok page ∧
      (page.fixedTerm.isSome ↔
        ((run step (Db.init currencyCode security) ops).account account).accountType = .fixedTerm) ∧
      (∀ contract ∈ page.fixedTerm, contract.AddsUp treatment ∧
        (contract.principalDiffersFromBalance ↔ page.balance ≠ contract.fixedTerm.principal)) ∧
      page.Newest (run step (Db.init currencyCode security) ops) account := by
  have hkept := run_contracts currencyCode security ops
  set db := run step (Db.init currencyCode security) ops
  have hsound : ∀ t ∈ treatment, t.Sound := fun t ht => (run_sound upper requests).rows t (htreatment t ht)
  have htype := hkept.known account hknown
  rw [accountDetailView, if_pos ⟨hknown, rfl⟩]
  cases hcontract : db.fixedTerm account with
  | none =>
    rw [hcontract] at htype
    exact ⟨_, rfl, by simpa using htype, by simp, newest⟩
  | some details =>
    obtain ⟨page, hpage, hadds, hterm, hdiffers⟩ :=
      fixedTermPage_spec (hkept.accepted account details hcontract).1 closingDate hsound today
    rw [hcontract] at htype
    refine ⟨⟨accountBalance db account none, recentEntries db account, some page⟩, ?_, by simpa using htype, ?_, newest⟩
    · dsimp only
      rw [hpage]
      rfl
    · intro contract hin
      cases hin
      rw [hterm]
      exact ⟨hadds, hdiffers⟩

/-- a contract over 10000 at 3% for a year, compounded monthly, funded from account 0 -/
def fundedTerm : FormData :=
  { plainForm .fixedTerm 1 with
    fixedPrincipal := some 10000
    fixedStartDate := some 739617
    fixedMaturityDate := some 739982
    fixedAnnualRatePercent := some 3
    fixedInterestMethod := some .compound
    fixedCompoundingFrequency := some .monthly
    fixedInterestPaymentMethod := some .atMaturity
    fixedInterestDestination := some .capitalized
    fixedMaturityInstruction := some .undecided
    fundingAccount := some 0 }

/-- the funding account has the money -/
def salaryFirst : List Op := [.createAccount 1 (plainForm .checking 1), .createDeposit 1 0 20000 1 "Salary" .income ""]

/-- a quarter of the interest is due at the end of the year -/
def yearEndQuarter : TreatmentData := ⟨some "Year end", some .yearEnd, .value 25, some "de", false, ""⟩

theorem detail_page_adds_up_fundedTerm :
    ∃ page : AccountPage ℝ,
      accountDetailView (run step (Db.init (fun _ => "EUR") fun _ => ⟨"ETF", 1, true⟩)
          (salaryFirst ++ [.createAccount 1 fundedTerm]))
        ((run step (Db.init (fun _ => "EUR") fun _ => ⟨"ETF", 1, true⟩)
          (salaryFirst ++ [.createAccount 1 fundedTerm])).account 1).owner 1 none
        (some ⟨0, 1, "Year end", .yearEnd, some 25, "DE", false, "", true⟩) 739800 = .ok page ∧
      (page.fixedTerm.isSome ↔ ((run step (Db.init (fun _ => "EUR") fun _ => ⟨"ETF", 1, true⟩)
        (salaryFirst ++ [.createAccount 1 fundedTerm])).account 1).accountType = .fixedTerm) ∧
      (∀ contract ∈ page.fixedTerm,
        contract.AddsUp (some ⟨0, 1, "Year end", .yearEnd, some 25, "DE", false, "", true⟩) ∧
          (contract.principalDiffersFromBalance ↔ page.balance ≠ contract.fixedTerm.principal)) ∧
      page.Newest (run step (Db.init (fun _ => "EUR") fun _ => ⟨"ETF", 1, true⟩)
        (salaryFirst ++ [.createAccount 1 fundedTerm])) 1 := by
  have htreatment : (⟨0, 1, "Year end", .yearEnd, some 25, "DE", false, "", true⟩ : ReturnTaxTreatment) ∈
      (run (treatmentPage fun code => if code = "de" then "DE" else code) ⟨[], 0⟩
        [(1, .create yearEndQuarter)]).rows := by
    decide +kernel
  have hknown : 1 ∈ (run step (Db.init (fun _ => "EUR") fun _ => ⟨"ETF", 1, true⟩)
      (salaryFirst ++ [.createAccount 1 fundedTerm])).accountIds := by
    decide +kernel
  refine detail_page_adds_up (fun _ => "EUR") (fun _ => ⟨"ETF", 1, true⟩) (salaryFirst ++ [.createAccount 1 fundedTerm])
    (fun code => if code = "de" then "DE" else code) [(1, .create yearEndQuarter)] hknown none (fun t ht => ?_) 739800
  cases ht
  exact htreatment

/-! ## Funding -/

/-- what funds a contract on its first day -/
def fundingLines (details : FixedTermDetails) (account : ℕ) (funding : Option ℕ) : List Line :=
  (funding.map fun source => ⟨source, details.startDate, -details.principal⟩).toList ++
    [⟨account, details.startDate, details.principal⟩]

theorem bookBalance_fundingLines (details : FixedTermDetails) (new account : ℕ) (funding : Option ℕ)
    (asOfDate : Option Date) :
    bookBalance (fundingLines details new funding) account asOfDate =
      (if account = new ∧ ∀ day ∈ asOfDate, details.startDate ≤ day then details.principal else 0) -
        if funding = some account ∧ ∀ day ∈ asOfDate, details.startDate ≤ day then details.principal else 0 := by
  cases funding with
  | none => simp [fundingLines, bookBalance, Line.adds]
  | some source =>
    have hout : (⟨source, details.startDate, -details.principal⟩ : Line).adds account asOfDate =
        -if some source = some account ∧ ∀ day ∈ asOfDate, details.startDate ≤ day then details.principal else 0 := by
      simp only [Line.adds, Option.some.injEq, eq_comm]
      split_ifs <;> simp
    rw [sub_eq_neg_add, ← hout]
    simp [fundingLines, bookBalance, Line.adds]

/-- money with four places is written as it is -/
theorem entryLines_of_places {c : ChartOfAccounts} {owner account : ℕ} {amount : ℚ} {date : Date}
    {description reference : String} {lines : List Line} (hplaces : HasPlaces 4 amount)
    (h : entryLines c owner account amount date description reference = some lines) :
    lines = [⟨account, date, amount⟩] := by
  obtain ⟨stored, hstored, -, rfl⟩ := entryLines_eq_some.1 h
  rw [storeMoney_exact hstored hplaces]

theorem fundFixedTerm_lines {user : ℕ} {details : FixedTermDetails} {funding : Option ℕ}
    (hplaces : HasPlaces 4 details.principal) (h : fundFixedTerm db user account details funding = .ok db') :
    accountBalance db' = accountBalance db + bookBalance (fundingLines details account funding) ∧
      ∀ source ∈ funding, source ≠ account := by
  cases funding with
  | none =>
    obtain ⟨-, m, hm, hbalance⟩ := (create_writes _ _ _ _ _ _ _ _).adds _ _ h
    obtain ⟨lines, hlines, rfl⟩ := Option.map_eq_some_iff.1 hm
    rw [entryLines_of_places hplaces hlines] at hbalance
    exact ⟨hbalance, by simp⟩
  | some source =>
    obtain ⟨-, m, hm, hbalance⟩ := (createTransfer_writes _ _ _ _ _ _ _).adds _ _ h
    obtain ⟨lines, hlines, rfl⟩ := Option.map_eq_some_iff.1 hm
    dsimp only [transferLines] at hlines
    split_ifs at hlines with hguard
    rw [not_or, not_or] at hguard
    obtain ⟨out, hout, hlines⟩ := Option.bind_eq_some_iff.1 hlines
    obtain ⟨into, hinto, hlines⟩ := Option.bind_eq_some_iff.1 hlines
    cases hlines
    rw [entryLines_of_places hplaces.neg hout, entryLines_of_places hplaces hinto] at hbalance
    refine ⟨hbalance, fun i hi => ?_⟩
    cases hi
    exact hguard.2.1

/-- the form of a new account funds its contract from the account it names -/
theorem cleanData_fundingAccount {user : ℕ} {data c : FormData}
    (h : FinancialAccountForm.cleanData db ⟨user, none, data⟩ = .ok c) : c.fundingAccount = data.fundingAccount := by
  simp only [FinancialAccountForm.cleanData] at h
  split_ifs at h with hvalid
  cases h
  have hchosen := (validFields_of_fieldErrors (List.append_eq_nil_iff.1 hvalid).1).funding
  rw [FinancialAccountForm.clean, dropSavingsRate_congr FormData.fundingAccount fun _ => rfl,
    FinancialAccountForm.dropType, if_neg (by rintro ⟨i, ⟨⟩, -⟩)]
  exact filter_eq_self hchosen

theorem accountBalance_fresh (h : Integrity db) {account : ℕ} (hfresh : account ∉ db.accountIds)
    (asOfDate : Option Date) : accountBalance db account asOfDate = 0 := by
  have hnone : (db.entries.filter fun e =>
      e.account = account ∧ ∀ d ∈ asOfDate, e.transaction.transactionDate ≤ d) = [] := by
    refine List.filter_eq_nil_iff.2 fun e he => ?_
    simp only [decide_eq_true_eq, not_and]
    rintro rfl
    exact absurd (h.entry_account e he) hfresh
  rw [accountBalance, hnone]
  rfl

/-- what a new contract writes in the book -/
theorem accountCreateView_lines {user : ℕ} {data : FormData} {details : FixedTermDetails}
    (hview : accountCreateView db user data = .ok db') (hdetails : db'.fixedTerm db.nextAccount = some details) :
    accountBalance db' = accountBalance db + bookBalance (fundingLines details db.nextAccount data.fundingAccount) ∧
      ∀ source ∈ data.fundingAccount, source ≠ db.nextAccount := by
  simp only [accountCreateView, bind_eq_ok] at hview
  obtain ⟨c, hclean, row, -, ⟨saved, db₁⟩, hsave, hfund⟩ := hview
  obtain ⟨-, hterms⟩ := saveFixedTermDetails_details hsave
  have hdb₁ := saveFixedTermDetails_ok hsave
  have hsaved : db₁.fixedTerm db.nextAccount = saved := by
    rw [hdb₁]
    exact Function.update_self _ _ _
  rw [← cleanData_fundingAccount hclean]
  have hbefore : accountBalance db₁ = accountBalance db := by
    rw [hdb₁]
    rfl
  cases saved with
  | none =>
    cases hfund
    rw [hsaved] at hdetails
    cases hdetails
  | some terms =>
    have hchart : db'.fixedTerm = db₁.fixedTerm := congrArg ChartOfAccounts.fixedTerm (fundFixedTerm_chart hfund)
    rw [hchart, hsaved] at hdetails
    cases hdetails
    rw [← hbefore]
    exact fundFixedTerm_lines (hterms details rfl).2.1 hfund

/-- **A new contract is funded.** After any run, a contract that the form and its own validation accept has its principal
from its first day on, and nothing before; the funding account loses it on that day, and no other balance changes. -/
theorem contract_funded (currencyCode : ℕ → String) (security : ℕ → Security) (ops : List Op) {user : ℕ}
    {data : FormData} {db' : Db} {details : FixedTermDetails}
    (hview : accountCreateView (run step (Db.init currencyCode security) ops) user data = .ok db')
    (hdetails : db'.fixedTerm (run step (Db.init currencyCode security) ops).nextAccount = some details) :
    (∀ asOfDate, accountBalance db' (run step (Db.init currencyCode security) ops).nextAccount asOfDate =
      if ∀ day ∈ asOfDate, details.startDate ≤ day then details.principal else 0) ∧
    ∀ account ≠ (run step (Db.init currencyCode security) ops).nextAccount, ∀ asOfDate,
      accountBalance db' account asOfDate = accountBalance (run step (Db.init currencyCode security) ops) account asOfDate -
        if data.fundingAccount = some account ∧ ∀ day ∈ asOfDate, details.startDate ≤ day then details.principal else 0 := by
  have hdb := run_integrity (init_integrity currencyCode security) ops
  set db := run step (Db.init currencyCode security) ops
  have hfresh : db.nextAccount ∉ db.accountIds := fun hin => lt_irrefl _ (hdb.account_lt _ hin)
  obtain ⟨hlines, hsource⟩ := accountCreateView_lines hview hdetails
  refine ⟨fun asOfDate => ?_, fun account hne asOfDate => ?_⟩
  · have hown : data.fundingAccount ≠ some db.nextAccount := fun h => hsource _ h rfl
    rw [hlines, Pi.add_apply, Pi.add_apply, accountBalance_fresh hdb hfresh, bookBalance_fundingLines]
    simp [hown]
  · rw [hlines, Pi.add_apply, Pi.add_apply, bookBalance_fundingLines, if_neg fun h => hne h.1, zero_sub, sub_eq_add_neg]

theorem contract_funded_fundedTerm :
    let db := run step (Db.init (fun _ => "EUR") fun _ => ⟨"ETF", 1, true⟩) salaryFirst
    ∃ db' details, accountCreateView db 1 fundedTerm = .ok db' ∧ db'.fixedTerm db.nextAccount = some details ∧
      (∀ asOfDate, accountBalance db' db.nextAccount asOfDate =
        if ∀ day ∈ asOfDate, details.startDate ≤ day then details.principal else 0) ∧
      ∀ account ≠ db.nextAccount, ∀ asOfDate, accountBalance db' account asOfDate = accountBalance db account asOfDate -
        if fundedTerm.fundingAccount = some account ∧ ∀ day ∈ asOfDate, details.startDate ≤ day then details.principal
        else 0 := by
  intro db
  obtain ⟨db', hview⟩ := exists_ok_of_isOk (x := accountCreateView db 1 fundedTerm) (by decide +kernel)
  have hsaved : ((accountCreateView db 1 fundedTerm).toOption.bind fun saved => saved.fixedTerm db.nextAccount).isSome := by
    decide +kernel
  rw [hview] at hsaved
  obtain ⟨details, hdetails⟩ := Option.isSome_iff_exists.1 hsaved
  have hfunded := contract_funded (fun _ => "EUR") (fun _ => ⟨"ETF", 1, true⟩) salaryFirst hview hdetails
  exact ⟨db', details, hview, hdetails, hfunded⟩

end Vault67.Accounts
