/-
`dashboard/views.py`: the figures and charts of the start page.

An amount is divided exactly; the page cuts a percentage down to a whole number.

`dashboard_explained`: six bars and the balance before them explain the net worth, after any run.
`transfers_unseen`: transfers change no bar and no net worth.
`page_any_order`: the page does not tell in which order cash requests came.
`charts_scaled`: both charts are drawn to the scale of their largest amount.
-/
import Mathlib.Tactic
import Vault67.Lib.Months
import Vault67.Ledger.Book
import Vault67.Ledger.Shape

namespace Vault67.Dashboard

open Ledger OrderBy CivilDate Fallible

/-! ## The page -/

structure ChartAccount where
  name : String
  amount : ℚ
  isLiability : Bool
  percentage : ℤ
deriving DecidableEq, Repr

structure CashflowMonth where
  label : String
  amount : ℚ
  percentage : ℤ
  isPositive : Bool
deriving DecidableEq, Repr

structure Context where
  /-- the accounts, with their balances -/
  accounts : List (ℕ × ℚ)
  totalAssets : ℚ
  totalLiabilities : ℚ
  netWorth : ℚ
  unvaluedAccountCount : ℕ
  fixedTermTotal : ℚ
  fixedTermCount : ℕ
  nextFixedTermMaturity : Option Date
  accountChart : List ChartAccount
  cashflowChart : List CashflowMonth
  recentTransactions : List Transaction
deriving DecidableEq, Repr

/-- `liabilities` -/
def isLiability (type : AccountType) : Bool := type ∈ [.creditCard, .loan, .mortgage]

/-- `max(values, default=default)` -/
def maximum (default : ℚ) (values : List ℚ) : ℚ := values.max?.getD default

/-- the active accounts of the user -/
def accounts (db : Db) (user : ℕ) : List ℕ :=
  db.accountIds.filter fun i => (db.account i).owner = user ∧ (db.account i).active

/-- `account.currency.code == settings.DEFAULT_CURRENCY` -/
def isReporting (db : Db) (defaultCurrency : String) (account : ℕ) : Bool :=
  db.currencyCode (db.account account).currency = defaultCurrency

def reportingAccounts (db : Db) (defaultCurrency : String) (user : ℕ) : List ℕ :=
  (accounts db user).filter fun i => isReporting db defaultCurrency i

/-- `_account_chart` -/
def accountChart (db : Db) (accounts : List ℕ) : List ChartAccount :=
  let chartAccounts := (accounts.filter fun i => accountBalance db i none ≠ 0).map fun i =>
    ((db.account i).name, |accountBalance db i none|, isLiability (db.account i).accountType)
  let chartAccounts := orderBy (fun item => -item.2.1) chartAccounts
  let maximum := maximum 1 (chartAccounts.map fun item => item.2.1)
  (chartAccounts.map fun item => ⟨item.1, item.2.1, item.2.2, max 4 ⌊item.2.1 / maximum * 100⌋⟩).take 8

/-- `strftime("%b")` -/
def monthLabel (month : CivilDate) : String :=
  ["Jan", "Feb", "Mar", "Apr", "May", "Jun", "Jul", "Aug", "Sep", "Oct", "Nov", "Dec"].getD (month.month - 1) ""

/-- the months of `_cashflow_chart`; none when there are not as many before today -/
def cashflowMonths (today : CivilDate) : Option (List CivilDate) := (monthsBack 6 today.startOfMonth).map List.reverse

/-- the entries of `_cashflow_chart`, from the first of its months on -/
def cashflowEntries (db : Db) (defaultCurrency : String) (user : ℕ) (months : List CivilDate) : List TransactionEntry :=
  db.entries.filter fun e => e.transaction.owner = user ∧ isReporting db defaultCurrency e.account ∧
    ∀ first ∈ months.head?, first.ordinal ≤ e.transaction.transactionDate

/-- `totals.get(month, Decimal(0))` -/
def monthAmount (entries : List TransactionEntry) (month : CivilDate) : ℚ :=
  ((entries.filter fun e => truncMonth e.transaction.transactionDate = some month).map TransactionEntry.amount).sum

def cashflowChart (db : Db) (defaultCurrency : String) (user : ℕ) (months : List CivilDate) : List CashflowMonth :=
  let entries := cashflowEntries db defaultCurrency user months
  let maximum := maximum 1 (months.map fun month => |monthAmount entries month|)
  months.map fun month =>
    let amount := monthAmount entries month
    ⟨monthLabel month, amount, if maximum = 0 then 0 else ⌊|amount| / maximum * 100⌋, 0 ≤ amount⟩

/-- the first maturity from today on, of the active fixed-term accounts -/
def nextMaturity (db : Db) (user : ℕ) (today : CivilDate) : Option Date :=
  (((accounts db user).filter fun i => (db.account i).accountType = .fixedTerm).filterMap fun i =>
    (db.fixedTerm i).bind fun details =>
      if today.ordinal ≤ details.maturityDate then some details.maturityDate else none).min?

/-- newest first -/
def recentTransactions (db : Db) (user : ℕ) : List Transaction :=
  (orderBy (fun t : Transaction => toLex (-(t.transactionDate : ℤ), -(t.pk : ℤ)))
    (db.transactions.filter fun t => t.owner = user)).take 8

/-- `get_context_data` -/
def getContextData (db : Db) (defaultCurrency : String) (user : ℕ) (today : CivilDate) : Option Context := do
  let accounts := (accounts db user).map fun i => (i, accountBalance db i none)
  let reporting := reportingAccounts db defaultCurrency user
  let assets := ((reporting.filter fun i => !isLiability (db.account i).accountType).map fun i =>
    accountBalance db i none).sum
  let liability := ((reporting.filter fun i => isLiability (db.account i).accountType).map fun i =>
    -accountBalance db i none).sum
  let fixedTerm := reporting.filter fun i => (db.account i).accountType = .fixedTerm
  let months ← cashflowMonths today
  some {
    accounts := accounts
    totalAssets := assets
    totalLiabilities := liability
    netWorth := assets - liability
    unvaluedAccountCount := accounts.length - reporting.length
    fixedTermTotal := (fixedTerm.map fun i => accountBalance db i none).sum
    fixedTermCount := fixedTerm.length
    nextFixedTermMaturity := nextMaturity db user today
    accountChart := accountChart db reporting
    cashflowChart := cashflowChart db defaultCurrency user months
    recentTransactions := recentTransactions db user }

variable {db db' : Db} {defaultCurrency : String} {user : ℕ} {today : CivilDate}

/-! ## Balances and entries -/

/-- the balances of the user's accounts in the default currency, archived ones as well -/
def ownBalance (db : Db) (defaultCurrency : String) (user : ℕ) (date : Option Date) : ℚ :=
  ((db.accountIds.filter fun i => (db.account i).owner = user ∧ isReporting db defaultCurrency i).map fun i =>
    accountBalance db i date).sum

/-- the balances of the archived ones -/
def archivedBalance (db : Db) (defaultCurrency : String) (user : ℕ) : ℚ :=
  ((db.accountIds.filter fun i => ¬(db.account i).active ∧ (db.account i).owner = user ∧
    isReporting db defaultCurrency i).map fun i => accountBalance db i none).sum

/-- what the entries on these accounts that meet a condition add up to -/
def moved (db : Db) (defaultCurrency : String) (user : ℕ) (p : Date → Prop) [DecidablePred p] : ℚ :=
  ((db.entries.filter fun e => p e.transaction.transactionDate ∧ (db.account e.account).owner = user ∧
    isReporting db defaultCurrency e.account).map TransactionEntry.amount).sum

/-- each entry is on one account -/
theorem sum_balances (h : Integrity db) (p : ℕ → Prop) [DecidablePred p] (date : Option Date) :
    ((db.accountIds.filter fun i => p i).map fun i => accountBalance db i date).sum =
      ((db.entries.filter fun e => p e.account ∧ asOf date e).map TransactionEntry.amount).sum := by
  rw [← Rows.sum_groups TransactionEntry.account (h.account_nodup.filter _)]
  · refine congrArg List.sum (List.map_congr_left fun i hi => ?_)
    have hi' := of_decide_eq_true (List.mem_filter.1 hi).2
    rw [accountBalance, List.filter_filter]
    refine congrArg List.sum (congrArg _ (List.filter_congr fun e _ => ?_))
    by_cases hei : e.account = i
    · simp [hei, hi', asOf]
    · simp [hei]
  · intro e he
    obtain ⟨hmem, hp⟩ := List.mem_filter.1 he
    exact List.mem_filter.2 ⟨h.entry_account e hmem, decide_eq_true (of_decide_eq_true hp).1⟩

theorem ownBalance_eq_moved (h : Integrity db) {n : ℕ} (hn : 1 ≤ n) :
    ownBalance db defaultCurrency user (some (n - 1)) = moved db defaultCurrency user (· < n) := by
  rw [ownBalance, sum_balances h fun i => (db.account i).owner = user ∧ isReporting db defaultCurrency i]
  refine congrArg List.sum (congrArg _ (List.filter_congr fun e _ => decide_eq_decide.2 ?_))
  have hday : asOf (some (n - 1)) e ↔ e.transaction.transactionDate < n := by
    rw [asOf]
    simp only [Option.mem_def, Option.some.injEq, forall_eq']
    exact Nat.le_sub_one_iff_lt hn
  rw [hday]
  exact and_comm

theorem ownBalance_eq_all (h : Integrity db) :
    ownBalance db defaultCurrency user none = moved db defaultCurrency user fun _ => True := by
  rw [ownBalance, sum_balances h fun i => (db.account i).owner = user ∧ isReporting db defaultCurrency i]
  refine congrArg List.sum (congrArg _ (List.filter_congr fun e _ => decide_eq_decide.2 ?_))
  simp [asOf]

/-- the days that meet p, and those that do not -/
theorem moved_split (p q : Date → Prop) [DecidablePred p] [DecidablePred q] :
    moved db defaultCurrency user q =
      moved db defaultCurrency user (fun n => p n ∧ q n) + moved db defaultCurrency user fun n => ¬p n ∧ q n := by
  rw [moved, Rows.sum_filter_split fun e : TransactionEntry => p e.transaction.transactionDate]
  simp only [moved, and_assoc]

theorem moved_congr {p q : Date → Prop} [DecidablePred p] [DecidablePred q] (h : ∀ n, p n ↔ q n) :
    moved db defaultCurrency user p = moved db defaultCurrency user q := by
  refine congrArg List.sum (congrArg _ (List.filter_congr fun e _ => decide_eq_decide.2 ?_))
  rw [h]

/-! ## The months -/

/-- a bar is what moved in its month -/
theorem monthAmount_eq (h : Integrity db) {first m : CivilDate} {months : List CivilDate}
    (hmonths : Consecutive (first :: months)) (hm : m ∈ first :: months) :
    monthAmount (cashflowEntries db defaultCurrency user (first :: months)) m =
      moved db defaultCurrency user (· < m.monthEnd) - moved db defaultCurrency user (· < m.ordinal) := by
  have hfirst := hmonths.first_le hm
  have hend : m.ordinal ≤ m.monthEnd := by
    rw [monthEnd, startOfMonth_of_day (hmonths.1 m hm)]
    omega
  have hmoved : monthAmount (cashflowEntries db defaultCurrency user (first :: months)) m =
      moved db defaultCurrency user fun n => ¬n < m.ordinal ∧ n < m.monthEnd := by
    rw [monthAmount, cashflowEntries, List.filter_filter]
    refine congrArg List.sum (congrArg _ (List.filter_congr fun e he => ?_))
    rw [← Bool.decide_and, decide_eq_decide, truncMonth_eq_iff (hmonths.1 m hm), h.owner e he]
    simp only [List.head?_cons, Option.mem_def, Option.some.injEq, forall_eq', not_lt]
    exact ⟨fun h => ⟨h.1, h.2.1, h.2.2.1⟩, fun h => ⟨h.1, h.2.1, h.2.2, hfirst.trans h.1.1⟩⟩
  have hbefore : moved db defaultCurrency user (fun n => n < m.ordinal ∧ n < m.monthEnd) =
      moved db defaultCurrency user (· < m.ordinal) :=
    moved_congr fun n => and_iff_left_of_imp fun hn => hn.trans_le hend
  rw [hmoved, moved_split (· < m.ordinal) (· < m.monthEnd), hbefore, add_sub_cancel_left]

theorem cashflowMonths_some (hyear : 2 ≤ today.year) :
    ∃ first rest, cashflowMonths today = some (first :: rest) ∧ (first :: rest).length = 6 ∧
      Consecutive (first :: rest) ∧ (first :: rest).getLast? = some today.startOfMonth := by
  have hday : today.startOfMonth.day = 1 := rfl
  have hlate : 31 * 6 < today.startOfMonth.ordinal := by
    have hle := daysBeforeYear_mono (by norm_num) hyear
    have hone : daysBeforeYear 2 = 365 := rfl
    have hlow := today.startOfMonth.ordinal_le_year.1
    have hsame : today.startOfMonth.year = today.year := rfl
    rw [hsame] at hlow
    omega
  obtain ⟨months, hmonths⟩ := exists_monthsBack hday hlate
  have hlength := length_monthsBack hmonths
  have hconsecutive := consecutive_monthsBack hday hmonths
  obtain ⟨_, newest, -, -, rfl⟩ := monthsBack_succ hmonths
  obtain ⟨first, rest, hfirst⟩ : ∃ first rest, (today.startOfMonth :: newest).reverse = first :: rest :=
    List.exists_cons_of_length_eq_add_one (by rw [List.length_reverse, hlength])
  refine ⟨first, rest, ?_, ?_, ?_, ?_⟩
  · rw [cashflowMonths, hmonths, Option.map_some, hfirst]
  · rw [← hfirst, List.length_reverse, hlength]
  · rw [← hfirst]
    exact hconsecutive
  · rw [← hfirst, List.reverse_cons, List.getLast?_concat]

/-! ## Net worth -/

/-- assets less liabilities -/
def netWorth (db : Db) (defaultCurrency : String) (user : ℕ) : ℚ :=
  ((reportingAccounts db defaultCurrency user).map fun i => accountBalance db i none).sum

theorem getContextData_netWorth {ctx : Context} (h : getContextData db defaultCurrency user today = some ctx) :
    ctx.netWorth = netWorth db defaultCurrency user := by
  obtain ⟨months, -, h⟩ := Option.bind_eq_some_iff.1 h
  cases h
  dsimp only
  have hsplit := List.sum_map_filter_add_sum_map_filter_not (fun i => isLiability (db.account i).accountType = true)
    (fun i => accountBalance db i none) (reportingAccounts db defaultCurrency user)
  have hneg : ∀ l : List ℕ, (l.map fun i => -accountBalance db i none).sum =
      -(l.map fun i => accountBalance db i none).sum := fun l => by
    rw [List.sum_neg, List.map_map]
    rfl
  simp only [decide_not, Bool.decide_eq_true] at hsplit
  rw [netWorth, ← hsplit, hneg, sub_neg_eq_add, add_comm]

theorem getContextData_some (db : Db) (defaultCurrency : String) (user : ℕ) {months : List CivilDate}
    (hmonths : cashflowMonths today = some months) :
    ∃ ctx, getContextData db defaultCurrency user today = some ctx ∧
      ctx.cashflowChart = cashflowChart db defaultCurrency user months :=
  ⟨_, by rw [getContextData, hmonths]; rfl, rfl⟩

theorem reportingAccounts_eq : reportingAccounts db defaultCurrency user = db.accountIds.filter fun i =>
    (db.account i).active ∧ (db.account i).owner = user ∧ isReporting db defaultCurrency i := by
  rw [reportingAccounts, accounts, List.filter_filter]
  refine List.filter_congr fun i _ => ?_
  rw [Bool.eq_iff_iff]
  simp only [Bool.and_eq_true, decide_eq_true_eq]
  tauto

theorem netWorth_eq_entries (h : Integrity db) :
    netWorth db defaultCurrency user =
      ((db.entries.filter fun e => (db.account e.account).active ∧ (db.account e.account).owner = user ∧
        isReporting db defaultCurrency e.account).map TransactionEntry.amount).sum := by
  rw [netWorth, reportingAccounts_eq, sum_balances h fun i => (db.account i).active = true ∧
    (db.account i).owner = user ∧ isReporting db defaultCurrency i = true]
  simp only [asOf, Option.mem_def, reduceCtorEq, false_implies, implies_true, and_true]

theorem netWorth_add_archived :
    netWorth db defaultCurrency user + archivedBalance db defaultCurrency user =
      ownBalance db defaultCurrency user none := by
  rw [ownBalance, Rows.sum_filter_split fun i => (db.account i).active = true]
  rw [netWorth, reportingAccounts_eq]
  rfl

/-! ## The page explains itself -/

/-- the bars are the changes of balance of six months, up to this one, and explain the net worth -/
structure Explained (db : Db) (defaultCurrency : String) (user : ℕ) (today : CivilDate) (first : CivilDate)
    (rest : List CivilDate) (ctx : Context) : Prop where
  six : (first :: rest).length = 6
  consecutive : Consecutive (first :: rest)
  current : (first :: rest).getLast? = some today.startOfMonth
  labels : ctx.cashflowChart.map CashflowMonth.label = (first :: rest).map monthLabel
  bars : ctx.cashflowChart.map CashflowMonth.amount = (first :: rest).map fun m =>
    ownBalance db defaultCurrency user (some (m.monthEnd - 1)) - ownBalance db defaultCurrency user (some (m.ordinal - 1))
  netWorth : ctx.netWorth + archivedBalance db defaultCurrency user =
    ownBalance db defaultCurrency user (some (first.ordinal - 1)) + (ctx.cashflowChart.map CashflowMonth.amount).sum +
      moved db defaultCurrency user (today.monthEnd ≤ ·)

theorem one_le_ordinal (m : CivilDate) : 1 ≤ m.ordinal := by
  have := m.ordinal_le_year
  omega

theorem one_le_monthEnd (m : CivilDate) : 1 ≤ m.monthEnd :=
  (one_le_ordinal m.startOfMonth).trans (Nat.le_add_right _ _)

theorem explained (h : Integrity db) (hyear : 2 ≤ today.year) :
    ∃ first rest ctx, getContextData db defaultCurrency user today = some ctx ∧
      Explained db defaultCurrency user today first rest ctx := by
  obtain ⟨first, rest, hmonths, hsix, hconsecutive, hcurrent⟩ := cashflowMonths_some hyear
  obtain ⟨ctx, hctx, hchart⟩ := getContextData_some db defaultCurrency user hmonths
  have hamounts : ctx.cashflowChart.map CashflowMonth.amount = (first :: rest).map fun m =>
      moved db defaultCurrency user (· < m.monthEnd) - moved db defaultCurrency user (· < m.ordinal) := by
    rw [hchart, cashflowChart, List.map_map]
    exact List.map_congr_left fun m hm => monthAmount_eq h hconsecutive hm
  refine ⟨first, rest, ctx, hctx, hsix, hconsecutive, hcurrent, ?_, ?_, ?_⟩
  · rw [hchart, cashflowChart, List.map_map]
    rfl
  · rw [hamounts]
    simp only [ownBalance_eq_moved h (one_le_ordinal _), ownBalance_eq_moved h (one_le_monthEnd _)]
  · have hlast : (first :: rest).getLast (List.cons_ne_nil first rest) = today.startOfMonth :=
      Option.some.inj ((List.getLast?_eq_some_getLast _).symm.trans hcurrent)
    have hsum : (ctx.cashflowChart.map CashflowMonth.amount).sum =
        moved db defaultCurrency user (· < today.monthEnd) - moved db defaultCurrency user (· < first.ordinal) := by
      rw [hamounts, sum_months (fun n => moved db defaultCurrency user (· < n)) hconsecutive, hlast]
      rfl
    have hall : moved db defaultCurrency user (fun _ => True) =
        moved db defaultCurrency user (· < today.monthEnd) + moved db defaultCurrency user (today.monthEnd ≤ ·) := by
      rw [moved_split (· < today.monthEnd) fun _ => True]
      exact congrArg₂ _ (moved_congr fun n => and_iff_left trivial)
        (moved_congr fun n => (and_iff_left trivial).trans not_lt)
    rw [getContextData_netWorth hctx, netWorth_add_archived, ownBalance_eq_all h, hall, hsum,
      ownBalance_eq_moved h (one_le_ordinal first)]
    ring

/-! ## Transfers -/

theorem createTransfer_posts {owner source destination : ℕ} {amount : ℚ} {date : Date} {description notes : String}
    (h : createTransfer db owner source destination amount date description notes = .ok db') :
    (db.account source).currency = (db.account destination).currency ∧
      (db.account source).owner = (db.account destination).owner ∧
      ∃ t e e', db' = db.post t [e, e'] [] ∧ e.transaction = t ∧ e'.transaction = t ∧ e.account = source ∧
        e'.account = destination ∧ e.amount = -e'.amount := by
  simp only [createTransfer, ite_error_eq_ok, bind_eq_ok, not_or, not_not] at h
  obtain ⟨-, -, ⟨hos, hod⟩, hcurrency, ⟨t, db₁⟩, ht, db₂, hs, hd⟩ := h
  obtain ⟨-, -, -, -, rfl⟩ := createTransaction_ok ht
  obtain ⟨e, -, -, het, hea, hes, -, -, rfl⟩ := createEntry_ok hs
  obtain ⟨e', -, -, het', hea', hes', -, -, rfl⟩ := createEntry_ok hd
  rw [Db.addEntry_addEntry]
  exact ⟨hcurrency, hos.trans hod.symm, t, e, e', rfl, het, het', hea, hea', storeMoney_neg hes' hes⟩

/-- entries that a condition takes both or neither -/
theorem sum_post_pair {p : TransactionEntry → Bool} {l : List TransactionEntry} {e e' : TransactionEntry}
    (hp : p e = p e') (hamount : e.amount = -e'.amount) :
    (((l ++ [e, e']).filter p).map TransactionEntry.amount).sum = ((l.filter p).map TransactionEntry.amount).sum := by
  cases he : p e' <;> simp [hp, he, hamount]

theorem transfer_cashflowChart {owner source destination : ℕ} {amount : ℚ} {date : Date}
    {description notes : String} (months : List CivilDate)
    (hok : createTransfer db owner source destination amount date description notes = .ok db') :
    cashflowChart db' defaultCurrency user months = cashflowChart db defaultCurrency user months := by
  obtain ⟨hcurrency, -, t, e, e', rfl, het, het', rfl, rfl, hamount⟩ := createTransfer_posts hok
  have hreporting : isReporting db defaultCurrency e.account = isReporting db defaultCurrency e'.account := by
    rw [isReporting, isReporting, hcurrency]
  have hpost : ∀ i, isReporting (db.post t [e, e'] []) defaultCurrency i = isReporting db defaultCurrency i :=
    fun _ => rfl
  have hmonth : ∀ m, monthAmount (cashflowEntries (db.post t [e, e'] []) defaultCurrency user months) m =
      monthAmount (cashflowEntries db defaultCurrency user months) m := by
    intro m
    rw [monthAmount, monthAmount, cashflowEntries, cashflowEntries, List.filter_filter, List.filter_filter]
    refine sum_post_pair ?_ hamount
    simp only [het, het', hpost, hreporting]
  simp only [cashflowChart, hmonth]

theorem transfer_netWorth (h : Integrity db) {owner source destination : ℕ} {amount : ℚ} {date : Date}
    {description notes : String} (hactive : (db.account source).active = (db.account destination).active)
    (hok : createTransfer db owner source destination amount date description notes = .ok db') :
    netWorth db' defaultCurrency user = netWorth db defaultCurrency user := by
  have h' : Integrity db' := write_integrity h (createTransfer_write (S := fun _ => True) hok)
  obtain ⟨hcurrency, howner, t, e, e', rfl, -, -, rfl, rfl, hamount⟩ := createTransfer_posts hok
  have hreporting : isReporting db defaultCurrency e.account = isReporting db defaultCurrency e'.account := by
    rw [isReporting, isReporting, hcurrency]
  have hpost : ∀ i, isReporting (db.post t [e, e'] []) defaultCurrency i = isReporting db defaultCurrency i :=
    fun _ => rfl
  rw [netWorth_eq_entries h', netWorth_eq_entries h]
  refine sum_post_pair ?_ hamount
  simp only [Db.post_account, hactive, howner, hpost, hreporting]

/-- a transfer as its sender fills it in -/
structure Transfer where
  owner : ℕ
  source : ℕ
  destination : ℕ
  amount : ℚ
  date : Date
  description : String
  notes : String

def Transfer.op (t : Transfer) : Op :=
  .createTransfer t.owner t.source t.destination t.amount t.date t.description t.notes

/-- no transfer, accepted or refused, changes an account -/
theorem attempt_transfer (h : Integrity db) (defaultCurrency : String) (user : ℕ) (t : Transfer) :
    Integrity (Machine.attempt step db t.op) ∧ (Machine.attempt step db t.op).account = db.account ∧
      (∀ months, cashflowChart (Machine.attempt step db t.op) defaultCurrency user months =
        cashflowChart db defaultCurrency user months) ∧
      ((db.account t.source).active = (db.account t.destination).active →
        netWorth (Machine.attempt step db t.op) defaultCurrency user = netWorth db defaultCurrency user) := by
  unfold Machine.attempt
  cases hok : step db t.op with
  | error e => exact ⟨h, rfl, fun _ => rfl, fun _ => rfl⟩
  | ok db' =>
    refine ⟨write_integrity h (createTransfer_write (S := fun _ => True) hok), ?_, fun months =>
      transfer_cashflowChart months hok, fun hactive => transfer_netWorth h hactive hok⟩
    obtain ⟨-, -, _, _, _, rfl, -⟩ := createTransfer_posts hok
    rfl

/-- induction on the transfers: each leaves the accounts, so the next one finds the same ones active -/
theorem run_transfers (h : Integrity db) (transfers : List Transfer) :
    (∀ months, cashflowChart (Machine.run step db (transfers.map Transfer.op)) defaultCurrency user months =
      cashflowChart db defaultCurrency user months) ∧
    ((∀ t ∈ transfers, (db.account t.source).active = (db.account t.destination).active) →
      netWorth (Machine.run step db (transfers.map Transfer.op)) defaultCurrency user =
        netWorth db defaultCurrency user) := by
  induction transfers generalizing db with
  | nil => exact ⟨fun _ => rfl, fun _ => rfl⟩
  | cons t rest ih =>
    obtain ⟨hintegrity, haccount, hchart, hworth⟩ := attempt_transfer h defaultCurrency user t
    obtain ⟨ihchart, ihworth⟩ := ih hintegrity
    refine ⟨fun months => (ihchart months).trans (hchart months), fun hactive => ?_⟩
    rw [haccount] at ihworth
    have hrest := ihworth fun t' ht' => hactive t' (List.mem_cons_of_mem t ht')
    exact hrest.trans (hworth (hactive t List.mem_cons_self))

/-! ## The charts -/

theorem maximum_spec {values : List ℚ} (default : ℚ) (h : values ≠ []) :
    maximum default values ∈ values ∧ ∀ x ∈ values, x ≤ maximum default values := by
  obtain ⟨m, hm⟩ : ∃ m, values.max? = some m := by
    cases values with
    | nil => exact absurd rfl h
    | cons x xs => exact ⟨_, List.max?_cons'⟩
  rw [maximum, hm, Option.getD_some]
  exact List.max?_eq_some_iff.1 hm

/-- the percentage of a share is between 0 and 100, and 100 for the whole -/
theorem share_bounds {x m : ℚ} (hx : 0 ≤ x) (hm : 0 < m) (hxm : x ≤ m) :
    0 ≤ ⌊x / m * 100⌋ ∧ ⌊x / m * 100⌋ ≤ 100 := by
  have hle : x / m ≤ 1 := (div_le_one hm).2 hxm
  have h0 : 0 ≤ x / m := div_nonneg hx hm.le
  refine ⟨Int.floor_nonneg.2 (by positivity), ?_⟩
  have hfloor : (⌊x / m * 100⌋ : ℚ) ≤ 100 := (Int.floor_le _).trans (by linarith)
  exact_mod_cast hfloor

theorem share_whole {m : ℚ} (hm : 0 < m) : ⌊m / m * 100⌋ = 100 := by
  rw [div_self hm.ne', one_mul]
  exact Int.floor_ofNat 100

theorem share_mono {x y m : ℚ} (hm : 0 < m) (hxy : x ≤ y) : ⌊x / m * 100⌋ ≤ ⌊y / m * 100⌋ :=
  Int.floor_le_floor (mul_le_mul_of_nonneg_right (div_le_div_of_nonneg_right hxy hm.le) (by norm_num))

/-- the rows of the chart: the largest balances first, eight at most, each with its share of the largest -/
structure LargestFirst (db : Db) (accounts : List ℕ) (chart : List ChartAccount) : Prop where
  atMost : chart.length ≤ 8
  sorted : chart.Pairwise fun row next => next.amount ≤ row.amount ∧ next.percentage ≤ row.percentage
  bounds : ∀ row ∈ chart, 0 < row.amount ∧ 4 ≤ row.percentage ∧ row.percentage ≤ 100
  whole : ∀ row ∈ chart.head?, row.percentage = 100
  own : ∀ row ∈ chart, ∃ i ∈ accounts, row.name = (db.account i).name ∧ row.amount = |accountBalance db i none| ∧
    row.isLiability = isLiability (db.account i).accountType
  others : ∀ i ∈ accounts, accountBalance db i none ≠ 0 →
    (∃ row ∈ chart, row.name = (db.account i).name ∧ row.amount = |accountBalance db i none|) ∨
      chart.length = 8 ∧ ∀ row ∈ chart, |accountBalance db i none| ≤ row.amount

/-- the rows before the chart is cut off -/
structure Rated (db : Db) (accounts : List ℕ) (rows : List ChartAccount) : Prop where
  sorted : rows.Pairwise fun row next => next.amount ≤ row.amount ∧ next.percentage ≤ row.percentage
  bounds : ∀ row ∈ rows, 0 < row.amount ∧ 4 ≤ row.percentage ∧ row.percentage ≤ 100
  whole : ∀ row ∈ rows.head?, row.percentage = 100
  mem : ∀ row ∈ rows, ∃ i ∈ accounts, row.name = (db.account i).name ∧ row.amount = |accountBalance db i none| ∧
    row.isLiability = isLiability (db.account i).accountType
  all : ∀ i ∈ accounts, accountBalance db i none ≠ 0 →
    ∃ row ∈ rows, row.name = (db.account i).name ∧ row.amount = |accountBalance db i none|

theorem exists_rated (db : Db) (accounts : List ℕ) :
    ∃ rows, Rated db accounts rows ∧ accountChart db accounts = rows.take 8 := by
  refine ⟨_, ?_, rfl⟩
  set items := orderBy (fun item : String × ℚ × Bool => -item.2.1)
    ((accounts.filter fun i => accountBalance db i none ≠ 0).map fun i =>
      ((db.account i).name, |accountBalance db i none|, isLiability (db.account i).accountType)) with hitems
  have hmem : ∀ item, item ∈ items ↔ ∃ i ∈ accounts, accountBalance db i none ≠ 0 ∧
      ((db.account i).name, |accountBalance db i none|, isLiability (db.account i).accountType) = item := by
    intro item
    simp only [hitems, mem_orderBy, List.mem_map, List.mem_filter, decide_eq_true_eq, and_assoc]
  have hpos : ∀ item ∈ items, 0 < item.2.1 := by
    intro item hitem
    obtain ⟨i, -, hne, rfl⟩ := (hmem item).1 hitem
    exact abs_pos.2 hne
  have hsorted : items.Pairwise fun a b => b.2.1 ≤ a.2.1 :=
    (orderBy_sorted _ _).imp fun hab => neg_le_neg_iff.1 hab
  by_cases hnil : items = []
  · -- nothing to rate
    have hnone : ∀ i ∈ accounts, accountBalance db i none = 0 := by
      intro i hi
      by_contra hne
      have h := (hmem _).2 ⟨i, hi, hne, rfl⟩
      rw [hnil] at h
      cases h
    simp only [hnil, List.map_nil]
    exact ⟨.nil, by simp, by simp, by simp, fun i hi hne => absurd (hnone i hi) hne⟩
  · obtain ⟨hmax, hle⟩ := maximum_spec 1 (mt List.map_eq_nil_iff.1 hnil : items.map (fun item => item.2.1) ≠ [])
    set m := maximum 1 (items.map fun item => item.2.1) with hm
    have hle : ∀ item ∈ items, item.2.1 ≤ m := fun item hitem => hle _ (List.mem_map_of_mem hitem)
    obtain ⟨largest, hlargest, hwhole⟩ := List.mem_map.1 hmax
    have hmpos : 0 < m := by
      rw [← hwhole]
      exact hpos largest hlargest
    refine ⟨List.pairwise_map.2 (hsorted.imp fun hab => ⟨hab, max_le_max_left 4 (share_mono hmpos hab)⟩), ?_, ?_, ?_, ?_⟩
    · intro row hr
      obtain ⟨item, hitem, rfl⟩ := List.mem_map.1 hr
      exact ⟨hpos item hitem, le_max_left _ _,
        max_le (by norm_num) (share_bounds (hpos item hitem).le hmpos (hle item hitem)).2⟩
    · intro row hr
      obtain ⟨first, rest, hfirst⟩ := List.exists_cons_of_ne_nil hnil
      rw [hfirst] at hr hlargest hsorted
      cases hr
      have hsame : first.2.1 = m := by
        refine le_antisymm (hle first (by rw [hfirst]; exact List.mem_cons_self)) ?_
        rw [← hwhole]
        rcases List.mem_cons.1 hlargest with rfl | hlargest
        · exact le_refl _
        · exact (List.pairwise_cons.1 hsorted).1 largest hlargest
      dsimp only
      rw [hsame, share_whole hmpos]
      rfl
    · intro row hr
      obtain ⟨item, hitem, rfl⟩ := List.mem_map.1 hr
      obtain ⟨i, hi, -, rfl⟩ := (hmem item).1 hitem
      exact ⟨i, hi, rfl, rfl, rfl⟩
    · intro i hi hne
      exact ⟨_, List.mem_map_of_mem ((hmem _).2 ⟨i, hi, hne, rfl⟩), rfl, rfl⟩

theorem accountChart_largestFirst (db : Db) (accounts : List ℕ) : LargestFirst db accounts (accountChart db accounts) := by
  obtain ⟨rows, hrows, hchart⟩ := exists_rated db accounts
  rw [hchart]
  have hsub := List.take_sublist 8 rows
  refine ⟨by simp, hrows.sorted.sublist hsub, fun row hr => hrows.bounds row (hsub.subset hr), fun row hr => ?_,
    fun row hr => hrows.mem row (hsub.subset hr), fun i hi hne => ?_⟩
  · refine hrows.whole row ?_
    rwa [List.head?_take, if_neg (by norm_num)] at hr
  · obtain ⟨row, hr, hname, hamount⟩ := hrows.all i hi hne
    rw [← List.take_append_drop 8 rows] at hr
    rcases List.mem_append.1 hr with hr | hr
    · exact .inl ⟨row, hr, hname, hamount⟩
    · refine .inr ⟨?_, fun shown hshown => ?_⟩
      · have hlength := List.length_pos_of_mem hr
        rw [List.length_drop] at hlength
        rw [List.length_take]
        omega
      · have hpair := hrows.sorted
        rw [← List.take_append_drop 8 rows, List.pairwise_append] at hpair
        rw [← hamount]
        exact (hpair.2.2 shown hshown row hr).1

/-- the bars, each with its share of the largest -/
structure BarsScaled (bars : List CashflowMonth) : Prop where
  bounds : ∀ bar ∈ bars, 0 ≤ bar.percentage ∧ bar.percentage ≤ 100
  sign : ∀ bar ∈ bars, bar.isPositive = true ↔ 0 ≤ bar.amount
  mono : ∀ bar ∈ bars, ∀ bar' ∈ bars, |bar.amount| ≤ |bar'.amount| → bar.percentage ≤ bar'.percentage
  whole : (∃ bar ∈ bars, bar.amount ≠ 0) → ∃ bar ∈ bars, bar.percentage = 100

theorem cashflowChart_scaled (db : Db) (defaultCurrency : String) (user : ℕ) (months : List CivilDate) :
    BarsScaled (cashflowChart db defaultCurrency user months) := by
  rw [cashflowChart]
  set amount := monthAmount (cashflowEntries db defaultCurrency user months)
  cases months with
  | nil => exact ⟨by simp, by simp, by simp, by simp⟩
  | cons first rest =>
    have hne : (first :: rest).map (fun month => |amount month|) ≠ [] := by simp
    obtain ⟨hmax, hle⟩ := maximum_spec 1 hne
    set m := maximum 1 ((first :: rest).map fun month => |amount month|)
    have hle : ∀ month ∈ first :: rest, |amount month| ≤ m := fun month h => hle _ (List.mem_map_of_mem h)
    obtain ⟨largest, hlargest, hwhole⟩ := List.mem_map.1 hmax
    have hm0 : 0 ≤ m := by
      rw [← hwhole]
      exact abs_nonneg _
    rcases hm0.eq_or_lt with hzero | hmpos
    · -- nothing moved
      have hnone : ∀ month ∈ first :: rest, amount month = 0 := fun month h =>
        abs_eq_zero.1 (le_antisymm (hzero ▸ hle month h) (abs_nonneg _))
      refine ⟨?_, ?_, ?_, ?_⟩
      · simp [← hzero]
      · simp
      · simp [← hzero]
      · rintro ⟨bar, hbar, hne⟩
        obtain ⟨month, hmonth, rfl⟩ := List.mem_map.1 hbar
        exact absurd (hnone month hmonth) hne
    · simp only [if_neg hmpos.ne']
      refine ⟨?_, by simp, ?_, fun _ => ⟨_, List.mem_map_of_mem hlargest, ?_⟩⟩
      · intro bar hbar
        obtain ⟨month, hmonth, rfl⟩ := List.mem_map.1 hbar
        exact share_bounds (abs_nonneg _) hmpos (hle month hmonth)
      · intro bar hbar bar' hbar' h
        obtain ⟨month, -, rfl⟩ := List.mem_map.1 hbar
        obtain ⟨month', -, rfl⟩ := List.mem_map.1 hbar'
        exact share_mono hmpos h
      · dsimp only at hwhole ⊢
        rw [hwhole, share_whole hmpos]

/-! ## What the page reads -/

/-- the page reads the ledger through the balances, its recent transactions apart -/
theorem getContextData_congr (h : Integrity db) (h' : Integrity db') (hchart : chartOfAccounts db = chartOfAccounts db')
    (hbalance : accountBalance db = accountBalance db') (hyear : 2 ≤ today.year) :
    ∃ ctx ctx', getContextData db defaultCurrency user today = some ctx ∧
      getContextData db' defaultCurrency user today = some ctx' ∧
      ctx' = { ctx with recentTransactions := ctx'.recentTransactions } := by
  obtain ⟨first, rest, hmonths, -, hconsecutive, -⟩ := cashflowMonths_some hyear
  obtain ⟨haccount, hids, hfixed, hcode⟩ : db.account = db'.account ∧ db.accountIds = db'.accountIds ∧
      db.fixedTerm = db'.fixedTerm ∧ db.currencyCode = db'.currencyCode := by
    simpa only [chartOfAccounts, ChartOfAccounts.mk.injEq] using hchart
  have hreporting : isReporting db defaultCurrency = isReporting db' defaultCurrency := by
    funext i
    rw [isReporting, isReporting, haccount, hcode]
  have hown : ∀ date, ownBalance db defaultCurrency user date = ownBalance db' defaultCurrency user date := by
    intro date
    rw [ownBalance, ownBalance, haccount, hids, hreporting, hbalance]
  have hmoved : ∀ n, 1 ≤ n → moved db defaultCurrency user (· < n) = moved db' defaultCurrency user (· < n) := by
    intro n hn
    rw [← ownBalance_eq_moved h hn, ← ownBalance_eq_moved h' hn, hown]
  have hcashflow : cashflowChart db defaultCurrency user (first :: rest) =
      cashflowChart db' defaultCurrency user (first :: rest) := by
    have hamount : ∀ m ∈ first :: rest, monthAmount (cashflowEntries db defaultCurrency user (first :: rest)) m =
        monthAmount (cashflowEntries db' defaultCurrency user (first :: rest)) m := by
      intro m hm
      rw [monthAmount_eq h hconsecutive hm, monthAmount_eq h' hconsecutive hm, hmoved _ (one_le_monthEnd m),
        hmoved _ (one_le_ordinal m)]
    have hlargest := List.map_congr_left fun m hm => congrArg abs (hamount m hm)
    rw [cashflowChart, cashflowChart]
    dsimp only
    rw [hlargest]
    exact List.map_congr_left fun m hm => by rw [hamount m hm]
  have haccounts : accounts db user = accounts db' user := by rw [accounts, accounts, haccount, hids]
  have hreportings : reportingAccounts db defaultCurrency user = reportingAccounts db' defaultCurrency user := by
    rw [reportingAccounts, reportingAccounts, haccounts, hreporting]
  have haccountChart : accountChart db = accountChart db' := by
    funext l
    rw [accountChart, accountChart, haccount, hbalance]
  have hnext : nextMaturity db user today = nextMaturity db' user today := by
    rw [nextMaturity, nextMaturity, haccounts, haccount, hfixed]
  refine ⟨_, _, by rw [getContextData, hmonths]; rfl, by rw [getContextData, hmonths]; rfl, ?_⟩
  simp only [haccount, hbalance, hcashflow, haccounts, hreportings, haccountChart, hnext]

/-! ## Runs -/

/-- **The page explains itself.** After any run, the six bars are the changes of balance of the last six months, and with
the balance before them and what is dated later they make up the net worth, archived accounts apart. -/
theorem dashboard_explained (currencyCode : ℕ → String) (security : ℕ → Security) (ops : List Op) (user : ℕ)
    (hyear : 2 ≤ today.year) :
    ∃ first rest ctx,
      getContextData (Machine.run step (Db.init currencyCode security) ops) defaultCurrency user today = some ctx ∧
      Explained (Machine.run step (Db.init currencyCode security) ops) defaultCurrency user today first rest ctx :=
  explained (run_integrity (init_integrity currencyCode security) ops) hyear

/-- the Ides of March -/
def march15 : CivilDate := ⟨2026, 3, 15, by decide, by decide, by decide⟩

/-- a salary in January and a transfer in March -/
def salaryAndTransfer : List Op :=
  [.createAccount 1 (plainForm .checking 1), .createAccount 1 (plainForm .savings 1),
    .createDeposit 1 0 100 739640 "Salary" .income "", .createTransfer 1 0 1 40 739690 "Savings" ""]

theorem dashboard_explained_salary :
    ∃ first rest ctx, getContextData (Machine.run step (Db.init (fun _ => "EUR") fun _ => ⟨"ETF", 1, true⟩)
        salaryAndTransfer) "EUR" 1 march15 = some ctx ∧
      Explained (Machine.run step (Db.init (fun _ => "EUR") fun _ => ⟨"ETF", 1, true⟩) salaryAndTransfer) "EUR" 1 march15
        first rest ctx :=
  dashboard_explained (fun _ => "EUR") (fun _ => ⟨"ETF", 1, true⟩) salaryAndTransfer 1 (by decide)

/-- **Transfers are no income and no expense.** After any run, any number of transfers changes no bar of anybody's page,
and no net worth unless one of them moves money between an active and an archived account. -/
theorem transfers_unseen (currencyCode : ℕ → String) (security : ℕ → Security) (ops : List Op)
    (transfers : List Transfer) (user : ℕ) (hyear : 2 ≤ today.year) :
    ∃ ctx ctx', getContextData (Machine.run step (Db.init currencyCode security) ops) defaultCurrency user today = some ctx ∧
      getContextData (Machine.run step (Db.init currencyCode security) (ops ++ transfers.map Transfer.op)) defaultCurrency
        user today = some ctx' ∧ ctx'.cashflowChart = ctx.cashflowChart ∧
      ((∀ t ∈ transfers, ((Machine.run step (Db.init currencyCode security) ops).account t.source).active =
        ((Machine.run step (Db.init currencyCode security) ops).account t.destination).active) →
        ctx'.netWorth = ctx.netWorth) := by
  rw [Machine.run_append]
  obtain ⟨first, rest, hmonths, -⟩ := cashflowMonths_some hyear
  obtain ⟨ctx, hctx, hchart⟩ := getContextData_some _ defaultCurrency user hmonths
  obtain ⟨ctx', hctx', hchart'⟩ := getContextData_some _ defaultCurrency user hmonths
  obtain ⟨hsame, hworth⟩ := run_transfers
    (run_integrity (init_integrity currencyCode security) ops) transfers
  refine ⟨ctx, ctx', hctx, hctx', ?_, fun hactive => ?_⟩
  · rw [hchart', hchart, hsame]
  · rw [getContextData_netWorth hctx', getContextData_netWorth hctx, hworth hactive]

theorem transfers_unseen_savings :
    ∃ ctx ctx', getContextData (Machine.run step (Db.init (fun _ => "EUR") fun _ => ⟨"ETF", 1, true⟩)
        salaryAndTransfer) "EUR" 1 march15 = some ctx ∧
      getContextData (Machine.run step (Db.init (fun _ => "EUR") fun _ => ⟨"ETF", 1, true⟩)
        (salaryAndTransfer ++ [⟨1, 1, 0, 15, 739691, "Back", ""⟩].map Transfer.op)) "EUR" 1 march15 = some ctx' ∧
      ctx'.cashflowChart = ctx.cashflowChart ∧
      ((∀ t ∈ [(⟨1, 1, 0, 15, 739691, "Back", ""⟩ : Transfer)],
        ((Machine.run step (Db.init (fun _ => "EUR") fun _ => ⟨"ETF", 1, true⟩) salaryAndTransfer).account t.source).active =
        ((Machine.run step (Db.init (fun _ => "EUR") fun _ => ⟨"ETF", 1, true⟩) salaryAndTransfer).account
          t.destination).active) → ctx'.netWorth = ctx.netWorth) :=
  transfers_unseen (fun _ => "EUR") (fun _ => ⟨"ETF", 1, true⟩) salaryAndTransfer [⟨1, 1, 0, 15, 739691, "Back", ""⟩] 1
    (by decide)

/-- **Order does not show.** After any run, cash requests may come in any order: the same ones are accepted, and the pages
of all users show the same, their recent transactions apart. -/
theorem page_any_order (currencyCode : ℕ → String) (security : ℕ → Security) (ops : List Op) {requests requests' : List Op}
    (hcash : ∀ op ∈ requests, isCash op) (hperm : requests.Perm requests') (user : ℕ) (hyear : 2 ≤ today.year) :
    (Increments.accepted step (Machine.run step (Db.init currencyCode security) ops) requests).Perm
        (Increments.accepted step (Machine.run step (Db.init currencyCode security) ops) requests') ∧
      ∃ ctx ctx',
        getContextData (Machine.run step (Db.init currencyCode security) (ops ++ requests)) defaultCurrency user today =
            some ctx ∧
          getContextData (Machine.run step (Db.init currencyCode security) (ops ++ requests')) defaultCurrency user today =
              some ctx' ∧
            ctx' = { ctx with recentTransactions := ctx'.recentTransactions } := by
  obtain ⟨hchart, haccepted, hbalance⟩ :=
    cash_any_order (Machine.run step (Db.init currencyCode security) ops) hcash hperm
  refine ⟨haccepted, ?_⟩
  rw [← Machine.run_append, ← Machine.run_append] at hchart hbalance
  exact getContextData_congr (run_integrity (init_integrity currencyCode security) _)
    (run_integrity (init_integrity currencyCode security) _) hchart hbalance hyear

theorem page_any_order_salaryWeek :
    (Increments.accepted step (Machine.run step (Db.init (fun _ => "EUR") fun _ => ⟨"ETF", 1, true⟩) twoAccounts)
        salaryWeek).Perm
        (Increments.accepted step (Machine.run step (Db.init (fun _ => "EUR") fun _ => ⟨"ETF", 1, true⟩) twoAccounts)
          salaryWeek.reverse) ∧
      ∃ ctx ctx',
        getContextData (Machine.run step (Db.init (fun _ => "EUR") fun _ => ⟨"ETF", 1, true⟩) (twoAccounts ++ salaryWeek))
            "EUR" 1 march15 = some ctx ∧
          getContextData (Machine.run step (Db.init (fun _ => "EUR") fun _ => ⟨"ETF", 1, true⟩)
              (twoAccounts ++ salaryWeek.reverse)) "EUR" 1 march15 = some ctx' ∧
            ctx' = { ctx with recentTransactions := ctx'.recentTransactions } :=
  page_any_order (fun _ => "EUR") (fun _ => ⟨"ETF", 1, true⟩) twoAccounts salaryWeek_isCash
    (List.reverse_perm salaryWeek).symm 1 (by decide)

/-- **The charts are drawn to scale.** In every state the account chart shows the largest balances first, each with its
share of the largest, and the bars of the cash flow have their shares of the highest bar. -/
theorem charts_scaled (db : Db) (defaultCurrency : String) (user : ℕ) (hyear : 2 ≤ today.year) :
    ∃ ctx, getContextData db defaultCurrency user today = some ctx ∧
      LargestFirst db (reportingAccounts db defaultCurrency user) ctx.accountChart ∧ BarsScaled ctx.cashflowChart := by
  obtain ⟨first, rest, hmonths, -⟩ := cashflowMonths_some hyear
  refine ⟨_, by rw [getContextData, hmonths]; rfl, accountChart_largestFirst db _, ?_⟩
  exact cashflowChart_scaled db defaultCurrency user (first :: rest)

theorem charts_scaled_salary :
    ∃ ctx, getContextData (Machine.run step (Db.init (fun _ => "EUR") fun _ => ⟨"ETF", 1, true⟩) salaryAndTransfer) "EUR" 1
        march15 = some ctx ∧
      LargestFirst (Machine.run step (Db.init (fun _ => "EUR") fun _ => ⟨"ETF", 1, true⟩) salaryAndTransfer)
        (reportingAccounts (Machine.run step (Db.init (fun _ => "EUR") fun _ => ⟨"ETF", 1, true⟩) salaryAndTransfer) "EUR" 1)
        ctx.accountChart ∧ BarsScaled ctx.cashflowChart :=
  charts_scaled (Machine.run step (Db.init (fun _ => "EUR") fun _ => ⟨"ETF", 1, true⟩) salaryAndTransfer) "EUR" 1 (by decide)

end Vault67.Dashboard
