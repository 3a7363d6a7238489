/-
Imported rows in the tax report.

An imported row is typed by the keywords that its description contains, anywhere in it; the report counts interest that
was received and taxes that were paid. So a taxi fare counts as a tax payment.

- `mentions_iff`: a keyword occurs in a description exactly when it occurs in one of its words.
- `typed_bySign_iff`: so a row is a plain deposit or withdrawal exactly when none of its words contains a keyword.
- `summary_post`: posting a deposit or a withdrawal leaves every tax year summary as it is.
- `onlyTaxLike_iff`: exactly which rows without a tax-like word are typed by a part of some other word.
-/
import Mathlib.Tactic
import Vault67.Ledger.Statements
import Vault67.Lib.Words
import Vault67.Tax.Reductions

namespace Vault67.Tax

open Fallible Ledger

/-! ## Words of a description -/

/-- which characters are letters: among them all whose case folding contains an ASCII letter -/
structure Alphabet where
  letter : Char → Bool
  folded : ∀ c, letter c = false → ∀ x ∈ foldChar c, x.isLower = false

/-- the maximal runs of letters -/
def Alphabet.words (a : Alphabet) (description : String) : List (List Char) := Words.words a.letter description.toList

/-- the keywords of `_transaction_type` -/
def keywords : List String := ["interest", "tax", "fee", "charge"]

/-- the words that make a description tax-like -/
def taxWords : List String :=
  ["interest", "interests", "tax", "taxes", "taxed", "taxation", "fee", "fees", "charge", "charges", "charged"]

/-- one of its words is tax-like, in whatever case -/
def Alphabet.TaxLike (a : Alphabet) (description : String) : Prop :=
  ∃ w ∈ a.words description, ∃ word ∈ taxWords, w.flatMap foldChar = word.toList

/-- one of its words contains a keyword, in whatever case -/
def Alphabet.HasKeyword (a : Alphabet) (description : String) : Prop :=
  ∃ w ∈ a.words description, ∃ keyword ∈ keywords, keyword.toList <:+: w.flatMap foldChar

instance (a : Alphabet) (description : String) : Decidable (a.TaxLike description) :=
  inferInstanceAs (Decidable (∃ w ∈ a.words description, ∃ word ∈ taxWords, _))

instance (a : Alphabet) (description : String) : Decidable (a.HasKeyword description) :=
  inferInstanceAs (Decidable (∃ w ∈ a.words description, ∃ keyword ∈ keywords, _))

theorem foldChar_ne_nil (c : Char) : foldChar c ≠ [] := by
  unfold foldChar
  split_ifs
  · exact List.cons_ne_nil _ _
  · split <;> exact List.cons_ne_nil _ _

theorem mentions_iff (a : Alphabet) (description : String) {keyword : String} (h : keyword ∈ keywords) :
    mentions (casefold description) keyword ↔
      ∃ w ∈ a.words description, keyword.toList <:+: w.flatMap foldChar := by
  have hletters : ∀ keyword ∈ keywords, keyword.toList ≠ [] ∧ keyword.toList.all Char.isLower = true := by decide
  obtain ⟨hne, hlower⟩ := hletters keyword h
  apply Words.infix_flatMap_iff hne
  intro c hc
  refine ⟨foldChar_ne_nil c, fun x hx hmem => ?_⟩
  exact Bool.noConfusion ((a.folded c hc x hx).symm.trans (List.all_eq_true.1 hlower x hmem))

/-- the type that the sign of the amount gives -/
def signType (amount : ℚ) : TransactionType := if 0 < amount then .deposit else .withdrawal

theorem transactionTypeOf_eq_signType_iff (a : Alphabet) (description : String) (amount : ℚ) :
    transactionTypeOf description amount = signType amount ↔ ¬a.HasKeyword description := by
  have hkeyword : a.HasKeyword description ↔ ∃ keyword ∈ keywords, mentions (casefold description) keyword := by
    refine ⟨?_, ?_⟩
    · rintro ⟨w, hw, keyword, hmem, hin⟩
      exact ⟨keyword, hmem, (mentions_iff a description hmem).2 ⟨w, hw, hin⟩⟩
    · rintro ⟨keyword, hmem, hmentions⟩
      obtain ⟨w, hw, hin⟩ := (mentions_iff a description hmem).1 hmentions
      exact ⟨w, hw, keyword, hmem, hin⟩
  have hsign : signType amount ≠ .interest ∧ signType amount ≠ .tax ∧ signType amount ≠ .fee := by
    unfold signType
    split_ifs <;> decide
  rw [hkeyword]
  simp only [keywords, List.exists_mem_cons_iff, List.not_mem_nil, false_and, exists_false, or_false, transactionTypeOf]
  by_cases hinterest : mentions (casefold description) "interest"
  · rw [if_pos hinterest]
    exact iff_of_false hsign.1.symm (not_not.2 (Or.inl hinterest))
  rw [if_neg hinterest]
  by_cases htax : mentions (casefold description) "tax"
  · rw [if_pos htax]
    exact iff_of_false hsign.2.1.symm (not_not.2 (Or.inr (Or.inl htax)))
  rw [if_neg htax]
  by_cases hfee : mentions (casefold description) "fee" ∨ mentions (casefold description) "charge"
  · rw [if_pos hfee]
    exact iff_of_false hsign.2.2.symm (not_not.2 (Or.inr (Or.inr hfee)))
  rw [if_neg hfee]
  exact iff_of_true rfl (by tauto)

/-! ## The tax report -/

/-- the summary reads no transaction and no entry but through these three lists -/
theorem summary_congr {db db' : Db} {fx : Fx} {tables : TaxTables} {taxYear : TaxYear}
    (hledger : db' = { db with
      transactions := db'.transactions
      entries := db'.entries
      nextTransaction := db'.nextTransaction
      nextEntry := db'.nextEntry })
    (hinterest : interestEntries db' taxYear = interestEntries db taxYear)
    (htax : taxEntries db' taxYear = taxEntries db taxYear) (hreview : unclassified db' taxYear = unclassified db taxYear) :
    buildTaxYearSummary db' fx tables taxYear = buildTaxYearSummary db fx tables taxYear := by
  have hdividends : dividends db' taxYear = dividends db taxYear := by rw [hledger]; rfl
  have haccounts : brokerageAccounts db' taxYear = brokerageAccounts db taxYear := by rw [hledger]; rfl
  have hitem : dividendItem db' fx taxYear = dividendItem db fx taxYear := by rw [hledger]; rfl
  have haccount : brokerageAccount db' fx taxYear = brokerageAccount db fx taxYear := by rw [hledger]; rfl
  have hsummarize : summarize db' taxYear = summarize db taxYear := by
    funext s b
    rw [summarize, summarize, reviewReasons, reviewReasons, hreview]
  rw [buildTaxYearSummary, buildTaxYearSummary, collect, collect, collectEvents, collectEvents, hinterest, htax, hdividends,
    haccounts, hitem, haccount, hsummarize]

/-- a posting that neither the report nor the review looks for -/
theorem summary_post {db : Db} {t : Transaction} {e : TransactionEntry} (he : e.transaction = t)
    (htype : t.transactionType ∈ [TransactionType.deposit, .withdrawal]) (fx : Fx) (tables : TaxTables)
    (taxYear : TaxYear) :
    buildTaxYearSummary (db.post t [e] []) fx tables taxYear = buildTaxYearSummary db fx tables taxYear := by
  have hnot : t.transactionType ≠ .interest ∧ t.transactionType ≠ .tax ∧ t.transactionType ≠ .income ∧
      t.transactionType ≠ .adjustment ∧ t.transactionType ≠ .dividend := by
    simp only [List.mem_cons, List.not_mem_nil, or_false] at htype
    rcases htype with h | h <;> rw [h] <;> decide
  obtain ⟨hinterest, htax, hincome, hadjustment, hdividend⟩ := hnot
  apply summary_congr
  · simp [Db.post]
  · simp [interestEntries, he, hinterest]
  · simp [taxEntries, he, htax]
  · simp [unclassified, unclassifiedIncome, genericDividends, hincome, hadjustment, hdividend, Db.hasInvestmentDetail]

/-! ## Rows without a tax-like word -/

/-- the figures that interest and taxes enter -/
def figures (summary : Except Error TaxYearSummary) : Except Error (ℚ × ℚ × ℚ) :=
  summary.map fun s => (s.grossInterest, s.taxPaid, s.estimatedTaxDue)

/-- a row is typed by its sign, and posting it leaves the figures of every report as they are -/
structure Plain (row : ImportedRow) : Prop where
  positive : 0 < row.amount → row.transactionType = .deposit
  negative : row.amount < 0 → row.transactionType = .withdrawal
  report : ∀ (db db' : Db) (owner account : ℕ), create db owner account row.amount row.transactionType row.transactionDate
    row.description row.notes row.reference = .ok db' → ∀ (fx : Fx) (tables : TaxTables) (taxYear : TaxYear),
      figures (buildTaxYearSummary db' fx tables taxYear) = figures (buildTaxYearSummary db fx tables taxYear)

/-- only a tax-like row is more than a deposit or a withdrawal -/
def OnlyTaxLike (a : Alphabet) (row : ImportedRow) : Prop := ¬a.TaxLike row.description → Plain row

theorem signType_mem (amount : ℚ) : signType amount ∈ [TransactionType.deposit, .withdrawal] := by
  unfold signType
  split_ifs <;> decide

theorem plain_of_signType {row : ImportedRow} (h : row.transactionType = signType row.amount) : Plain row where
  positive := fun hpos => h.trans (if_pos hpos)
  negative := fun hneg => h.trans (if_neg hneg.not_gt)
  report := by
    intro db db' owner account hcreate fx tables taxYear
    simp only [create, ite_error_eq_ok, bind_eq_ok] at hcreate
    obtain ⟨-, -, ⟨t, db₁⟩, ht, he⟩ := hcreate
    obtain ⟨-, -, -, htype, rfl⟩ := createTransaction_ok ht
    obtain ⟨e, -, -, het, -, -, -, -, rfl⟩ := createEntry_ok he
    rw [Db.addEntry_addTransaction, summary_post het (by rw [htype, h]; exact signType_mem _)]

theorem plain_iff {row : ImportedRow} (hne : row.amount ≠ 0) : Plain row ↔ row.transactionType = signType row.amount := by
  refine ⟨fun h => ?_, plain_of_signType⟩
  rcases lt_or_gt_of_ne hne with hneg | hpos
  · exact (h.negative hneg).trans (if_neg hneg.not_gt).symm
  · exact (h.positive hpos).trans (if_pos hpos).symm

/-- **Exactly the rows whose other words hide no keyword.** For every row read from a file of either format: it is a plain
deposit or withdrawal, unless it is tax-like, exactly when it is tax-like or no word of it contains a keyword. -/
theorem onlyTaxLike_iff (a : Alphabet) {lib : Libraries} {file : Upload} {rows : List ImportedRow}
    (h : parseFile lib file = .ok rows) {row : ImportedRow} (hrow : row ∈ rows) :
    OnlyTaxLike a row ↔ a.TaxLike row.description ∨ ¬a.HasKeyword row.description := by
  have hplain : Plain row ↔ ¬a.HasKeyword row.description := by
    rw [plain_iff (parseFile_storable h row hrow).amount_ne, row.typed]
    exact transactionTypeOf_eq_signType_iff a row.description row.amount
  rw [OnlyTaxLike, hplain, ← or_iff_not_imp_left]

/-! ## A taxi fare -/

/-- the characters whose case folding contains an ASCII letter, and no others -/
def latinAlphabet : Alphabet where
  letter c := (foldChar c).any Char.isLower
  folded _ hc x hx := Bool.eq_false_iff.2 fun hx' => List.any_eq_false.1 hc x hx hx'

def taxiFile : Upload := ⟨"statement.csv", "Transaction Date,Description,Amount\n2026-01-02,Taxi,-12.00\n".toUTF8⟩

def taxiRow : ImportedRow := ⟨739618, "Taxi", -12, .tax, "", "", none, by decide⟩

/-- the calendar year 2026 of the owner of `euroDb` -/
def euroYear : TaxYear := ⟨1, 7, "2026", "DE", 739617, 739981, 3, .open, "", by decide⟩

theorem parseFile_taxiFile : parseFile longLibraries taxiFile = .ok [taxiRow] := by
  obtain ⟨rows, hrows, rfl⟩ := exists_ok_of_check (x := parseFile longLibraries taxiFile) (p := (· = [taxiRow]))
    (by decide +kernel)
  exact hrows

/-- it is imported as a tax, and the report counts it as a payment of 12 -/
theorem taxi_counted_as_payment :
    parseFile longLibraries taxiFile = .ok [taxiRow] ∧ ¬OnlyTaxLike latinAlphabet taxiRow ∧
      ∃ db', create euroDb 7 5 taxiRow.amount taxiRow.transactionType taxiRow.transactionDate taxiRow.description
          taxiRow.notes taxiRow.reference = .ok db' ∧
        figures (buildTaxYearSummary euroDb ⟨[], 800000⟩ ⟨[], [], [], []⟩ euroYear) = .ok (0, 0, 0) ∧
        figures (buildTaxYearSummary db' ⟨[], 800000⟩ ⟨[], [], [], []⟩ euroYear) = .ok (0, 12, 0) := by
  refine ⟨parseFile_taxiFile, fun h => ?_, ?_⟩
  · exact absurd ((h (by decide +kernel)).negative (by decide +kernel)) (by decide)
  · obtain ⟨db', hcreate, hfigures⟩ := exists_ok_of_check (x := create euroDb 7 5 taxiRow.amount taxiRow.transactionType
        taxiRow.transactionDate taxiRow.description taxiRow.notes taxiRow.reference)
      (p := fun db' => figures (buildTaxYearSummary db' ⟨[], 800000⟩ ⟨[], [], [], []⟩ euroYear) = .ok (0, 12, 0))
      (by decide +kernel)
    exact ⟨db', hcreate, by decide +kernel, hfigures⟩

theorem onlyTaxLike_iff_taxiFile : OnlyTaxLike latinAlphabet taxiRow ↔
    latinAlphabet.TaxLike taxiRow.description ∨ ¬latinAlphabet.HasKeyword taxiRow.description :=
  onlyTaxLike_iff latinAlphabet parseFile_taxiFile (List.mem_singleton.2 rfl)

end Vault67.Tax
