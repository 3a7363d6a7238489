import Vault67.Lib.Machine
import Vault67.Lib.OrderBy
import Vault67.Lib.Rows
import Vault67.Lib.Fallible
import Vault67.Lib.AverageCost
import Vault67.Lib.Waterfall
import Vault67.Lib.Table
import Vault67.Lib.Session
import Vault67.Core.Fx
import Vault67.Core.Observations
import Vault67.Core.InContext
import Vault67.Ledger.Imports
import Vault67.Ledger.Csv
import Vault67.Ledger.Pdf
import Vault67.Ledger.PdfBlocks
import Vault67.Ledger.CutText
import Vault67.Ledger.CsvErrors
import Vault67.Ledger.Statements
import Vault67.Ledger.RowContract
import Vault67.Investments.InContext
import Vault67.Investments.Replay
import Vault67.Investments.ReplayAgreement
import Vault67.Investments.Posting
import Vault67.Investments.ShortSelling
import Vault67.Accounts.Views
import Vault67.System
import Vault67.Sessions
import Vault67.Ledger.Integrity
import Vault67.Ledger.Currency
import Vault67.Ledger.Shape
import Vault67.Investments.CashConservation
import Vault67.Investments.Link
import Vault67.Ledger.Deletion
import Vault67.Lib.Tally
import Vault67.Lib.Text
import Vault67.Lib.RunningBalance
import Vault67.Lib.Pattern
import Vault67.Lib.Calendar
import Vault67.Lib.Decimal
import Vault67.Investments.Valuation
import Vault67.Investments.PortfolioTotals
import Vault67.Investments.Overview
import Vault67.Investments.Lookahead
import Vault67.Lib.Accumulate
import Vault67.Tax.InContext
import Vault67.Tax.Summary
import Vault67.Tax.Store
import Vault67.Tax.Writes
import Vault67.Tax.Periods
import Vault67.Tax.FiledLock
import Vault67.Tax.ItemDates
import Vault67.Tax.OverallRules
import Vault67.Tax.Monotone
import Vault67.Tax.Completeness
import Vault67.Tax.Coverage
import Vault67.Tax.Adjacent
import Vault67.Tax.Ownership
import Vault67.Tax.OverallRelief
import Vault67.Tax.RuleOrder
import Vault67.Tax.Traces
import Vault67.Investments.Positions
import Vault67.Investments.ReportedCost
import Vault67.Investments.Today
import Vault67.Investments.Preview
import Vault67.Investments.Formats
import Vault67.Lib.DecimalText
import Vault67.Lib.CalendarText
import Vault67.Lib.Increments
import Vault67.Lib.StableOrder
import Vault67.Lib.Months
import Vault67.Ledger.Book
import Vault67.Ledger.Copies
import Vault67.Tax.Treatments
import Vault67.Accounts.DetailPage
import Vault67.Dashboard
import Vault67.Ledger.AmountText
import Vault67.Ledger.Exports
import Vault67.Ledger.ExportReads
import Vault67.Ledger.DateText
import Vault67.Ledger.Forms
import Vault67.Accounts.Contracts
import Vault67.Submissions
import Vault67.Lib.Accrual
import Vault67.Ledger.Interest
import Vault67.Accounts.FixedTerm
import Vault67.Accounts.EditForm
import Vault67.Accounts.EditUnchanged
import Vault67.Lib.Words
import Vault67.Tax.ImportedRows
import Vault67.Lib.CriticalSection
import Vault67.Investments.Concurrent
import Vault67.Investments.ConcurrentSales
import Vault67.Lib.Unwinding
import Vault67.Tenants
import Vault67.Noninterference
import Vault67.Tax.Pages
import Vault67.Tax.PageRuns
import Vault67.Tax.PageErrors
