import PapitalErp.Lib.Rounding
import PapitalErp.Lib.Transition
import PapitalErp.Lib.AssocTotals
import PapitalErp.Lib.PrefixSums
import PapitalErp.FinancialDecimal
import PapitalErp.Inventory.Kardex
import PapitalErp.Inventory.ItemWarehouseStock
import PapitalErp.Inventory.StockMovementDate
import PapitalErp.Inventory.VoidStockHistory
import PapitalErp.Inventory.KardexReplay
import PapitalErp.Documents.StockEngine
import PapitalErp.Documents.KardexConsistency
import PapitalErp.Documents.ReplayAgreement
import PapitalErp.Accounting.InventoryReconciliation
import PapitalErp.Documents.ValueConservation
import PapitalErp.Accounting.InventoryReconciliation
import PapitalErp.Documents.ValueConservation
import PapitalErp.Documents.StockHistory
import PapitalErp.Documents.SellableGate
import PapitalErp.Documents.DocumentVat
import PapitalErp.Documents.ReturnVat
import PapitalErp.Lib.FilteredSums
import PapitalErp.Treasury.ChequeTransitions
import PapitalErp.Treasury.DocumentRemaining
import PapitalErp.Treasury.SettlementAllocation
import PapitalErp.Treasury.SettlementSafety
import PapitalErp.Treasury.ChequeLifecycle
import PapitalErp.Treasury.ChequeLedger
import PapitalErp.CalendarDate
import PapitalErp.Payroll.FixedSalaryProration
import PapitalErp.Payroll.Eidi
import PapitalErp.Lib.Interleaving
import PapitalErp.Documents.ReturnWithinSold
import PapitalErp.System.Idempotency
import PapitalErp.System.IdempotencyAnswers
import PapitalErp.Events.EventKept
import PapitalErp.Events.HandlersKept
import PapitalErp.Accounting.FiscalPeriod
import PapitalErp.Accounting.ClosedYears
import PapitalErp.Accounting.FiscalYearOrder
import PapitalErp.Accounting.VoucherBalance
import PapitalErp.Events.DeliveryLimits
import PapitalErp.Lib.TrimmedText
import PapitalErp.Workflow.Delegation
import PapitalErp.Workflow.OneDeputy
import PapitalErp.Workflow.Quorum
import PapitalErp.Workflow.TransitionExecutor
import PapitalErp.Workflow.QuorumRuns
import PapitalErp.Lib.OldestFirst
import PapitalErp.Reports.AgingReport
import PapitalErp.Reports.AgingFifo
import PapitalErp.Projects.DeliveryCostPlan
import PapitalErp.Projects.ProjectWip
import PapitalErp.Treasury.BankBook
import PapitalErp.Treasury.BankBalance
import PapitalErp.Treasury.OpeningVouchers
import PapitalErp.Treasury.OpeningBalance
import PapitalErp.Accounting.ChartOfAccounts
import PapitalErp.Accounting.ChartTree
import PapitalErp.Lib.SlidingWindow
import PapitalErp.Storefront.LoginCodes
import PapitalErp.Storefront.LoginCodeLimits
import PapitalErp.Storefront.LoginCodeRuns
import PapitalErp.Lib.Binary64
import PapitalErp.Storefront.SiteOrders
import PapitalErp.Storefront.SiteOrderFile
import PapitalErp.Storefront.SiteOrderRuns
import PapitalErp.Storefront.DiscountLimits
import PapitalErp.Users.NoEscalation
import PapitalErp.Auth.Sessions
import PapitalErp.Auth.ClosedSessions
import PapitalErp.Workflow.DefinitionVersions
import PapitalErp.Workflow.VersionLedger
import PapitalErp.Workflow.DefinitionTransactions
import PapitalErp.Workflow.VersionRuns
import PapitalErp.Treasury.BankReconciliation
import PapitalErp.Treasury.ReconciledRows
import PapitalErp.Documents.DocumentNumbers
import PapitalErp.Auth.LoginAnswers
import PapitalErp.Documents.NumberSeries
import PapitalErp.Crm.LeadProforma
import PapitalErp.Crm.LeadPairing
import PapitalErp.Lib.EventLog
import PapitalErp.Messenger.LinkSafety
import PapitalErp.Woocommerce.NothingForgotten
import PapitalErp.Storefront.OrderPricing
import PapitalErp.Storefront.PlaceOrder
import PapitalErp.Storefront.PlacedOrders
import PapitalErp.Lib.LockWaits
import PapitalErp.System.OrderedLocks
import PapitalErp.Storefront.CoveredOrders
import PapitalErp.Storefront.BuyerGroups
import PapitalErp.Lib.MovingList
import PapitalErp.Storefront.GroupPolicies
import PapitalErp.Woocommerce.OpenOrders
import PapitalErp.Woocommerce.EveryOpenOrder
import PapitalErp.Lib.Json
import PapitalErp.System.AuditSanitizer
import PapitalErp.System.AuditRedaction
import PapitalErp.Storefront.BuyerAccounts
import PapitalErp.Storefront.AccountSafety
import PapitalErp.Storefront.AccountRuns
import PapitalErp.Accounting.StockAdjustmentVoucher
import PapitalErp.Documents.StockCount
import PapitalErp.Documents.StockCountExact
import PapitalErp.Reports.SalesDocuments
import PapitalErp.Reports.VatReport
import PapitalErp.Reports.VatReconciles
import PapitalErp.Reports.SalesReport
import PapitalErp.Reports.SalesVouchers
import PapitalErp.Reports.SalesGroups
import PapitalErp.Reports.SalesLedger
import PapitalErp.Reports.SalesAgrees
import PapitalErp.Lib.DecimalTexts
import PapitalErp.Reports.ReportPeriods
import PapitalErp.Lib.SpacedWords
import PapitalErp.Reports.PeriodsExact
import PapitalErp.Texts.PersianWords
import PapitalErp.Texts.AmountInWords
import PapitalErp.Lib.TextPatterns
import PapitalErp.Texts.NumberTexts
import PapitalErp.Texts.NumberTextsAgree
import PapitalErp.Projects.ItemMatch
import PapitalErp.Projects.Reservation
import PapitalErp.Projects.MaterialAvailability
import PapitalErp.Projects.MaterialStatesAgree
import PapitalErp.Projects.MaterialStates
import PapitalErp.Payroll.PayrollVoucher
import PapitalErp.Payroll.PayrollBooks
import PapitalErp.Treasury.CashFlow
import PapitalErp.Inventory.RunningKardex
import PapitalErp.Documents.RunningBalances
import PapitalErp.Documents.RunningKardexAgrees
import PapitalErp.Documents.RunningCosts
import PapitalErp.Documents.CompleteReturns
import PapitalErp.Lib.Lots
import PapitalErp.Projects.ReservationRows
import PapitalErp.Projects.ReservationRelease
import PapitalErp.Projects.ReservationRestore
import PapitalErp.Inventory.OpeningReplay
import PapitalErp.Projects.ReservationPlan
import PapitalErp.Accounting.VoucherFinalize
import PapitalErp.Treasury.DefaultSplit
import PapitalErp.Accounting.ForeignCostRow
import PapitalErp.Payroll.BracketTax
import PapitalErp.Workflow.QuorumAnswers
import PapitalErp.Lib.Grouping
import PapitalErp.Procurement.Consolidation
import PapitalErp.Events.AddressTexts
import PapitalErp.Lib.ByteFields
import PapitalErp.Lib.RoundingDown
import PapitalErp.Projects.PlannedProducts
import PapitalErp.System.ZipReader
import PapitalErp.System.ZipRoundTrip
import PapitalErp.Woocommerce.FeeDiscount
import PapitalErp.Woocommerce.ExactLines
