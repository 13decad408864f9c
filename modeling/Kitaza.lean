import Kitaza.KeyedTable
import Kitaza.Versions
import Kitaza.Calendar
import Kitaza.Primitives
import Kitaza.Rounding
import Kitaza.Access
import Kitaza.Schema
import Kitaza.Payloads
import Kitaza.ProductService
import Kitaza.SaleRepository
import Kitaza.SaleService
import Kitaza.SaleEffects
import Kitaza.ArrivalTotals
import Kitaza.InventoryService
import Kitaza.ExpenseService
import Kitaza.WithdrawalService
import Kitaza.SyncPush
import Kitaza.RowEffects
import Kitaza.SaleMoney
import Kitaza.StableSort
import Kitaza.RowIndependence
import Kitaza.StockLedger
import Kitaza.SyncQueue
import Kitaza.PhoneDatabase
import Kitaza.PhoneLedger
import Kitaza.OutboxDelivery
import Kitaza.SyncCoordinator
import Kitaza.StoreRefusal
import Kitaza.OfflineStock
import Kitaza.KeysetPaging
import Kitaza.SyncPull
import Kitaza.PullCompleteness
import Kitaza.CostMasking
import Kitaza.CostBlindness
import Kitaza.Catalogue
import Kitaza.CostOracle
import Kitaza.DeletionFinality
import Kitaza.ActivityLog
import Kitaza.SaleAcceptance
import Kitaza.PushFrame
import Kitaza.ForeignIds
import Kitaza.CostKeeping
import Kitaza.PhoneStorage
import Kitaza.DownloadCursor
import Kitaza.DownloadSteps
import Kitaza.PrivateRecords
import Kitaza.OutboxDrain
import Kitaza.RefusedStores
import Kitaza.UploadedRecords
import Kitaza.CloudAcceptance
import Kitaza.CloudUpgrade
import Kitaza.ConcurrentStock
import Kitaza.BillingPlan
import Kitaza.BillingRepository
import Kitaza.PaidTime
import Kitaza.PaymentConfirmation
import Kitaza.SessionDirectory
import Kitaza.SessionServer
import Kitaza.SessionFreshness
import Kitaza.SessionWrites
import Kitaza.SessionSafety
import Kitaza.RefreshAnswers
import Kitaza.ReportWindows
import Kitaza.BusinessScore
import Kitaza.Dashboard
import Kitaza.DashboardCache
import Kitaza.DashboardFreshness
import Kitaza.Benchmarks
import Kitaza.BenchmarkService
import Kitaza.BenchmarkPrivacy
import Kitaza.DecimalText
import Kitaza.TimestampText
import Kitaza.PhoneDashboard
import Kitaza.PhoneTraces
import Kitaza.PhoneHandover
import Kitaza.BusinessScoreCalculator
import Kitaza.PaymentOrder
import Kitaza.AnnouncedPause
import Kitaza.TopRanked
import Kitaza.UnusualExpenses
import Kitaza.TransientFailures
import Kitaza.Barcodes
import Kitaza.SaleHeader
import Kitaza.StockColumns
import Kitaza.SaleHistory
import Kitaza.DecimalRange
import Kitaza.TiedOrder
import Kitaza.PushOrder
import Kitaza.SyncBackoff
import Kitaza.SellingDays
import Kitaza.RestockAdvisor
import Kitaza.PriceAdvisor
import Kitaza.Registration
import Kitaza.RegistrationConsent
import Kitaza.StoreLimit
import Kitaza.AccountPurge
import Kitaza.PurgeAccounting
import Kitaza.SessionHousekeeping
import Kitaza.HousekeepingEffects
import Kitaza.JoinCodeUse
import Kitaza.TokenRenewal
import Kitaza.RenewalSafety
import Kitaza.ReceiptWrap
import Kitaza.EscPosEncoder
import Kitaza.ActivityPaging
import Kitaza.WebhookSignature
import Kitaza.RateLimiting
import Kitaza.ErrorReports
import Kitaza.ErrorUpload
import Kitaza.ReceiptPaper
import Kitaza.BroadcastChannel
import Kitaza.Realtime
import Kitaza.RealtimeDelivery
import Kitaza.RealtimeAccess
import Kitaza.PhoneMirror
import Kitaza.Grouping
import Kitaza.Reports
import Kitaza.PhoneReports
import Kitaza.EventLog
import Kitaza.LiveConnection
import Kitaza.SyncScheduling
import Kitaza.SqlTables
import Kitaza.LocalSchema
import Kitaza.NewestKept
import Kitaza.AutomaticBackups
import Kitaza.BillingService
import Kitaza.PaidCheckouts
import Kitaza.Seasonality
import Kitaza.Insights
