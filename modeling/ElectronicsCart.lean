import ElectronicsCart.Lib.Prog
import ElectronicsCart.Lib.Interference
import ElectronicsCart.Lib.Callers
import ElectronicsCart.Lib.Histories
import ElectronicsCart.Lib.Marks
import ElectronicsCart.Lib.Debts
import ElectronicsCart.Lib.Table
import ElectronicsCart.Lib.Allocation
import ElectronicsCart.Lib.ReadThrough
import ElectronicsCart.Lib.Formulas
import ElectronicsCart.Lib.Trails
import ElectronicsCart.Core.Environment
import ElectronicsCart.Core.Lock
import ElectronicsCart.Core.Alone
import ElectronicsCart.Core.Exclusion
import ElectronicsCart.Core.Values
import ElectronicsCart.Core.Cache
import ElectronicsCart.Marketing.Loyalty
import ElectronicsCart.Auth.Refresh
import ElectronicsCart.Auth.TokenEffects
import ElectronicsCart.Auth.Families
import ElectronicsCart.Auth.FamilyRuns
import ElectronicsCart.Shop.Schema
import ElectronicsCart.Shop.State
import ElectronicsCart.Rules.Operators
import ElectronicsCart.Rules.Engine
import ElectronicsCart.Rules.Conditions
import ElectronicsCart.Marketing.Coupons
import ElectronicsCart.Marketing.CouponCache
import ElectronicsCart.Access.Views
import ElectronicsCart.Access.Ownership
import ElectronicsCart.Inventory.Service
import ElectronicsCart.Inventory.Units
import ElectronicsCart.Inventory.Backing
import ElectronicsCart.Inventory.StockRuns
import ElectronicsCart.Inventory.ReleaseRuns
import ElectronicsCart.Payments.Service
import ElectronicsCart.Payments.Flows
import ElectronicsCart.Core.Saga
import ElectronicsCart.Workflow.Coordinator
import ElectronicsCart.Workflow.Journal
import ElectronicsCart.Workflow.Completion
import ElectronicsCart.Workflow.Unwinding
import ElectronicsCart.Workflow.Timeouts
import ElectronicsCart.Orders.Checkout
import ElectronicsCart.Orders.Service
import ElectronicsCart.Warranty.Rma
import ElectronicsCart.Shop.Effects
import ElectronicsCart.Orders.CheckoutEffects
import ElectronicsCart.Payments.Refunds
import ElectronicsCart.Payments.RefundRuns
import ElectronicsCart.Payments.Webhooks
import ElectronicsCart.Payments.WebhookRuns
import ElectronicsCart.Payments.StatusRuns
import ElectronicsCart.Payments.ConfirmRuns
import ElectronicsCart.Payments.RaceRuns
import ElectronicsCart.Orders.FailedCheckouts
import ElectronicsCart.Orders.SettlementRuns
import ElectronicsCart.Warranty.RefundCalls
import ElectronicsCart.Orders.ReturnRuns
import ElectronicsCart.Orders.FulfillmentRuns
import ElectronicsCart.Orders.StatusEffects
import ElectronicsCart.Orders.HistoryRuns
import ElectronicsCart.Orders.CancelRuns
import ElectronicsCart.Orders.CartRuns
import ElectronicsCart.Shop.Goods
import ElectronicsCart.Orders.PlacementRuns
import ElectronicsCart.Orders.PaymentRuns
import ElectronicsCart.Payments.SavedMethods
import ElectronicsCart.Inventory.Ledger
import ElectronicsCart.Inventory.TransferRuns
import ElectronicsCart.Inventory.AlertRuns
import ElectronicsCart.Inventory.GreedyLoops
import ElectronicsCart.Core.Journal
import ElectronicsCart.Payments.DeliveryRuns
import ElectronicsCart.Inventory.LedgerRuns
import ElectronicsCart.Inventory.StockCache
import ElectronicsCart.Inventory.StockCacheRuns
import ElectronicsCart.Shop.Desk
import ElectronicsCart.Orders.Carts
import ElectronicsCart.Orders.CartViews
import ElectronicsCart.Orders.CartStatusRuns
import ElectronicsCart.Orders.CartOwnerRuns
import ElectronicsCart.Auth.Otp
import ElectronicsCart.Auth.OtpRuns
import ElectronicsCart.Auth.Login
import ElectronicsCart.Auth.LoginRuns
import ElectronicsCart.Cases.Definitions
import ElectronicsCart.Cases.State
import ElectronicsCart.Cases.Stores
import ElectronicsCart.Cases.Manager
import ElectronicsCart.Cases.ServiceOps
import ElectronicsCart.Cases.Registrations
import ElectronicsCart.Cases.Effects
import ElectronicsCart.Cases.Runs
import ElectronicsCart.Cases.Guarding
import ElectronicsCart.Cases.ClaimRuns
import ElectronicsCart.Cases.RegistrationRuns
import ElectronicsCart.Cases.ExtensionRuns
import ElectronicsCart.Cases.EscalationRuns
import ElectronicsCart.Cases.StoreRuns
import ElectronicsCart.Cases.EventRuns
import ElectronicsCart.Cases.StatusEdges
import ElectronicsCart.Cases.RepairClock
import ElectronicsCart.Core.Calendar
import ElectronicsCart.Core.Idempotency
import ElectronicsCart.Core.IdempotencyRuns
import ElectronicsCart.Core.LockLeases
import ElectronicsCart.Core.Throttler
import ElectronicsCart.Marketing.CouponApply
import ElectronicsCart.Marketing.CouponRuns
import ElectronicsCart.Marketing.OrderCoupons
import ElectronicsCart.Orders.OrderViewRuns
import ElectronicsCart.Shipping.RateRuns
import ElectronicsCart.Shipping.Service
import ElectronicsCart.Shipping.StatusRuns
import ElectronicsCart.Shipping.TrackingRuns
import ElectronicsCart.Shipping.WebhookRuns
import ElectronicsCart.Lib.Csv
import ElectronicsCart.Analytics.Export
import ElectronicsCart.Orders.CartCheckout
import ElectronicsCart.Payments.Razorpay
import ElectronicsCart.Inventory.ReserveFailures
import ElectronicsCart.Payments.AttemptRuns
import ElectronicsCart.Marketing.Recommendations
import ElectronicsCart.Analytics.Alerts
import ElectronicsCart.Lib.Forests
import ElectronicsCart.Catalog.Categories
import ElectronicsCart.Catalog.Products
import ElectronicsCart.Catalog.ProductRuns
import ElectronicsCart.Orders.CartLines
import ElectronicsCart.Lib.WeightedScan
import ElectronicsCart.Marketing.AbTests
import ElectronicsCart.Lib.Rankings
import ElectronicsCart.Lib.Doubles
import ElectronicsCart.Analytics.Rfm
import ElectronicsCart.Analytics.Reports
import ElectronicsCart.Core.Gregorian
import ElectronicsCart.Cases.EndDates
import ElectronicsCart.Cases.BreachRuns
import ElectronicsCart.Shipping.QuoteRuns
import ElectronicsCart.Lib.Settling
import ElectronicsCart.Core.LockOutcomes
import ElectronicsCart.Core.Pagination
import ElectronicsCart.Inventory.ReceiptRuns
import ElectronicsCart.Shipping.SyncRuns
import ElectronicsCart.Shipping.RtoRuns
import ElectronicsCart.Marketing.Eligibility
import ElectronicsCart.Marketing.FeatureFlags
import ElectronicsCart.Metrics.Sanitize
import ElectronicsCart.Events.EventBus
import ElectronicsCart.Metrics.BufferedExporter
import ElectronicsCart.Auth.Destinations
import ElectronicsCart.Warranty.SpareParts
import ElectronicsCart.Rules.Orderings
import ElectronicsCart.Rules.ActionRuns
import ElectronicsCart.Core.Slugs
import ElectronicsCart.Cases.Deadlines
import ElectronicsCart.Rules.Lookups
import ElectronicsCart.Rules.Agreement
import ElectronicsCart.Lib.Serial
import ElectronicsCart.Core.LockTurns
import ElectronicsCart.Payments.RefundTurns
import ElectronicsCart.Warranty.Loans
import ElectronicsCart.Lib.Xml
import ElectronicsCart.Analytics.Spreadsheet
import ElectronicsCart.Lib.Contention
import ElectronicsCart.Access.Permissions
import ElectronicsCart.Lib.Json
import ElectronicsCart.Core.JsonTexts
import ElectronicsCart.Core.CacheTexts
import ElectronicsCart.Auth.Firebase
import ElectronicsCart.Auth.FirebaseRuns
