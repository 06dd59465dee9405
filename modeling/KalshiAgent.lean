import KalshiAgent.Lib.Rounding
import KalshiAgent.Lib.Decimal
import KalshiAgent.Lib.Binary64
import KalshiAgent.Lib.KeyedTable
import KalshiAgent.Lib.Once
import KalshiAgent.Lib.PerKey
import KalshiAgent.Lib.Execution
import KalshiAgent.Lib.Session
import KalshiAgent.Lib.Window
import KalshiAgent.Lib.Metering
import KalshiAgent.Lib.Spacing
import KalshiAgent.Lib.OneWriter
import KalshiAgent.Lib.Latest
import KalshiAgent.Lib.Tiling
import KalshiAgent.Lib.WallClock
import KalshiAgent.Lib.Redaction
import KalshiAgent.Lib.Text
import KalshiAgent.Lib.Splitting
import KalshiAgent.Lib.Numerals
import KalshiAgent.Lib.UrlPath
import KalshiAgent.Lib.Kelly
import KalshiAgent.Config
import KalshiAgent.Kalshi.Types
import KalshiAgent.Kalshi.StoredPrices
import KalshiAgent.Kalshi.Client
import KalshiAgent.Kalshi.Request
import KalshiAgent.Kalshi.Signing
import KalshiAgent.Kalshi.SignedMessage
import KalshiAgent.Kalshi.TokenBucket
import KalshiAgent.Kalshi.GrantRate
import KalshiAgent.Kalshi.Categories
import KalshiAgent.Storage.Models
import KalshiAgent.Llm.Json
import KalshiAgent.Llm.OpenRouter
import KalshiAgent.Llm.Embedded
import KalshiAgent.Llm.Requests
import KalshiAgent.Safety.Fees
import KalshiAgent.Safety.KillSwitch
import KalshiAgent.Safety.HaltFile
import KalshiAgent.Kalshi.WebSocket
import KalshiAgent.Kalshi.Subscriptions
import KalshiAgent.Safety.Pnl
import KalshiAgent.Positions.ApplyFill
import KalshiAgent.Positions.Deliveries
import KalshiAgent.Positions.History
import KalshiAgent.Positions.Accounting
import KalshiAgent.Positions.AveragePrice
import KalshiAgent.Positions.Exposure
import KalshiAgent.Positions.OrderFills
import KalshiAgent.Positions.LocalDays
import KalshiAgent.Safety.RiskMonitor
import KalshiAgent.Safety.Sizing
import KalshiAgent.Safety.Growth
import KalshiAgent.Safety.Estimates
import KalshiAgent.Safety.CapAgreement
import KalshiAgent.Safety.MoreRoom
import KalshiAgent.Safety.Mirror
import KalshiAgent.Safety.CostBasis
import KalshiAgent.Safety.DailyLoss
import KalshiAgent.Safety.Reconciliation
import KalshiAgent.Safety.Differences
import KalshiAgent.Safety.PositionPages
import KalshiAgent.Fills.Ingestor
import KalshiAgent.Fills.Booking
import KalshiAgent.Fills.Redelivery
import KalshiAgent.Fills.PartialPoll
import KalshiAgent.Fills.Polling
import KalshiAgent.Fills.ResumePoint
import KalshiAgent.Fills.FullyBooked
import KalshiAgent.Fills.Granularity
import KalshiAgent.Positions.DailyBooks
import KalshiAgent.Positions.LedgerColumns
import KalshiAgent.Safety.Resync
import KalshiAgent.Safety.StaleSnapshot
import KalshiAgent.Safety.HaltActions
import KalshiAgent.Safety.HaltWatch
import KalshiAgent.Safety.CancelAll
import KalshiAgent.Safety.CancelEvery
import KalshiAgent.Safety.ErrorSpike
import KalshiAgent.Bankroll
import KalshiAgent.Recovery
import KalshiAgent.Execution.Executor
import KalshiAgent.Execution.Halting
import KalshiAgent.Execution.Exchange
import KalshiAgent.Execution.TotalExposure
import KalshiAgent.Execution.Closing
import KalshiAgent.Execution.Audit
import KalshiAgent.Execution.WriteAhead
import KalshiAgent.Execution.Restart
import KalshiAgent.Execution.RestartInvariant
import KalshiAgent.Execution.RestartSafe
import KalshiAgent.Execution.StaleRecovery
import KalshiAgent.Execution.MovingOrders
import KalshiAgent.Execution.InterruptedRecovery
import KalshiAgent.Execution.RateLimit
import KalshiAgent.Execution.FilledStatus
import KalshiAgent.Execution.Sessions
import KalshiAgent.Strategies.Assessor
import KalshiAgent.Strategies.Independence
import KalshiAgent.Strategies.Discovery
import KalshiAgent.Strategies.Throttle
import KalshiAgent.Strategies.DecidedTicks
import KalshiAgent.Strategies.Provenance
import KalshiAgent.Strategies.Placeholder
import KalshiAgent.Journal.Logger
import KalshiAgent.Journal.Discord
import KalshiAgent.Api.Observer
import KalshiAgent.Api.Dashboard
import KalshiAgent.Api.Periods
import KalshiAgent.Api.Auth
import KalshiAgent.Api.Server
import KalshiAgent.Launch
