import StockAnalyst.JobLifecycle
import StockAnalyst.ReportFencing
import StockAnalyst.JobBinding
import StockAnalyst.RateLimitConsistency
import StockAnalyst.RelayRoundTrip
import StockAnalyst.CanonicalText
import StockAnalyst.Completion
import StockAnalyst.JsonRewrite
import StockAnalyst.ManifestLexemes
import StockAnalyst.ManifestAgreement
import StockAnalyst.SettledDeliverable
import StockAnalyst.ExpiredRecovery
import StockAnalyst.SymbolsPreserved
import StockAnalyst.RetryableResume
import StockAnalyst.ResponseRoundTrip
import StockAnalyst.JsJson
import StockAnalyst.PyDumps
import StockAnalyst.RetryAfter
import StockAnalyst.Assembly
import StockAnalyst.GatewayAddress
import StockAnalyst.PromptConfinement
import StockAnalyst.S3RoundTrip
import StockAnalyst.PendingCleanup
import StockAnalyst.PendingConservation
import StockAnalyst.PollingEnds
import StockAnalyst.InertHtml
import StockAnalyst.HeaderAdmission
import StockAnalyst.RequestIds
import StockAnalyst.PayloadUrls
import StockAnalyst.UntrustedText
import StockAnalyst.DeadlineSocket
import StockAnalyst.BoundedThread
import StockAnalyst.PendingBinding
import StockAnalyst.RelativeStrength
import StockAnalyst.SellerContext
import StockAnalyst.SellerResources
import StockAnalyst.NotifyHandshake
import StockAnalyst.ReportPipeline
import StockAnalyst.UsageReporting
import StockAnalyst.SubmitResult
import StockAnalyst.QuoteHandshake
import StockAnalyst.Eip712
import StockAnalyst.PaymentAcceptance
