import TavilyHikari.Proofs.MonthlyQuotaRuns
import TavilyHikari.Proofs.MonthlyRebase
import TavilyHikari.Proofs.UsageRollup
import TavilyHikari.Proofs.SubjectLock
import TavilyHikari.Proofs.QuotaPrecheck
import TavilyHikari.Proofs.FreeRide
import TavilyHikari.Proofs.BillingGate
import TavilyHikari.Proofs.KeyUsageRebuild
import TavilyHikari.Proofs.QuotaResolutionCache
import TavilyHikari.Proofs.OAuthLoginState
import TavilyHikari.Proofs.TokenRequestLimit
import TavilyHikari.Proofs.EndpointProvenance
import TavilyHikari.Proofs.PinnedSessions
import TavilyHikari.Proofs.LinuxdoTags
import TavilyHikari.Proofs.BillingLocks
import TavilyHikari.Proofs.HealthTrail
import TavilyHikari.Proofs.SendPlan
import TavilyHikari.Proofs.AccountQuota
import TavilyHikari.Proofs.QuotaVerdict
import TavilyHikari.Proofs.ReservedCredits
import TavilyHikari.Proofs.SubjectKeyBreakages
import TavilyHikari.Proofs.KeyBindings
import TavilyHikari.Proofs.CanonicalRequestKind
import TavilyHikari.Proofs.FramingTransparency
import TavilyHikari.Proofs.ObservedCredits
import TavilyHikari.Proofs.ResetTimes
import TavilyHikari.Proofs.AffinityCache
import TavilyHikari.Proofs.HeaderSanitizing
import TavilyHikari.Proofs.TokenLogPaging
import TavilyHikari.Proofs.KeyRotation
import TavilyHikari.Proofs.LocalDayBuckets
import TavilyHikari.Proofs.StickyUsers
import TavilyHikari.Proofs.NativeProxyUrls
import TavilyHikari.Proofs.ProxyUrlEntries
import TavilyHikari.Proofs.SubscriptionEncoding
import TavilyHikari.Proofs.ShareLinkCredentials
import TavilyHikari.Proofs.UpstreamOrigin
import TavilyHikari.Proofs.Redaction
import TavilyHikari.Proofs.SseReadings
import TavilyHikari.Proofs.RetryRepair
import TavilyHikari.ForwardProxy.XraySupervisor
import TavilyHikari.Bin.SearchBillingRepair
import TavilyHikari.Library.Ranks
import TavilyHikari.Proofs.AccessTokens
import TavilyHikari.Proofs.McpSessions
import TavilyHikari.Proofs.SearchBillingPairs
import TavilyHikari.Proofs.SearchBillingRepair
import TavilyHikari.Proofs.UserAccounts
import TavilyHikari.Proofs.UserLoginFacts
import TavilyHikari.Proofs.UserLogins
import TavilyHikari.Proofs.XraySupervisor
import TavilyHikari.Proofs.ResearchUsage
import TavilyHikari.Proofs.TavilyHttp
import TavilyHikari.Proofs.AdminSessions
