import MailboxService.Foundation.Run
import MailboxService.Foundation.Interleaving
import MailboxService.Foundation.Table
import MailboxService.Foundation.Dict
import MailboxService.Foundation.IdentityMap
import MailboxService.Foundation.Session
import MailboxService.Foundation.Fallback
import MailboxService.Foundation.SkipLocked
import MailboxService.Foundation.SessionTriple
import MailboxService.Foundation.SessionCoupling
import MailboxService.VerificationPollCapacity
import MailboxService.Models
import MailboxService.PythonText
import MailboxService.TokenRepository
import MailboxService.RefreshClaimProtocol
import MailboxService.Providers.Catalog
import MailboxService.LeaseService.Store
import MailboxService.Ascii
import MailboxService.LeaseService.Claims
import MailboxService.LeaseService.Acquire
import MailboxService.LeaseService.Reacquire
import MailboxService.ProviderOperations
import MailboxService.LeaseService.Release
import MailboxService.LeaseService.UpdateRefreshToken
import MailboxService.MailboxAdmin
import MailboxService.LeaseService.Effects
import MailboxService.LeaseService.ReleaseEffects
import MailboxService.LeaseService.Failures
import MailboxService.LeaseService.Exclusivity
import MailboxService.LeaseService.LeaseRuns
import MailboxService.LeaseService.FallbackCompleteness
import MailboxService.ResourceLifecycle
import MailboxService.ConcurrentFinalize
import MailboxService.LeaseService.StalePeek
import MailboxService.SchedulerLease
import MailboxService.LeaseService.ConcurrentAcquire
import MailboxService.LeaseService.ProviderSelection
import MailboxService.LeaseService.SelectionOutcome
import MailboxService.LeaseService.ReacquireDisclosure
import MailboxService.LeaseService.AliasRoundTrip
import MailboxService.LeaseService.AcquireTriples
import MailboxService.LeaseService.ReleaseTriples
import MailboxService.OperatorSessions
import MailboxService.PaidActivations
import MailboxService.LeaseService.LateRelease
import MailboxService.LeaseService.ExpiredClaims
import MailboxService.LeaseService.UsageSites
import MailboxService.LeaseService.SiteOccupancy
import MailboxService.TokenService.AccessTokens
import MailboxService.TokenService.TokenRuns
import MailboxService.TokenService.ClientTokens
import MailboxService.TokenService.TokenBinding
import MailboxService.Foundation.Json
import MailboxService.VerificationCode.Authorization
import MailboxService.VerificationCode.MailMessages
import MailboxService.VerificationCode.OnDemandInbox
import MailboxService.VerificationCode.Polling
import MailboxService.VerificationCode.CheckedCodes
import MailboxService.VerificationCode.RecipientIsolation
import MailboxService.CompletionReports
import MailboxService.TokenService.ClaimDisposal
import MailboxService.SchedulerRunners
import MailboxService.Foundation.Batch
import MailboxService.Migrations
import MailboxService.Foundation.Loop
import MailboxService.MailboxDeletion
import MailboxService.Foundation.Newest
import MailboxService.ProxyService.Resolution
import MailboxService.ProxyService.Rebinding
import MailboxService.ProxyService.Health
import MailboxService.Foundation.Delimited
import MailboxService.PythonLines
import MailboxService.ExportRoundTrip
import MailboxService.Foundation.RowLocks
import MailboxService.LeaseService.LockedAcquire
import MailboxService.LeaseService.CandidateCalls
import MailboxService.TokenService.LockedEnsure
import MailboxService.NetworkCalls
import MailboxService.TokenService.CacheDecisions
import MailboxService.LeaseService.DeclaredSites
import MailboxService.Foundation.Regex
import MailboxService.VerificationCode.Extraction
import MailboxService.VerificationCode.FilterRejection
import MailboxService.VerificationCode.RequestedPatterns
import MailboxService.VerificationCode.NewestCode
import MailboxService.Foundation.Guarded
import MailboxService.Foundation.Retry
import MailboxService.LeaseService.AccessTokenLeases
import MailboxService.VerificationCode.FreshCheckpoints
import MailboxService.LeaseService.AtomicAcquire
import MailboxService.TokenService.CapabilityProbe
import MailboxService.TokenService.RotatedTokens
import MailboxService.TokenService.TokenAudience
import MailboxService.Foundation.Budget
import MailboxService.Foundation.JsonText
import MailboxService.Foundation.Stretches
import MailboxService.Providers.SmsBowerCodes
import MailboxService.VerificationCode.BoundedPolls
import MailboxService.VerificationCode.PresetTemplates
import MailboxService.VerificationCode.GiveUps
import MailboxService.VerificationCode.MessageTimes
import MailboxService.Providers.SettingsUpdates
import MailboxService.Providers.InstanceRouting
import MailboxService.VerificationCode.TokenScan
import MailboxService.VerificationCode.XaiScan
import MailboxService.VerificationCode.ByteBudget
import MailboxService.VerificationCode.PrefixSearch
import MailboxService.ProxyService.Failover
import MailboxService.Foundation.Paging
import MailboxService.LeasePages
import MailboxService.ImportAccounting
import MailboxService.ImportFailures
import MailboxService.Foundation.Rewriting
import MailboxService.Foundation.RegexRules
import MailboxService.VerificationCode.SanitizerPasses
import MailboxService.VerificationCode.MailEscapes
import MailboxService.VerificationCode.SanitizerIdempotence
import MailboxService.VerificationCode.SurvivingCodes
import MailboxService.TokenService.Keepalive
import MailboxService.ClientKeys
import MailboxService.CredentialCipher
import MailboxService.ProxyService.Administration
import MailboxService.Foundation.Permits
import MailboxService.TokenService.UnprobedBatches
import MailboxService.Foundation.Turns
import MailboxService.TokenService.KeepaliveTurns
import MailboxService.TokenService.TokenScopes
