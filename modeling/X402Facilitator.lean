import X402Facilitator.Store.ConcurrentAppends
import X402Facilitator.Idempotency.Refinement
import X402Facilitator.App.SettledAbsorbing
import X402Facilitator.App.SingleSubmission
import X402Facilitator.App.ClaimRelease
import X402Facilitator.App.TenantIsolation
import X402Facilitator.App.NoStranded
import X402Facilitator.App.Reconcilable
import X402Facilitator.Cqrs.PrefixWrites
import X402Facilitator.Store.ErrorsCleared
import X402Facilitator.Cqrs.CatchUp
import X402Facilitator.App.NotificationsDelivered
import X402Facilitator.App.OneNotification
import X402Facilitator.App.CurrentReads
import X402Facilitator.RateLimit.FeeCharging
import X402Facilitator.RateLimit.FullStore
import X402Facilitator.RateLimit.CrdtConvergence
import X402Facilitator.RateLimit.CrdtRecovery
import X402Facilitator.RateLimit.BucketStores
import X402Facilitator.RateLimit.RedisAgreement
import X402Facilitator.Outbox.DeadLettered
import X402Facilitator.Dlq.TerminalStates
import X402Facilitator.Webhooks.NotDropped
import X402Facilitator.Webhooks.CredentialOrigins
import X402Facilitator.Rpc.ProbeRecovers
import X402Facilitator.Rpc.OpenBreaker
import X402Facilitator.Lock.Serialised
import X402Facilitator.Mcp.Spending
import X402Facilitator.Mcp.HttpCapture
import X402Facilitator.Catalog.RestartSafe
import X402Facilitator.Catalog.VersionAnswers
import X402Facilitator.Catalog.CacheCoherent
import X402Facilitator.MultiSigner.Bound
import X402Facilitator.KeyManager.Leases
import X402Facilitator.Redis.Recovery
import X402Facilitator.Mcp.ReadsAgree
import X402Facilitator.Mcp.Discipline
import X402Facilitator.Retention.ArchiveCopies
import X402Facilitator.Retention.ProjectionLaw
import X402Facilitator.Pact.Canonical
import X402Facilitator.Pact.SubmitAllowed
import X402Facilitator.App.PaymentKeys
import X402Facilitator.Rpc.HorizonClient
import X402Facilitator.Catalog.ProvenListings
import X402Facilitator.Catalog.Keys
import X402Facilitator.Catalog.VectorTexts
import X402Facilitator.Catalog.SearchKeys
import X402Facilitator.Catalog.RerankClient
import X402Facilitator.Catalog.ExtensionResponses
import X402Facilitator.Catalog.Pagination
import X402Facilitator.Assets.BaseUnits
import X402Facilitator.Sdk.Stroops
import X402Facilitator.Catalog.Precision
import X402Facilitator.Catalog.Descriptions
import X402Facilitator.Catalog.PaidRanking
import X402Facilitator.Failover.StatusHistory
import X402Facilitator.Vault.CredentialsValid
import X402Facilitator.Mcp.FramedMetadata
import X402Facilitator.RateLimit.AdvertisedLimiters
import X402Facilitator.Cors.Grants
import X402Facilitator.Metrics.CreateMetrics
import X402Facilitator.Mcp.WriterRuns
import X402Facilitator.RateLimit.CidrLanguages
import X402Facilitator.RateLimit.Owners
import X402Facilitator.TrustProxy.Spellings
import X402Facilitator.TrustProxy.Spoofing
import X402Facilitator.Catalog.LruTtl
import X402Facilitator.Rpc.RetryLoop
import X402Facilitator.Retention.Batches
import X402Facilitator.RateLimit.KeyOverrides
