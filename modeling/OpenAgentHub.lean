import OpenAgentHub.Registry.Organizations.Escalation
import OpenAgentHub.Registry.Organizations.Ownership
import OpenAgentHub.Registry.Organizations.Teams
import OpenAgentHub.Registry.Organizations.Invitations
import OpenAgentHub.Registry.Packages.Managing
import OpenAgentHub.Registry.Packages.Reading
import OpenAgentHub.Registry.Packages.Precedence
import OpenAgentHub.Registry.Packages.VersionOrder
import OpenAgentHub.Registry.Packages.Pagination
import OpenAgentHub.Registry.Packages.Hiding
import OpenAgentHub.Registry.Packages.Latest
import OpenAgentHub.Registry.Packages.Duty
import OpenAgentHub.Registry.Packages.Nesting
import OpenAgentHub.Registry.Packages.DownloadTokens
import OpenAgentHub.Registry.Packages.Publication
import OpenAgentHub.Registry.Packages.Visibility
import OpenAgentHub.Registry.Outbox.Claims
import OpenAgentHub.Registry.Outbox.Backoff
import OpenAgentHub.Registry.Outbox.Leases
import OpenAgentHub.Registry.Outbox.Attempts
import OpenAgentHub.Registry.Outbox.Deduplication
import OpenAgentHub.Registry.Outbox.Worker
import OpenAgentHub.Registry.Downloads.Bandwidth
import OpenAgentHub.Registry.Quotas.Enforcement
import OpenAgentHub.Registry.Identity.Suspension
import OpenAgentHub.Registry.Identity.TokenPolicy
import OpenAgentHub.Registry.Identity.SessionLifetime
import OpenAgentHub.Registry.Identity.Closure
import OpenAgentHub.Registry.Identity.Deletion
import OpenAgentHub.Registry.Identity.Attenuation
import OpenAgentHub.Registry.Identity.ReadOnly
import OpenAgentHub.Registry.Identity.Confinement
import OpenAgentHub.Registry.Identity.DeviceFlow
import OpenAgentHub.Registry.Billing.Subscriptions
import OpenAgentHub.Registry.Billing.PastDue
import OpenAgentHub.Registry.Billing.Deadlines
import OpenAgentHub.Registry.Billing.Webhooks
import OpenAgentHub.Sdk.ManifestChoice
import OpenAgentHub.Sdk.Completion
import OpenAgentHub.Sdk.CleanScan
import OpenAgentHub.Sdk.RoundTrip
import OpenAgentHub.Sdk.PackagedFiles
import OpenAgentHub.Sdk.Payload
import OpenAgentHub.Sdk.Containment
import OpenAgentHub.Sdk.VersionSpecifiers
import OpenAgentHub.Cli.InstallAtomicity
import OpenAgentHub.Cli.InstallBinding
import OpenAgentHub.Cli.SecretExposure
import OpenAgentHub.Cli.Outcomes
import OpenAgentHub.Cli.RunRecords
import OpenAgentHub.Cli.VersionAgreement
import OpenAgentHub.Cli.Reconciliation
import OpenAgentHub.Cli.ControlLock
import OpenAgentHub.Cli.SpecAgreement
import OpenAgentHub.Cli.Autostart
import OpenAgentHub.Cli.LogFollow
import OpenAgentHub.Runtime.CursorSafety
import OpenAgentHub.Runtime.OpencodeIngestion
import OpenAgentHub.Runtime.StatsCache
import OpenAgentHub.Runtime.StatsTotals
import OpenAgentHub.Runtime.PruneExact
import OpenAgentHub.Runtime.ShellQuoting
import OpenAgentHub.Runtime.Reconsent
import OpenAgentHub.Runtime.EnvDelivery
import OpenAgentHub.Runtime.DepsVolume
import OpenAgentHub.Runtime.VaultMap
import OpenAgentHub.Runtime.CodexTotals
import OpenAgentHub.Registry.SharedLimiter
import OpenAgentHub.Registry.MemoryLimiter
import OpenAgentHub.Cli.Revocation
import OpenAgentHub.Cli.GrantRefresh
import OpenAgentHub.Registry.Packages.CatalogFreshness
import OpenAgentHub.Registry.Packages.Alias
import OpenAgentHub.Registry.Packages.CleanRejection
import OpenAgentHub.Registry.Audit.Completeness
import OpenAgentHub.Registry.Audit.Pagination
import OpenAgentHub.Registry.Packages.Publisher
import OpenAgentHub.Registry.Packages.SingleFlight
import OpenAgentHub.Registry.Identity.WebLogin
import OpenAgentHub.Registry.Packages.UrlGrants
import OpenAgentHub.Registry.Audit.Walk
import OpenAgentHub.Cli.Uninstalling
import OpenAgentHub.Cli.Overriding
import OpenAgentHub.Cli.Delivery
import OpenAgentHub.Cli.Recall
