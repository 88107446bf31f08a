import RuprogressMcp.FiniteTable
import RuprogressMcp.ProxyStore
import RuprogressMcp.TransitionRuns
import RuprogressMcp.ProxyRedirect
import RuprogressMcp.ProxyEndpoints
import RuprogressMcp.ProxySystem
import RuprogressMcp.ProxyEffects
import RuprogressMcp.ProxyWriters
import RuprogressMcp.RefreshGrants
import RuprogressMcp.ProxyRevocation
import RuprogressMcp.RefreshRotation
import RuprogressMcp.ReuseDetection
import RuprogressMcp.CodeRedemption
import RuprogressMcp.CodeReplay
import RuprogressMcp.RedirectTargets
import RuprogressMcp.ReferentialIntegrity
import RuprogressMcp.CachePurge
import RuprogressMcp.CodeStoreBounds
import RuprogressMcp.JsonDecode
import RuprogressMcp.ListPaging
import RuprogressMcp.ActionTools
import RuprogressMcp.AttachmentDisk
import RuprogressMcp.AttachmentLifetime
import RuprogressMcp.HostAllowlist
import RuprogressMcp.IssueParams
import RuprogressMcp.IssueScopes
import RuprogressMcp.RegistryEviction
import RuprogressMcp.RequiredFields
import RuprogressMcp.UpdateReporting
import RuprogressMcp.AutoPaging
import RuprogressMcp.CacheSoundness
import RuprogressMcp.CapReference
import RuprogressMcp.JsonSchema
import RuprogressMcp.OutputRuns
import RuprogressMcp.PatternRemoval
import RuprogressMcp.PortableNarrowing
import RuprogressMcp.RateGrants
import RuprogressMcp.RetryBudget
import RuprogressMcp.UntrustedFence
import RuprogressMcp.PercentEncoding
import RuprogressMcp.RateMemory
import RuprogressMcp.RedmineEndpoint
import RuprogressMcp.WikiPaths
import RuprogressMcp.AutofillNames
import RuprogressMcp.CopyTruncation
import RuprogressMcp.IssueUploads
import RuprogressMcp.JsonEncode
import RuprogressMcp.RedirectPatterns
import RuprogressMcp.StoreRefusals
import RuprogressMcp.UpdatePayload
import RuprogressMcp.BasenameSanitizing
import RuprogressMcp.UploadLimits
import RuprogressMcp.LogFloor
import RuprogressMcp.TimeImport
import RuprogressMcp.PortableNormalForm
import RuprogressMcp.RequestPrograms
import RuprogressMcp.CallbackParameters
import RuprogressMcp.RedirectConfinement
import RuprogressMcp.DeleteIssue
import RuprogressMcp.WriteAttempts
import RuprogressMcp.ServedTools
import RuprogressMcp.ReadinessProbe
import RuprogressMcp.ConfigGuarantees
import RuprogressMcp.ConfigSecrecy
import RuprogressMcp.SessionTokens
import RuprogressMcp.CallerIdentity
