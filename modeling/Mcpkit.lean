import Mcpkit.A2AServer
import Mcpkit.AccessControl
import Mcpkit.AffinityRouter
import Mcpkit.ApprovalGate
import Mcpkit.ArtifactStores
import Mcpkit.AuditLog
import Mcpkit.AuditOutcomes
import Mcpkit.BudgetAlerts
import Mcpkit.CacheHistory
import Mcpkit.CacheKeys
import Mcpkit.CircuitProbes
import Mcpkit.ConnectionRate
import Mcpkit.CycleBreaker
import Mcpkit.CycleGovernor
import Mcpkit.DPoPBinding
import Mcpkit.DPoPReplay
import Mcpkit.DeviceOwnership
import Mcpkit.DispatcherScheduling
import Mcpkit.EditDistance
import Mcpkit.ErrorRecovery
import Mcpkit.FederationCatalog
import Mcpkit.FederationLocks
import Mcpkit.FinopsCosts
import Mcpkit.FinopsScopes
import Mcpkit.GatewayAffinity
import Mcpkit.GatewayClose
import Mcpkit.GatewayOwnership
import Mcpkit.GridFrames
import Mcpkit.Integrity
import Mcpkit.InvocationPaths
import Mcpkit.ModelPricing
import Mcpkit.MultiIds
import Mcpkit.MultiRouting
import Mcpkit.OpenAPIRequests
import Mcpkit.OutputSanitizing
import Mcpkit.PerpetualRuns
import Mcpkit.Pipeline
import Mcpkit.RalphBreaker
import Mcpkit.RalphCompletion
import Mcpkit.RateLimits
import Mcpkit.Redaction
import Mcpkit.RegistryServer
import Mcpkit.RemoteAgent
import Mcpkit.SafePaths
import Mcpkit.SecretManager
import Mcpkit.SecretMasks
import Mcpkit.SessionExpiry
import Mcpkit.SessionMigration
import Mcpkit.Skills
import Mcpkit.SocketShutdown
import Mcpkit.SpecRunnable
import Mcpkit.TaskFinality
import Mcpkit.ThreadStatus
import Mcpkit.TokenRefresh
import Mcpkit.URIPolicies
import Mcpkit.WorkflowCheckpoints
import Mcpkit.WorkflowFork
import Mcpkit.WorkflowRollback
import Mcpkit.WorktreeClose
import Mcpkit.WorktreeExclusive
