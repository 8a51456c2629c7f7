import Moira.Admin.Properties.ExactlyOnce
import Moira.Admin.Properties.Keys
import Moira.ClaudeRunners.Properties.Agreement
import Moira.Cluster.Properties.Leases
import Moira.Console.Properties.AllowList
import Moira.Console.Properties.ConnectChain
import Moira.Console.Properties.Sse
import Moira.Conversations.Properties.ContextPlanner
import Moira.Conversations.Properties.DueSummary
import Moira.Conversations.Properties.Extraction
import Moira.Conversations.Properties.Messages
import Moira.Conversations.Properties.Models
import Moira.Conversations.Properties.Visibility
import Moira.Domain.Properties.Pages
import Moira.Execution.Properties.CircuitTraffic
import Moira.Execution.Properties.EventLog
import Moira.Identity.Properties.Invitation
import Moira.Identity.Properties.RetiredIssuer
import Moira.Infra.Properties.PolicyRow
import Moira.Keyring.Properties.Refresh
import Moira.Keyring.Properties.ResealReaders
import Moira.Orchestration.Properties.ChunkSections
import Moira.Orchestration.Properties.ClusterPermits
import Moira.Orchestration.Properties.Concurrency
import Moira.Orchestration.Properties.OpenapiSizes
import Moira.Orchestration.Properties.Retrieval
import Moira.Orchestration.Properties.RuntimeCache
import Moira.Orchestration.Properties.ToolLoop
import Moira.Public.Properties.RateBudget
import Moira.Public.Properties.Replay
import Moira.Public.Properties.Retention
import Moira.Public.Properties.SingleExecution
import Moira.Runner.Properties.Codes
import Moira.Runner.Properties.Wrapped
import Moira.Runtime.Properties.Candidates
import Moira.Runtime.Properties.Creates
import Moira.Runtime.Properties.PolicyPuts
import Moira.Runtime.Properties.Traffic
import Moira.Security.Properties.CredentialAad
import Moira.Security.Properties.JwksCache
import Moira.Security.Properties.ProviderEndpoint
import Moira.Streaming.Properties.Delivery
import Moira.Workers.Properties.DeadLetter
import Moira.Workers.Properties.Enqueue
import Moira.Workers.Properties.Leader
