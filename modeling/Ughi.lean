import Ughi.Lib.Run
import Ughi.Lib.MaxHeap
import Ughi.Lib.HashMap
import Ughi.Lib.Word
import Ughi.Lib.Text
import Ughi.Lib.Vec
import Ughi.Lib.Table
import Ughi.Lib.Forest
import Ughi.Lib.Mutex
import Ughi.Lib.Base64
import Ughi.Lib.Binary64
import Ughi.Lib.Turns
import Ughi.Lib.Projection
import Ughi.Lib.Spacing
import Ughi.Lib.Interleaving
import Ughi.Lib.Blocks
import Ughi.Lib.SecureHash
import Ughi.Lib.LeastFirst
import Ughi.Lib.StableSort
import Ughi.Lib.Top
import Ughi.Lib.TopMerge
import Ughi.Lib.LeastPrefix
import Ughi.Lib.Channel
import Ughi.Lib.Tally
import Ughi.Lib.Words
import Ughi.Lib.RunningMean
import Ughi.Lib.WeightWalk
import Ughi.Lib.EvictingQueue
import Ughi.Lib.Multimap
import Ughi.Agents.Trackers
import Ughi.Agents.Agent
import Ughi.Agents.Scheduler
import Ughi.Agents.Runtime
import Ughi.Agents.Pool
import Ughi.Agents.QueueCoverage
import Ughi.Agents.QueueUniqueness
import Ughi.Agents.Governor
import Ughi.Agents.Accounting
import Ughi.Agents.Failures
import Ughi.Agents.Gauge
import Ughi.Agents.Aging
import Ughi.Agents.RoundRobin
import Ughi.Agents.MemoryBudget
import Ughi.Agents.Starvation
import Ughi.Agents.BasePriority
import Ughi.Agents.Dangling
import Ughi.Agents.Conservation
import Ughi.Agents.Healing
import Ughi.Agents.Backup
import Ughi.Memory.Types
import Ughi.Memory.ShortTerm
import Ughi.Memory.LongTerm
import Ughi.Memory.Store
import Ughi.Memory.ReadYourWrites
import Ughi.Memory.Namespaces
import Ughi.Memory.ShortTermAccounting
import Ughi.Memory.SystemEviction
import Ughi.Memory.SystemBudget
import Ughi.Memory.AgentBudget
import Ughi.Memory.Overwrite
import Ughi.Memory.PrefixQueries
import Ughi.Memory.Ranking
import Ughi.Memory.LongTermSearch
import Ughi.Memory.Recall
import Ughi.Memory.DiskPruning
import Ughi.Memory.EmbeddingCodec
import Ughi.Memory.Additions
import Ughi.Memory.LongTermUsage
import Ughi.Memory.Bookkeeping
import Ughi.Integrity.Sha256
import Ughi.Integrity.Verifier
import Ughi.Integrity.Gate
import Ughi.Integrity.Compression
import Ughi.Integrity.Digest
import Ughi.Integrity.Binding
import Ughi.Integrity.SkillsClient
import Ughi.Integrity.Installation
import Ughi.Integrity.Signing
import Ughi.Skills.Executor
import Ughi.Sandbox.Capability
import Ughi.Sandbox.Isolation
import Ughi.Sandbox.Trackers
import Ughi.Sandbox.SkillRegistry
import Ughi.Sandbox.Engine
import Ughi.Sandbox.Mediation
import Ughi.Sandbox.Legacy
import Ughi.Sandbox.Quarantine
import Ughi.Sandbox.Cleanup
import Ughi.Sandbox.Expiry
import Ughi.Sandbox.Counters
import Ughi.Orchestrator.Tree
import Ughi.Orchestrator.TreeShape
import Ughi.Orchestrator.Client
import Ughi.Orchestrator.Lifecycle
import Ughi.Orchestrator.Handlers
import Ughi.Orchestrator.Registries
import Ughi.Orchestrator.Identifiers
import Ughi.Orchestrator.RateLimit
import Ughi.Orchestrator.CircuitBreaker
import Ughi.Orchestrator.Recovery
import Ughi.Orchestrator.SubtreeRemoval
import Ughi.Orchestrator.Population
import Ughi.Orchestrator.ActiveGauge
import Ughi.Orchestrator.RateDecisions
import Ughi.Orchestrator.BreakerReference
import Ughi.Orchestrator.Fanout
import Ughi.Orchestrator.Histogram
import Ughi.State.MemoryState
import Ughi.State.ExpiringMap
import Ughi.Auth.Token
import Ughi.Auth.Lifetime
import Ughi.Auth.Revocation
import Ughi.Auth.Pipeline
import Ughi.Auth.Respelling
import Ughi.Computer.Router
import Ughi.Computer.Workflow
import Ughi.Computer.Computer
import Ughi.Computer.Record
import Ughi.Computer.Loop
import Ughi.Computer.Privacy
import Ughi.Computer.Terminal
import Ughi.Computer.Checkpoint
import Ughi.Computer.Execution
import Ughi.Computer.Retries
import Ughi.Inference.Model
import Ughi.Inference.Engine
import Ughi.Inference.PoolSafety
import Ughi.Inference.Sampler
import Ughi.Inference.Reflect
import Ughi.Evolution.Lessons
import Ughi.Evolution.Patterns
import Ughi.Evolution.MetaAgent
import Ughi.Evolution.Consent
import Ughi.Evolution.Rollback
import Ughi.Evolution.PatternStore
import Ughi.Evolution.Engine
import Ughi.Evolution.Boundaries
import Ughi.Evolution.Average
import Ughi.Integrations.Chat
import Ughi.Integrations.Proactive
import Ughi.Fleet.Manager
import Ughi.Kernel.Boundaries
