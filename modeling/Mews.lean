import Mews.Protocol.Ids
import Mews.Protocol.Messages
import Mews.Protocol.Events
import Mews.Protocol.Encoding
import Mews.Protocol.HostFrame
import Mews.Core.Table
import Mews.Core.Transaction
import Mews.Core.Durable
import Mews.Core.Ancestry
import Mews.Core.Paging
import Mews.Core.Chunks
import Mews.Core.Texts
import Mews.Core.LeadsTo
import Mews.Core.Words
import Mews.Store.Schema
import Mews.Store.Journal
import Mews.Store.Delivery
import Mews.Store.Turns
import Mews.Store.Aggregates
import Mews.Store.Command
import Mews.Store.Moves
import Mews.Store.Recording
import Mews.Store.Closing
import Mews.Store.AggregateMoves
import Mews.Store.DeliveryMoves
import Mews.Store.Lifecycle
import Mews.Store.Replay
import Mews.Store.Acceptance
import Mews.Store.TurnRows
import Mews.Store.Timeline
import Mews.Store.AggregateChanges
import Mews.Store.Revisions
import Mews.Store.Hub
import Mews.Store.Bindings
import Mews.Store.Invitations
import Mews.Store.RawResults
import Mews.Store.Compactions
import Mews.Store.ActiveMessages
import Mews.Hub.JournalPages
import Mews.Hub.Root
import Mews.Hub.Transfer
import Mews.Hub.Service
import Mews.Hub.Demotion
import Mews.Hub.ActiveTurns
import Mews.Hub.RemovedHosts
import Mews.Agent.Outcomes
import Mews.Agent.ContextBudget
import Mews.Agent.KeptSuffix
import Mews.Agent.ProviderCalls
import Mews.Agent.ProviderAttempts
import Mews.Host.Link
import Mews.Host.Messages
import Mews.Host.Outputs
import Mews.Host.TurnMessages
import Mews.Host.RemotePrompt
import Mews.Acp.Bridge
import Mews.Acp.Rpc
import Mews.Acp.Session
import Mews.Acp.Turn
import Mews.Acp.BridgedCalls
import Mews.Agent.Batches
import Mews.Agent.BatchRuns
import Mews.Agent.RequestValues
import Mews.Agent.Turns
import Mews.Agent.IdentityHook
import Mews.Transport.Stream
import Mews.Transport.Pump
import Mews.Transport.Authentication
import Mews.Channel.Dispatcher
import Mews.Channel.Deliveries
import Mews.Channel.Delivered
import Mews.Relay.Router
import Mews.Relay.Isolation
import Mews.Acp.Pool
import Mews.Acp.Workers
import Mews.Acp.Groups
import Mews.Acp.Processes
import Mews.Acp.Submissions
import Mews.Acp.Jobs
import Mews.Acp.Wakeups
import Mews.Acp.Serving
import Mews.Acp.Hooks
import Mews.Host.PeerLink
import Mews.Host.PeerJams
import Mews.Host.ToolRegistry
import Mews.Host.AdvertisedTools
import Mews.Host.CatalogRuns
import Mews.Host.HookChain
import Mews.Agent.NativeReplay
import Mews.Agent.Provenance
import Mews.Router.OpenaiStream
import Mews.Router.StreamFraming
import Mews.Core.Occurrences
import Mews.Agent.Continuations
import Mews.Agent.DenotedHistory
import Mews.Core.OrderedMap
import Mews.Acp.Reasoning
import Mews.Router.Anthropic
import Mews.Router.Agreement
import Mews.Agent.SignedItems
import Mews.Hub.FirstOutcome
import Mews.Acp.Stdout
import Mews.Client.Retries
import Mews.Agent.PreparedTimeline
import Mews.Channel.Stopping
import Mews.Hub.InspectionPages
import Mews.Acp.UpdateFolding
import Mews.Acp.StoredUpdates
import Mews.Acp.McpConnections
import Mews.Host.AgentReplicas
import Mews.Store.Subscribers
import Mews.Store.TurnReceipts
