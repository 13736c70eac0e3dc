import S2c.Machine
import S2c.Loop
import S2c.Wire.Field
import S2c.Wire.Message
import S2c.Proto.State
import S2c.Backoff
import S2c.Proto.Messages
import S2c.ObjectStore
import S2c.WriteOnce
import S2c.Decimal
import S2c.KeyOrder
import S2c.Paths
import S2c.Log.Append
import S2c.Log.Keys
import S2c.Fsm.Leadership
import S2c.Log.Rejected
import S2c.Fsm.Verdict
import S2c.Fsm.Accounting
import S2c.Fsm.Flush
import S2c.Fsm.Discovery
import S2c.Fsm.Join
import S2c.Fsm.Payload
import S2c.Cluster.Node
import S2c.Cluster.Leaders
import S2c.Cluster.Safety
import S2c.GroupServer.Router
import S2c.GroupServer.Tasks
import S2c.Network.MessageRw
import S2c.Network.Inflight
import S2c.Network.Client
import S2c.Network.ClientSteps
import S2c.Network.Lifecycle
import S2c.Network.Reconnect
import S2c.Network.Delivery
import S2c.Network.Server
import S2c.Network.Handshake
import S2c.Fsm.Acknowledge
import S2c.Log.Groups
import S2c.Cluster.Progress
import S2c.Fsm.Batch
import S2c.GroupServer.Registry
import S2c.GroupServer.Shutdown
import S2c.Network.FirstFrame
import S2c.Network.Serve
import S2c.Network.Receive
import S2c.Log.Budget
import S2c.Fsm.Listing
import S2c.Network.Binding
import S2c.Network.SetUp
import S2c.Network.Drain
import S2c.Cluster.Moves
import S2c.Fsm.Reply
import S2c.Cluster.Heartbeats
import S2c.Cluster.Followers
import S2c.Cluster.Election
import S2c.Fsm.Lookup
import S2c.Cluster.Reading
import S2c.Log.Durability
import S2c.Network.Arrival
import S2c.GroupServer.Inbox
import S2c.Cluster.Opening
import S2c.Network.Spent
import S2c.Network.Sending
import S2c.Fsm.Batching
import S2c.Network.Accepting
import S2c.Network.TestWrapper
import S2c.Cluster.Pauses
import S2c.Fsm.Outcome
import S2c.GroupServer.Outbox
import S2c.Network.Answers
import S2c.Network.Unflushed
