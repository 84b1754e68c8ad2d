import GatewayServer.Channels.Broadcast
import GatewayServer.Channels.Coherence
import GatewayServer.Database.WrapperPg
import GatewayServer.Engine.QueryEngine
import GatewayServer.Engine.Delivery
import GatewayServer.Engine.Restart
import GatewayServer.Engine.Serve
import GatewayServer.Engine.Startup
import GatewayServer.Lib.Interleaving
import GatewayServer.Network.ProcessRequest
import GatewayServer.Network.Authorship
import GatewayServer.Database.RegistrationRace
import GatewayServer.Channels.CreationRace
import GatewayServer.Lib.SqlLexer
import GatewayServer.Database.QueryLexing
import GatewayServer.Network.ReadLoop
import GatewayServer.Engine.Records
import GatewayServer.Engine.ChannelList
import GatewayServer.Database.HistoryRoundTrip
import GatewayServer.Engine.EchoHistory
import GatewayServer.Engine.Rejection
import GatewayServer.Database.Storage
import GatewayServer.Lib.Simulation
import GatewayServer.Database.StorageRefinement
import GatewayServer.Database.FailedQueries
import GatewayServer.Network.FrameStream
import GatewayServer.Database.Effects
import GatewayServer.Engine.Steps
import GatewayServer.Channels.Backing
import GatewayServer.Engine.DurableJoins
import GatewayServer.Lib.WorkQueue
import GatewayServer.Network.WriteQueue
import GatewayServer.Lib.TaskPool
import GatewayServer.Network.WorkersPool
import GatewayServer.Engine.ChannelLookups
import GatewayServer.Engine.Logins
import GatewayServer.Engine.JoinLists
import GatewayServer.Engine.JoinReply
import GatewayServer.Engine.HistorySync
import GatewayServer.Database.StorageCalls
import GatewayServer.Database.StorageUsers
import GatewayServer.Channels.StorageChannels
import GatewayServer.Common.ThreadSafeQueue
import GatewayServer.Common.QueueOrder
import GatewayServer.Common.QueueWakeups
import GatewayServer.Common.QueueShutdown
import GatewayServer.Lib.Places
import GatewayServer.Context.AsyncContext
import GatewayServer.Context.CounterTasks
import GatewayServer.Common.QueueTasks
import GatewayServer.Network.SocketWriter
import GatewayServer.Network.SocketLock
import GatewayServer.Network.SocketBytes
import GatewayServer.Lib.Refinement
import GatewayServer.Network.WriterRefinement
import GatewayServer.Lib.RelyGuarantee
import GatewayServer.Database.RowRules
import GatewayServer.Network.Evidence
import GatewayServer.Network.Soundness
import GatewayServer.Network.Lives
import GatewayServer.Network.AcceptProcess
import GatewayServer.Network.Gateway
import GatewayServer.Network.Linked
import GatewayServer.Network.EndToEnd
import GatewayServer.Lib.Budget
import GatewayServer.Network.Marks
import GatewayServer.Common.QueueDrain
import GatewayServer.Service.Chat
import GatewayServer.Service.ChatRefinement
import GatewayServer.Service.ChatThreads
import GatewayServer.Service.Conversation
import GatewayServer.Common.QueueReady
import GatewayServer.Network.Stalls
