import LocalChat.Lib.Octets
import LocalChat.Lib.Blocks
import LocalChat.Lib.Runs
import LocalChat.Lib.PosixPath
import LocalChat.Lib.Ranks
import LocalChat.Lib.Ladders
import LocalChat.Lib.HeapLists
import LocalChat.Lib.Measures
import LocalChat.Lib.AtomicObjects
import LocalChat.Lib.Mutexes
import LocalChat.Lib.Notices
import LocalChat.Wire.Types
import LocalChat.Wire.Codec
import LocalChat.Session.Basic
import LocalChat.Session.Spec
import LocalChat.Session.Send
import LocalChat.Session.Classification
import LocalChat.Session.Machine
import LocalChat.Session.Log
import LocalChat.Session.Outstanding
import LocalChat.Session.Timing
import LocalChat.Session.Simulation
import LocalChat.Session.Write
import LocalChat.Session.Handshake
import LocalChat.Session.EarlyTraffic
import LocalChat.Session.Hello
import LocalChat.Session.ChunkReads
import LocalChat.Session.Payload
import LocalChat.App.Basic
import LocalChat.App.Containment
import LocalChat.App.Destination
import LocalChat.App.Saved
import LocalChat.App.Console
import LocalChat.Manager.Basic
import LocalChat.Manager.Sessions
import LocalChat.Manager.Addressing
import LocalChat.Manager.Offers
import LocalChat.Manager.Settlement
import LocalChat.App.Typing
import LocalChat.App.FileCommand
import LocalChat.App.Menu
import LocalChat.App.Gui
import LocalChat.App.ChatLog
import LocalChat.App.Names
import LocalChat.App.GuiSaving
import LocalChat.App.GuiView
import LocalChat.Client.Basic
import LocalChat.Client.Mailbox
import LocalChat.Client.Services
import LocalChat.Client.Known
import LocalChat.Discovery.Record
import LocalChat.Discovery.Glare
import LocalChat.Discovery.Batches
import LocalChat.Discovery.LinkedList
import LocalChat.Discovery.RoundTrip
import LocalChat.Discovery.RecordMemory
import LocalChat.Discovery.Resolution
import LocalChat.Discovery.ResolveService
import LocalChat.Discovery.Platforms
import LocalChat.Discovery.Instances
import LocalChat.Discovery.AvahiWorker
import LocalChat.Discovery.BonjourWaits
import LocalChat.Transfer.Worker
import LocalChat.Transfer.Completion
import LocalChat.Transfer.ChunkSize
import LocalChat.Transfer.Failures
import LocalChat.Transfer.Receive
import LocalChat.Transfer.Integrity
import LocalChat.Transfer.SaveDirectory
import LocalChat.Transfer.Concurrent
import LocalChat.Transfer.Multiplex
import LocalChat.Network.Basic
import LocalChat.Network.Streams
import LocalChat.Network.Ledger
import LocalChat.Network.Consent
import LocalChat.Network.Questions
import LocalChat.Network.Pipeline
import LocalChat.Network.Rest
import LocalChat.Lib.History
import LocalChat.Broker.Basic
import LocalChat.Broker.Allocation
import LocalChat.Broker.Subscriptions
import LocalChat.Broker.Routing
import LocalChat.Lib.Queues
import LocalChat.Broker.Broadcast
import LocalChat.Broker.Wakeup
import LocalChat.Broker.QueueNodes
import LocalChat.Broker.QueueInvariant
import LocalChat.Broker.QueueSafety
import LocalChat.World.Basic
import LocalChat.World.Frames
import LocalChat.World.Dialling
import LocalChat.World.Agreement
import LocalChat.World.Meeting
import LocalChat.Program.Conversation
import LocalChat.Program.Delivery
import LocalChat.Program.Wiring
import LocalChat.Program.Shutdown
import LocalChat.Program.Waiting
