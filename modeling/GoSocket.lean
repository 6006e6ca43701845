import GoSocket.Lib.Steps
import GoSocket.Lib.Threads
import GoSocket.Lib.Locks
import GoSocket.Lib.Reorder
import GoSocket.Lib.Decimal
import GoSocket.Lib.HeadSlice
import GoSocket.Lib.NumberedLog
import GoSocket.Lib.Ordered
import GoSocket.Lib.Delimited
import GoSocket.Lib.Reader
import GoSocket.Lib.Pieces
import GoSocket.Lib.Tally
import GoSocket.Session.Frame
import GoSocket.Session.ReplayBuffer
import GoSocket.Session.ReplayBytes
import GoSocket.Session.KeyWindow
import GoSocket.Session.Client
import GoSocket.Session.Session
import GoSocket.Session.Store
import GoSocket.Session.StoreInv
import GoSocket.Session.StoreCases
import GoSocket.Session.Runs
import GoSocket.Session.Representation
import GoSocket.Session.Clock
import GoSocket.Session.Bindings
import GoSocket.Session.Guest
import GoSocket.Session.Resume
import GoSocket.Session.Recovery
import GoSocket.Session.Edits
import GoSocket.Session.Locking
import GoSocket.Session.Progress
import GoSocket.Session.Rest
import GoSocket.Session.Places
import GoSocket.Session.Serial
import GoSocket.Session.WireOrder
import GoSocket.Server.Layer
import GoSocket.Server.Kick
import GoSocket.Server.Silent
import GoSocket.Server.Release
import GoSocket.Server.Hub
import GoSocket.Server.System
import GoSocket.Server.RoomMaps
import GoSocket.Server.Ghosts
import GoSocket.Server.Connections
import GoSocket.Server.Front
import GoSocket.Server.Capacity
import GoSocket.Server.Drain
import GoSocket.Server.Broadcast
import GoSocket.Server.Membership
import GoSocket.Server.Rooms
import GoSocket.Server.Fanout
import GoSocket.Server.Echo
import GoSocket.Server.Agreement
import GoSocket.Server.Ownership
import GoSocket.Server.Dispatch
import GoSocket.Server.Context
import GoSocket.NativeWS.Conn
import GoSocket.NativeWS.Limit
import GoSocket.NativeWS.Timeout
import GoSocket.NativeWS.Writers
import GoSocket.NativeWS.Written
import GoSocket.NativeWS.Reassembly
import GoSocket.NativeWS.Framing
import GoSocket.SocketIO.Packet
import GoSocket.EngineIO.Packet
import GoSocket.EngineIO.Batch
import GoSocket.EngineIO.RawWrites
import GoSocket.EngineIO.Transport
import GoSocket.EngineIO.Protections
import GoSocket.EngineIO.Memory
import GoSocket.EngineIO.Machine
import GoSocket.EngineIO.Inversion
import GoSocket.EngineIO.Upgrade
import GoSocket.EngineIO.Teardown
import GoSocket.EngineIO.Inbound
import GoSocket.EngineIO.Outbound
import GoSocket.EngineIO.Posts
import GoSocket.EngineIO.ClosedInbox
import GoSocket.EngineIO.Reads
import GoSocket.EngineIO.Delivery
import GoSocket.EngineIO.Wake
import GoSocket.EngineIO.WritePump
import GoSocket.EngineIO.Stream
