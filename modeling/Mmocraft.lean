import Mmocraft.Lib.BigEndian
import Mmocraft.Lib.Framing
import Mmocraft.Lib.MachineInt
import Mmocraft.Lib.Memory
import Mmocraft.Lib.Runs
import Mmocraft.Util.Compressor
import Mmocraft.Io.RecvEvent
import Mmocraft.Io.SendEvent
import Mmocraft.Net.ConnectionEnvironment
import Mmocraft.Net.ConnectionKey
import Mmocraft.Net.LevelDataChunk
import Mmocraft.Net.Packet
import Mmocraft.Net.PlayerPackets
import Mmocraft.Net.ReceivePath
import Mmocraft.Game.BlockMapping
import Mmocraft.Game.LevelTransfer
import Mmocraft.Game.Player
import Mmocraft.Game.PlayerPosition
import Mmocraft.Game.WorldTask
import Mmocraft.Server.Closure
import Mmocraft.Server.Handlers
import Mmocraft.Server.State
import Mmocraft.Server.Step
import Mmocraft.Server.Table
import Mmocraft.Server.World
import Mmocraft.Server.History
import Mmocraft.Server.Logout
import Mmocraft.Server.AuthenticationGate
import Mmocraft.Server.SavedGamedata
import Mmocraft.Server.Attached
import Mmocraft.Server.Identity
import Mmocraft.Server.Teardown
import Mmocraft.Server.ConnectionTable
import Mmocraft.Server.Stages
import Mmocraft.Server.Lifecycle
import Mmocraft.Server.TaskReferences
import Mmocraft.Server.Waiting
import Mmocraft.Net.ConnectionIo
import Mmocraft.Net.SendPaths
import Mmocraft.Server.Sending
import Mmocraft.Server.BlockUpdates
import Mmocraft.Server.VisiblePlayers
import Mmocraft.Lib.Updates
import Mmocraft.Server.PositionView
import Mmocraft.Login.LoginServer
import Mmocraft.Login.SingleSession
import Mmocraft.Server.GameIds
import Mmocraft.Lib.Bounds
import Mmocraft.Net.UdpServer
import Mmocraft.Game.TaskDelivery
import Mmocraft.Lib.Ranges
import Mmocraft.Util.ConcurrentBuffer
import Mmocraft.Io.ConcurrentSend
import Mmocraft.Server.BlockCommit
import Mmocraft.Lib.Fields
import Mmocraft.Net.PacketFields
import Mmocraft.Net.PositionStream
import Mmocraft.Net.PacketCodec
import Mmocraft.Net.LevelFormat
import Mmocraft.Net.PacketExtension
import Mmocraft.Net.PacketSerialize
import Mmocraft.Io.EventData
import Mmocraft.Lib.Bitmap
import Mmocraft.Server.Extensions
import Mmocraft.Win.ObjectPool
import Mmocraft.Win.ObjectGlobalPool
import Mmocraft.Game.WorldGenerator
import Mmocraft.Game.WorldSize
import Mmocraft.Io.RegisteredIo
import Mmocraft.Net.UdpMessage
import Mmocraft.Server.PostedRanges
import Mmocraft.Lib.Tokens
import Mmocraft.Chat.ChatCommand
import Mmocraft.Lib.StreamCursor
import Mmocraft.Lib.WhileLoop
import Mmocraft.Net.ServerStream
import Mmocraft.Net.SetOffline
import Mmocraft.Bench.ClientBot
import Mmocraft.Lib.FallibleTask
import Mmocraft.Game.TaskRecovery
import Mmocraft.Io.SendNotices
import Mmocraft.Server.KickNotices
import Mmocraft.Server.ClientLevel
import Mmocraft.Lib.Places
import Mmocraft.Io.CompletionQueue
import Mmocraft.Lib.Simd
import Mmocraft.Util.Uuid
import Mmocraft.Server.ChatBroadcast
import Mmocraft.Net.ServerRegistry
import Mmocraft.Server.ClientStream
import Mmocraft.Net.SentStream
import Mmocraft.Net.MulticastBuffers
import Mmocraft.Server.SentOrder
import Mmocraft.Server.GracePeriod
import Mmocraft.Util.IntervalTask
import Mmocraft.Server.AcceptLoop
