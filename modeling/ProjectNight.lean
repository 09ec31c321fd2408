import ProjectNight.Lib.TreeMap
import ProjectNight.Lib.Trace
import ProjectNight.Lib.View
import ProjectNight.Lib.Feed
import ProjectNight.Lib.Machine
import ProjectNight.Core.Protocol
import ProjectNight.Core.RoomSystem
import ProjectNight.Core.GameLogicSystem
import ProjectNight.Core.Wire
import ProjectNight.Core.BufferPool
import ProjectNight.Core.Session
import ProjectNight.Core.Client
import ProjectNight.Core.Server
import ProjectNight.Core.Acceptor
import ProjectNight.Core.NetworkSystem
import ProjectNight.Core.Connection
import ProjectNight.Core.ChatProtocolClient
import ProjectNight.Core.ChatClientFrame
import ProjectNight.Theory.RoomInvariant
import ProjectNight.Theory.Moves
import ProjectNight.Theory.Names
import ProjectNight.Theory.Delivery
import ProjectNight.Theory.RoomView
import ProjectNight.Theory.NameView
import ProjectNight.Theory.PacketWords
import ProjectNight.Theory.SessionTable
import ProjectNight.Theory.Farewell
import ProjectNight.Theory.GhostUsers
import ProjectNight.Theory.PollTimer
import ProjectNight.Theory.Framing
import ProjectNight.Theory.Pooling
import ProjectNight.Theory.Channel
import ProjectNight.Theory.Transitions
import ProjectNight.Theory.StreamParsing
import ProjectNight.Theory.HeaderCodec
import ProjectNight.Theory.WriteQueue
import ProjectNight.Theory.Sends
import ProjectNight.Theory.Transport
import ProjectNight.Theory.Effects
import ProjectNight.Theory.Transcript
import ProjectNight.Theory.Noninterference
import ProjectNight.Theory.Commuting
import ProjectNight.Theory.Responses
import ProjectNight.Theory.WaysOut
import ProjectNight.Core.ChatWindow
import ProjectNight.Core.Conversation
import ProjectNight.Lib.Format
import ProjectNight.Theory.Buffers
import ProjectNight.Theory.Screen
import ProjectNight.Theory.CurrentRoom
import ProjectNight.Theory.UserList
import ProjectNight.Theory.Decoding
import ProjectNight.Core.Broadcast
import ProjectNight.Theory.Broadcast
import ProjectNight.Theory.SizeLimits
import ProjectNight.Theory.UserCounts
import ProjectNight.Theory.Overflow
import ProjectNight.Theory.Fidelity
import ProjectNight.Theory.Requests
import ProjectNight.Theory.ServerLoop
import ProjectNight.Core.Network
import ProjectNight.Theory.Network
import ProjectNight.Theory.Authentic
import ProjectNight.Lib.Board
import ProjectNight.Theory.Agreement
import ProjectNight.Theory.Conformance
import ProjectNight.Theory.Dialogue
import ProjectNight.Lib.Settle
import ProjectNight.Theory.Progress
import ProjectNight.Core.Heartbeat
import ProjectNight.Lib.Watchdog
import ProjectNight.Theory.Alarm
import ProjectNight.Core.Mailbox
import ProjectNight.Theory.Mailbox
