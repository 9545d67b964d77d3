import SignalEventLoop.Core.TimerTable
import SignalEventLoop.Core.TimerStop
import SignalEventLoop.Core.TimerStart
import SignalEventLoop.Core.TimerIds
import SignalEventLoop.Core.TimerDeadline
import SignalEventLoop.Core.NextTimeOut
import SignalEventLoop.Core.SchedulerWakeup
import SignalEventLoop.Core.InvokeReturns
import SignalEventLoop.Core.TriggerQueue
import SignalEventLoop.Core.TriggerFifo
import SignalEventLoop.Core.ExecReach
import SignalEventLoop.Core.SignalEmit
import SignalEventLoop.Core.SchedulerAgree
import SignalEventLoop.Core.EventLoopIndex
import SignalEventLoop.Core.ThreadPoolPush
import SignalEventLoop.Core.ThreadPoolCancel
import SignalEventLoop.Core.ThreadPoolQueue
import SignalEventLoop.Network.CacheSend
import SignalEventLoop.Network.CacheSenders
import SignalEventLoop.Network.CacheUdp
import SignalEventLoop.Network.ProtocalStream
import SignalEventLoop.Network.StreamChecks
import SignalEventLoop.Network.WebsocketHeader
import SignalEventLoop.Network.WebsocketRead
import SignalEventLoop.Network.HelperTimeout
import SignalEventLoop.Network.HttpDecisive
import SignalEventLoop.Network.HttpLineByLine
import SignalEventLoop.Network.HttpRoundTrip
import SignalEventLoop.Network.UpgradeHandoff
import SignalEventLoop.Network.TcpClose
import SignalEventLoop.Network.TcpLink
import SignalEventLoop.Network.UdpEchoSent
import SignalEventLoop.Network.HandshakeLink
import SignalEventLoop.Network.ActiveOnce
import SignalEventLoop.Network.DnsResolve
import SignalEventLoop.Device.HexLoad
import SignalEventLoop.Device.Receive
import SignalEventLoop.Device.ReplySafety
import SignalEventLoop.Device.Upload
import SignalEventLoop.Device.SoftwareCheck
import SignalEventLoop.Device.SlicePages
import SignalEventLoop.Device.PageSize
import SignalEventLoop.Device.Mux
import SignalEventLoop.Device.DeMuxResults
import SignalEventLoop.Device.SendQueue
import SignalEventLoop.Device.HexSuccess
import SignalEventLoop.Device.BinFile
import SignalEventLoop.Device.DeviceInfo
import SignalEventLoop.Device.CrcRc16
import SignalEventLoop.Can.CanReceive
import SignalEventLoop.Can.CanSend
import SignalEventLoop.Can.SerialReads
import SignalEventLoop.Can.UnpackFrames
import SignalEventLoop.Can.FrameBuilders
import SignalEventLoop.Can.Packetise
import SignalEventLoop.Can.SerialBounds
import SignalEventLoop.Can.BoardStates
import SignalEventLoop.Daemon.OneChild
import SignalEventLoop.Daemon.FatalError
import SignalEventLoop.Daemon.Redirect
import SignalEventLoop.Daemon.CtlProtocol
import SignalEventLoop.Daemon.ConfigRoundTrip
import SignalEventLoop.Daemon.ConfigStream
import SignalEventLoop.Daemon.ConfigSections
import SignalEventLoop.Daemon.ChildOutput
import SignalEventLoop.Daemon.ExecArguments
import SignalEventLoop.Log.NewestLogs
import SignalEventLoop.Log.LoggerBuffer
import SignalEventLoop.Tools.CommandlineTool
import SignalEventLoop.Tools.SingleInstance
import SignalEventLoop.Tools.ChangelogRoundTrip
import SignalEventLoop.Tools.ChangelogIndent
import SignalEventLoop.Tools.ValidVersion
import SignalEventLoop.Tools.VersionOrder
import SignalEventLoop.Tools.CommandServer
import SignalEventLoop.Tools.UeventMonitor
import SignalEventLoop.Json.ParseText
import SignalEventLoop.Json.PrintText
import SignalEventLoop.Json.ParseEnds
import SignalEventLoop.Log.LogLines
