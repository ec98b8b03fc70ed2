import DeviceTester.Lib.Run
import DeviceTester.Lib.Call
import DeviceTester.Lib.Operation
import DeviceTester.Lib.Backlog
import DeviceTester.Lib.OneKey
import DeviceTester.Lib.Emission
import DeviceTester.Lib.RoundRobin
import DeviceTester.Lib.Cyclic
import DeviceTester.Lib.NarrowSum
import DeviceTester.Lib.Forest
import DeviceTester.Lib.Draft
import DeviceTester.Lib.Interleave
import DeviceTester.Lib.Histogram
import DeviceTester.Connection.Options
import DeviceTester.Connection.Serial
import DeviceTester.Connection.SerialConnect
import DeviceTester.Connection.SerialClosed
import DeviceTester.Connection.Tcp
import DeviceTester.Connection.TcpConnect
import DeviceTester.Connection.TcpStale
import DeviceTester.Connection.TcpStream
import DeviceTester.Connection.TcpBytes
import DeviceTester.Connection.TcpSocket
import DeviceTester.Connection.Udp
import DeviceTester.Connection.UdpStale
import DeviceTester.Connection.UdpReceiving
import DeviceTester.Connection.UdpDatagrams
import DeviceTester.Connection.AfterDisconnect
import DeviceTester.Connection.Write
import DeviceTester.Connection.WireContent
import DeviceTester.Connection.TcpServerManager
import DeviceTester.Connection.TcpServer
import DeviceTester.Connection.ServerClients
import DeviceTester.Connection.ConfigIo
import DeviceTester.Protocols.Dispatcher
import DeviceTester.Protocols.Pure
import DeviceTester.Protocols.Confluence
import DeviceTester.Protocols.Delivery
import DeviceTester.Config.Json
import DeviceTester.Config.Recent
import DeviceTester.Config.RoundTrip
import DeviceTester.Config.FailedAdd
import DeviceTester.Config.WellFormed
import DeviceTester.Gui.DeviceManager
import DeviceTester.Gui.Maps
import DeviceTester.Gui.Teardown
import DeviceTester.Gui.OpenRecent
import DeviceTester.Gui.RecentsLog
import DeviceTester.Gui.Identifiers
import DeviceTester.Gui.IoThread
import DeviceTester.Gui.IdleTimer
import DeviceTester.Gui.ScrollingBuffer
import DeviceTester.Gui.PlotThroughput
import DeviceTester.Gui.PlotLimits
import DeviceTester.Gui.ThroughputSeries
import DeviceTester.Gui.WindowData
import DeviceTester.Gui.WindowDeliveries
import DeviceTester.Gui.DataFlowEditor
import DeviceTester.Gui.ConnectionSettings
import DeviceTester.Gui.ConnectionWin
import DeviceTester.Gui.PacketEnd
import DeviceTester.Gui.ConnectionTabs
import DeviceTester.Gui.TypedLines
import DeviceTester.Connection.TcpProbe
import DeviceTester.Gui.ConnectionTest
import DeviceTester.Gui.DeviceCreate
import DeviceTester.Gui.DeviceForm
import DeviceTester.Gui.App
import DeviceTester.Gui.AppRecents
import DeviceTester.Gui.AppManager
import DeviceTester.Gui.ConnectionCalls
import DeviceTester.Gui.AppTests
import DeviceTester.Gui.Program
import DeviceTester.Gui.ProgramLines
import DeviceTester.Gui.ProgramEnds
import DeviceTester.Gui.ProgramWindows
