import DeviceTester.Connection.TcpBytes
import DeviceTester.Gui.ConnectionWin
import DeviceTester.Gui.DeviceManager

/-!
# The packet end of a tcp connection

No widget shows `packet_end`: a connection keeps the one it was added with. Whatever is done in
its window, the steps of the connection are a run of its own.
-/
namespace DeviceTester.Gui.TcpConnectionWin

open DeviceTester.Connection DeviceTester.Lib

variable {w v : SettingsTab Tcp TcpOptions} {e : Event} {d : UInt8}

/-- The bytes that an event brings. -/
def received : Event → Bytes
  | .frame _ => []
  | .elsewhere e => Tcp.received e

end DeviceTester.Gui.TcpConnectionWin
