import Seekwave.Lib.Entries
import Seekwave.Lib.Lines
import Seekwave.Lib.CString
import Seekwave.Lib.BitWalk
import Seekwave.Lib.Streak
import Seekwave.Lib.Threads
import Seekwave.Config.Faithful
import Seekwave.Config.Progress
import Seekwave.Config.Buffers
import Seekwave.Config.Writes
import Seekwave.Config.Handle
import Seekwave.Config.Blocks
import Seekwave.Config.NvProgress
import Seekwave.Config.AddressFile
import Seekwave.Scomm.HostLink
import Seekwave.Scomm.HostFraming
import Seekwave.Scomm.HostBounds
import Seekwave.Scomm.HostClose
import Seekwave.Scomm.Resync
import Seekwave.Scomm.ParseLoop
import Seekwave.Scomm.Uplink
import Seekwave.Scomm.Drain
import Seekwave.Scomm.Downlink
import Seekwave.Scomm.CloseSignal
import Seekwave.Scomm.CloseProgress
import Seekwave.Scomm.SocketClose
import Seekwave.Vendor.Routing
import Seekwave.Vendor.Descriptors
import Seekwave.Vendor.DeviceNodes
import Seekwave.Vendor.StackConf
import Seekwave.Vendor.ExtraLine
import Seekwave.Wlan.Interfaces
import Seekwave.Wlan.IfaceBounds
import Seekwave.Wlan.Masks
import Seekwave.Wlan.UsableChannels
import Seekwave.Wlan.VendorReply
import Seekwave.Wlan.Strings
import Seekwave.Wlan.Lifecycle
import Seekwave.Wlan.Membership
import Seekwave.Wlan.DriverCmd
import Seekwave.Logs.Sessions
import Seekwave.Logs.Limit
import Seekwave.Logs.SkwlogLimit
import Seekwave.Logs.Concurrent
import Seekwave.Btsnoop.Capture
import Seekwave.Btsnoop.Rotation
