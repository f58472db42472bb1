import EthernetOta.App.Checked
import EthernetOta.App.Discovery
import EthernetOta.Firmware.Image
import EthernetOta.Firmware.AckStream
import EthernetOta.Firmware.Alike
import EthernetOta.Firmware.Bounds
import EthernetOta.Firmware.Clients
import EthernetOta.Firmware.PowerCuts
import EthernetOta.Firmware.Reassembly
import EthernetOta.Firmware.Serving
import EthernetOta.Firmware.Switch
import EthernetOta.Firmware.Timers
import EthernetOta.Firmware.Uart
import EthernetOta.System.AckChunks
import EthernetOta.System.Boards
import EthernetOta.System.Replies
import EthernetOta.System.Flags
import EthernetOta.System.FrameCrc
import EthernetOta.System.Framing
import EthernetOta.System.ImageCrc
import EthernetOta.System.Progress
import EthernetOta.System.Report
import EthernetOta.System.Complete
import EthernetOta.System.Fidelity
import EthernetOta.System.Upload
import EthernetOta.System.Sessions
import EthernetOta.System.Forgery
import EthernetOta.Tomcrypt.Memory
