import GearmanServer.Basic
import GearmanServer.Thread.Lifecycle
import GearmanServer.Proc.Wakeup
import GearmanServer.Packet.Read
import GearmanServer.Packet.Inbound
import GearmanServer.Packet.Footprint
import GearmanServer.Packet.Flush
import GearmanServer.Packet.Outbound
import GearmanServer.Thread.Run
import GearmanServer.Thread.Loops
import GearmanServer.Thread.Returns
import GearmanServer.Thread.Packets
import GearmanServer.Thread.Replies
import GearmanServer.Thread.Pending
import GearmanServer.Thread.Modes
import GearmanServer.Proc.Dispatch
import GearmanServer.Proc.Handoff
import GearmanServer.Proc.Delivery
