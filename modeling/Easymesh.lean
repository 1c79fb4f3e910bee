import Easymesh.Agent.Backoff
import Easymesh.Agent.Neighbours
import Easymesh.Agent.Traffic
import Easymesh.Reactor.Reassembly
import Easymesh.Reactor.WriteQueue
import Easymesh.Timer.HeapSet
import Easymesh.Timer.HeapStable
import Easymesh.Timer.Batch
import Easymesh.Timer.Nearest
import Easymesh.Tlv.Complete
import Easymesh.Tlv.RoundTrip
import Easymesh.Tlv.Lengths
import Easymesh.CfgMgr.TimerSlot
import Easymesh.CfgMgr.Solicited
import Easymesh.CfgMgr.Senders
import Easymesh.CfgMgr.WscOrder
import Easymesh.CfgMgr.MessageIds
import Easymesh.CfgMgr.Fragments
import Easymesh.Util.ListRuns
import Easymesh.Util.Drain
import Easymesh.Mbus.Items
import Easymesh.Mbus.Membership
import Easymesh.Mbus.Accept
import Easymesh.System.Buffers
import Easymesh.System.Carriage
import Easymesh.System.Demand
import Easymesh.System.ControllerInfo
