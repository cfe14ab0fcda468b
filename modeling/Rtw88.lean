import Rtw88.Lib.Bytes
import Rtw88.Lib.Trace
import Rtw88.Crypto.Derive
import Rtw88.Model.System
import Rtw88.Proofs.Reorder.Erase
import Rtw88.Proofs.Reorder.Run
import Rtw88.Proofs.Nonce
import Rtw88.Proofs.Authentic
import Rtw88.Proofs.Footprint
import Rtw88.Proofs.ControlledPort
import Rtw88.Proofs.Addba
import Rtw88.Proofs.Attempt
import Rtw88.Proofs.Teardown
import Rtw88.Proofs.Power
import Rtw88.Proofs.Progress
import Rtw88.Proofs.Ownership
import Rtw88.Proofs.Bounds
import Rtw88.Proofs.BssIpc
import Rtw88.Proofs.Relay
import Rtw88.Proofs.Reorder.Threads
import Rtw88.Proofs.Reorder.HeadSlot
import Rtw88.Proofs.Reorder.Stray
import Rtw88.Proofs.Reorder.Timer
import Rtw88.Proofs.Workqueue.Sync
import Rtw88.Proofs.ManualScan.Exclusive
import Rtw88.Proofs.ManualScan.Cover
import Rtw88.Proofs.EapolAccess
import Rtw88.Proofs.Lifecycle.Runs
import Rtw88.Proofs.Crypto.Ptk
import Rtw88.Proofs.Timeout
import Rtw88.Proofs.Uplink
import Rtw88.Proofs.LinkStatus
import Rtw88.Proofs.Dma.Once
import Rtw88.Proofs.Crypto.KeyWrap
import Rtw88.Proofs.EapolKey
import Rtw88.Proofs.GtkKde
import Rtw88.Proofs.Downlink.Shapes
import Rtw88.Proofs.Downlink.Agree
import Rtw88.Proofs.Ageing
import Rtw88.Proofs.AssocReq
import Rtw88.Proofs.Firmware
import Rtw88.Proofs.SkbQueue
import Rtw88.Proofs.Beacon
import Rtw88.Proofs.Chandef
import Rtw88.Proofs.AssocWire
import Rtw88.Proofs.CmdConnect
import Rtw88.Proofs.QosData
import Rtw88.Proofs.LogRing
import Rtw88.Proofs.Completion
import Rtw88.Proofs.PciConfig
import Rtw88.Proofs.Bounce
import Rtw88.Proofs.Handshake
import Rtw88.Proofs.Average
import Rtw88.Proofs.Bitops
import Rtw88.Proofs.SignExtend
import Rtw88.Proofs.Awake
import Rtw88.Proofs.Traffic
import Rtw88.Proofs.Join
import Rtw88.Proofs.TxFlow
import Rtw88.Proofs.Slab
import Rtw88.Proofs.SkbData
import Rtw88.Proofs.Sync
