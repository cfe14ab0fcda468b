/-
The data of `RTW88IEEE80211`: its fields, the structures it passes to
the driver, and what the outside world answers.

# What the model adds to the fields

- `Mlme.log`: what the object did, newest first: calls into the driver
  and the network stack, and four marks at points of the source that
  have no other trace (`Obs`).
- `Mlme.up`: `_hw`, `_vif` and `_rtwdev` are set. `start` sets all
  three and `stop` clears all three, so one flag stands for them.
- `Mlme.nextAddr`: the next address the allocator hands out. Keys and
  stations carry their address, so "freed twice" and "the live key" can
  be said.

`Env` holds the answers of everything outside: allocations, driver
return codes, random bytes. One event of the system is one call with
one `Env`.
-/
import Rtw88.Crypto.Derive
import Rtw88.Model.Reorder
import Rtw88.Model.Wire

namespace Rtw88

-- ============================================================== hardware

/-- `enum nl80211_band`. -/
inductive Band
  | ghz2 | ghz5 | ghz60
  deriving DecidableEq, Repr

/-- `0 .. NL80211_NUM_BANDS - 1`. -/
def Band.all : List Band := [.ghz2, .ghz5, .ghz60]

/-- `struct ieee80211_channel`. -/
structure Channel where
  band : Band
  centerFreq : UInt16
  hwValue : UInt16
  disabled : Bool
  noIr : Bool
  radar : Bool
  deriving DecidableEq, Repr

/-- `struct ieee80211_sta_ht_cap`. -/
structure HtCap where
  cap : UInt16 := 0
  htSupported : Bool := false
  ampduFactor : UInt8 := 0
  ampduDensity : UInt8 := 0
  rxMask : Bytes 10 := zeros 10
  rxHighest : UInt16 := 0
  txParams : UInt32 := 0
  deriving DecidableEq

/-- `struct ieee80211_sta_vht_cap`. -/
structure VhtCap where
  vhtSupported : Bool := false
  cap : UInt32 := 0
  rxMcsMap : UInt32 := 0
  rxHighest : UInt16 := 0
  txMcsMap : UInt32 := 0
  txHighest : UInt16 := 0
  deriving DecidableEq

/-- `struct ieee80211_supported_band`. -/
structure SupportedBand where
  channels : List Channel
  htCap : HtCap
  vhtCap : VhtCap
  band : Band

/-- What stays fixed while the object lives: the primitives, the chip's
MAC address and band table, its PCI device id, and whether the firmware
scans (`rtw88_hw_scan_supported`). -/
structure Hw where
  prims : Prims
  macAddr : Bytes 6
  bands : Band → Option SupportedBand
  pciDevice : UInt16
  hwScanSupported : Bool

/-- `enum nl80211_chan_width`, the values used. -/
inductive ChanWidth
  | w20NoHt | w40 | w80
  deriving DecidableEq, Repr

/-- `hw->conf.chandef`. -/
structure Chandef where
  chan : Option Channel := none
  width : ChanWidth := .w20NoHt
  centerFreq1 : UInt32 := 0
  deriving DecidableEq, Repr

-- ================================================================ frames

/-- A received `sk_buff`: its bytes, the memory that lies behind them,
and the receive status fields in use. -/
structure SkBuff where
  data : List UInt8
  past : List UInt8 := []
  freq : UInt16 := 0
  signal : Int8 := 0
  deriving DecidableEq, Repr

/-- `struct ieee80211_key_conf` at address `addr`. -/
structure KeyConf where
  addr : Nat
  cipher : UInt32
  keyidx : UInt8
  pairwise : Bool
  generateMmic : Bool
  ivLen : UInt8
  icvLen : UInt8
  key : List UInt8
  deriving DecidableEq, Repr

/-- `struct ieee80211_sta` at address `addr`. -/
structure Sta where
  addr : Nat
  mac : Bytes 6
  aid : UInt16
  bandwidth : UInt8
  htCap : HtCap
  vhtCap : VhtCap
  deriving DecidableEq

/-- A frame handed to `ops->tx` with its control block: the flags, the
station and key it refers to, and `skb->protocol` (data frames only). -/
structure TxSkb where
  data : List UInt8
  flags : UInt32
  sta : Option Nat
  hwKey : Option KeyConf
  protocol : Option UInt16
  deriving DecidableEq, Repr

/-- An Ethernet frame as the network stack sees it. -/
structure EthFrame where
  da : Bytes 6
  sa : Bytes 6
  ethertype : UInt16
  payload : List UInt8
  deriving DecidableEq

-- ============================================================ scan entry

/-- `RTW88BSS`. -/
structure RTW88BSS where
  ssid : Bytes 33
  ssidLen : UInt8
  bssid : Bytes 6
  rssi : Int16
  freq : UInt16
  channel : UInt8
  cipher : UInt32
  groupCipher : UInt32
  akm : UInt32
  lastSeenScan : UInt32
  ies : List UInt8
  deriving DecidableEq

/-- `IOMallocZero(sizeof(RTW88BSS))`. -/
def RTW88BSS.zero : RTW88BSS :=
  { ssid := zeros 33, ssidLen := 0, bssid := zeros 6, rssi := 0, freq := 0
    channel := 0, cipher := 0, groupCipher := 0, akm := 0
    lastSeenScan := 0, ies := [] }

-- ============================================================== the state

/-- `RTW88State`. -/
inductive RTW88State
  | idle | scanning | authenticating | associating | handshaking
  | connected | disconnecting
  deriving DecidableEq, Repr

/-- `_vif->bss_conf` and `_vif->cfg`, the fields in use. -/
structure Vif where
  bssAssoc : Bool := false
  bssAid : UInt16 := 0
  bssQos : Bool := false
  bssid : Bytes 6 := zeros 6
  cfgAssoc : Bool := false
  cfgAid : UInt16 := 0
  deriving DecidableEq

/-- What the object does, as the world around it sees it. The last four
are marks of the model: a `cmdConnect` found its target; an association
response was accepted; an M1 was processed, with the nonces it left; an
M3 was accepted under a PTK. -/
inductive Obs
  | tx (skb : TxSkb)
  | setKey (key : KeyConf) (ok : Bool)
  | disableKey (key : KeyConf)
  | freeKey (addr : Nat)
  | staAdd (addr : Nat)
  | staRemove (addr : Nat)
  | freeSta (addr : Nat)
  | bssInfoChanged (assoc : Bool)
  | setLinkStatus (active : Bool)
  | injectRxFrame (frame : EthFrame)
  | kfreeSkb (skb : SkBuff)
  | hwScan
  | cancelHwScan
  | swScanStart
  | swScanSwitchChannel
  | swScanComplete
  | connectHwSetup (bssid : Bytes 6)
  | restoreConnectedHw (bssid : Bytes 6)
  | hwStart (ok : Bool)
  | hwStop
  | removeInterface
  | connecting (target : RTW88BSS) (password : List UInt8)
  | associated
  | m1 (anonce snonce : Bytes 32)
  | m3 (ptk : Bytes 64)
  deriving DecidableEq

/-- The fields of `RTW88IEEE80211`. -/
structure Mlme where
  up : Bool
  state : RTW88State
  scanReturnState : RTW88State
  powered : Bool
  bssList : List RTW88BSS
  /-- A `uint32_t`; a list of 2^32 entries does not fit in memory. -/
  bssCount : Nat
  scanGeneration : UInt32
  manualScanChannels : List Channel
  manualScanChannelCount : Nat
  manualScanAbort : Bool
  manualScanOnHomeChannel : Bool
  targetBSS : RTW88BSS
  password : List UInt8
  pmk : Bytes 32
  ptk : Bytes 64
  ptkConf : Option KeyConf
  gtkConf : Option KeyConf
  anonce : Bytes 32
  snonce : Bytes 32
  replayCtr : Bytes 8
  ccmpTxPn : Bytes 6
  wpa2 : Bool
  txSeq : UInt16
  dataSeq : UInt16
  assocAID : UInt16
  txBaActive : Bool
  connChanWidth : UInt8
  baDialog : UInt8
  rxBa : RxBa SkBuff
  sta : Option Sta
  vif : Vif
  chandef : Chandef
  timer : Option Nat
  reorderTimer : Bool
  nextAddr : Nat
  log : List Obs

/-- `_baTid`: never assigned. -/
def baTid : UInt8 := 0

/-- `_baBufSize`: never assigned. -/
def baBufSize : UInt16 := 64

/-- The object after `start`; `powered` is whether `ops->start`
succeeded. -/
def Mlme.init (powered : Bool) : Mlme :=
  { up := true, state := .idle, scanReturnState := .idle
    powered := powered, bssList := [], bssCount := 0, scanGeneration := 0
    manualScanChannels := [], manualScanChannelCount := 0
    manualScanAbort := false, manualScanOnHomeChannel := false
    targetBSS := RTW88BSS.zero, password := [], pmk := zeros 32
    ptk := zeros 64, ptkConf := none, gtkConf := none
    anonce := zeros 32, snonce := zeros 32, replayCtr := zeros 8
    ccmpTxPn := zeros 6, wpa2 := false, txSeq := 0, dataSeq := 0
    assocAID := 0, txBaActive := false, connChanWidth := 20
    baDialog := 0, rxBa := RxBa.empty, sta := none, vif := {}
    chandef := {}, timer := none, reorderTimer := false, nextAddr := 1
    log := [.hwStart powered] }

/-- Record an observation. -/
def Mlme.emit (s : Mlme) (o : Obs) : Mlme := { s with log := o :: s.log }

/-- The allocator's next address is taken. -/
def Mlme.bumpAddr (s : Mlme) : Mlme := { s with nextAddr := s.nextAddr + 1 }

/-- `_state = st`. -/
def Mlme.setState (st : RTW88State) (s : Mlme) : Mlme :=
  { s with state := st }

/-- `_state = _scanReturnState = RTW88_STATE_IDLE`. -/
def Mlme.setIdle (s : Mlme) : Mlme :=
  { s with state := .idle, scanReturnState := .idle }

/-- `_timer->wakeAtTime` in `ms` milliseconds. -/
def Mlme.armTimer (s : Mlme) (ms : Nat) : Mlme := { s with timer := some ms }

/-- `_timer->cancelTimeout()`. -/
def Mlme.cancelTimer (s : Mlme) : Mlme := { s with timer := none }

/-- The reorder flush timer is armed, or has fired. -/
def Mlme.setReorderTimer (b : Bool) (s : Mlme) : Mlme :=
  { s with reorderTimer := b }

-- ========================================================= environment

/-- The answers of the world during one event. Each field is a call the
source makes and checks. -/
structure Env where
  /-- `read_random(_snonce, 32)`. -/
  snonce : Bytes 32 := zeros 32
  /-- `IOMalloc` in `eapol_mic_ok`. -/
  micAlloc : Bool := true
  /-- `IOMallocZero` and `ops->set_key` for the pairwise key. -/
  pairwiseAlloc : Bool := true
  pairwiseSet : Bool := true
  /-- `IOMallocZero` and `ops->set_key` for the group key. -/
  groupAlloc : Bool := true
  groupSet : Bool := true
  /-- `rtw88_make_packet_mbuf` in `sendEAPOLKey`. -/
  packetMbuf : Bool := true
  /-- `alloc_skb` and the two `mbuf_copydata` of `txDataFrame`. -/
  dataSkb : Bool := true
  headCopy : Bool := true
  payloadCopy : Bool := true
  /-- `alloc_skb` in `txMgmtFrame` and `txNullFunc`. -/
  mgmtSkb : Bool := true
  /-- `IOMallocZero` for the station, a reorder buffer, a scan entry. -/
  staAlloc : Bool := true
  baAlloc : Bool := true
  bssAlloc : Bool := true
  /-- `allocateInputPacket` and `mbuf_copyback`, by subframe offset. -/
  inputPacket : Nat → Bool := fun _ => true
  /-- `ops->hw_scan` and `ops->start` return zero. -/
  hwScan : Bool := true
  hwStart : Bool := true
  /-- What the memory of a freed frame reads as; `none`: unchanged. -/
  freed : Option (List UInt8) := none

end Rtw88
