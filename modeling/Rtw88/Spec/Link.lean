/-
The life of a link, abstractly: what a connection attempt, a handshake,
a key and an association go through, with everything else forgotten.

`Link` keeps the fields of the object that a link consists of, and the
trail of the observations that concern it. `Move` lists what can happen
to a link, one constructor for one thing, with the guard the source
gives it. `view` reads the link off the object; Proofs/Link/Step.lean
shows that every event of the system is a chain of moves. An event is one
step here, so a chain need not keep the order of the writes inside it.

# Allowances

Some of the things that can happen have their guard behind a field of
`Allow`: a proof about runs in which such a thing does not happen sets
the field to `False`, a proof that does not care to `True`.
-/
import Mathlib.Logic.Relation
import Rtw88.Model.System
import Rtw88.Spec.ReorderRun

namespace Rtw88

-- ================================================================ the link

/-- The observations on the trail of a link: protected frames, frames
for the network stack, the end of keys, the station's coming and going,
association notices, and the marks. -/
def Obs.onTrail : Obs → Bool
  | .tx skb => skb.hwKey.isSome
  | .injectRxFrame _ | .freeKey _ => true
  | .staAdd _ | .staRemove _ | .bssInfoChanged _ => true
  | .connecting _ _ | .associated | .m1 _ _ | .m3 _ => true
  | .setKey _ _ | .disableKey _ | .freeSta _ => false
  | .setLinkStatus _ | .kfreeSkb _ => false
  | .hwScan | .cancelHwScan | .swScanStart | .swScanSwitchChannel => false
  | .swScanComplete | .connectHwSetup _ | .restoreConnectedHw _ => false
  | .hwStart _ | .hwStop | .removeInterface => false

/-- A link, and the scan list it may be started from. -/
@[ext] structure Link where
  up : Bool
  state : RTW88State
  ret : RTW88State
  entries : List RTW88BSS
  target : RTW88BSS
  password : List UInt8
  wpa2 : Bool
  pmk : Bytes 32
  ptk : Bytes 64
  pn : Bytes 6
  ptkConf : Option KeyConf
  gtkConf : Option KeyConf
  sta : Option Sta
  txBaActive : Bool
  rxBa : RxBa SkBuff
  bssAssoc : Bool
  cfgAssoc : Bool
  next : Nat
  trail : List Obs

/-- The link in the object. -/
def view (s : Mlme) : Link :=
  { up := s.up, state := s.state, ret := s.scanReturnState
    entries := s.bssList, target := s.targetBSS, password := s.password
    wpa2 := s.wpa2, pmk := s.pmk, ptk := s.ptk, pn := s.ccmpTxPn
    ptkConf := s.ptkConf, gtkConf := s.gtkConf, sta := s.sta
    txBaActive := s.txBaActive, rxBa := s.rxBa
    bssAssoc := s.vif.bssAssoc, cfgAssoc := s.vif.cfgAssoc
    next := s.nextAddr, trail := s.log.filter Obs.onTrail }

-- ============================================================ packet numbers

/-- The 48-bit packet number in the CCMP header of a data frame: bytes 0,
1, 4, 5, 6, 7 behind the 802.11 header. -/
def ccmpPn (d : List UInt8) : Nat :=
  let h := hdrlen (frameControl d)
  leVal [peek d h, peek d (h + 1), peek d (h + 4), peek d (h + 5),
    peek d (h + 6), peek d (h + 7)]

/-- The packet number of a frame protected under the temporal key `tk`. -/
def Obs.pnUnder (tk : List UInt8) : Obs → Option Nat
  | .tx skb =>
      match skb.hwKey with
      | some k => if k.key = tk then some (ccmpPn skb.data) else none
      | none => none
  | _ => none

/-- The packet numbers used under a temporal key, newest first. -/
def pnsUnder (tk : List UInt8) (log : List Obs) : List Nat :=
  log.filterMap (Obs.pnUnder tk)

-- =================================================================== moves

/-- What may happen in a run. -/
structure Allow where
  /-- The driver goes away. -/
  stop : Prop
  /-- A scan starts. -/
  scan : Prop
  /-- `cmdConnect` finds its target. -/
  connect : Prop
  /-- `doAuthenticate` makes its final write. -/
  authWrite : Prop
  /-- An association response is accepted. -/
  assoc : Prop
  /-- An M3 verifies under the all-zero PTK. -/
  zeroKey : Prop
  /-- An M3 verifies under a temporal key that has protected a frame. -/
  reuseTk : Prop
  /-- A packet number is taken when the counter is at its end. -/
  pnWrap : Prop
  /-- The first packet number of a key is taken by a frame that is not
  sent. -/
  lostPn : Prop
  /-- This data frame goes into a reorder buffer. -/
  takes : SkBuff → Prop
  /-- This frame is handed to the network stack. -/
  hands : EthFrame → Prop

/-- Everything may happen. -/
def Allow.all : Allow :=
  { stop := True, scan := True, connect := True, authWrite := True
    assoc := True, zeroKey := True, reuseTk := True, pnWrap := True
    lostPn := True, takes := fun _ => True, hands := fun _ => True }

/-- What the scan records about an entry's security is consistent: PSK
means CCMP or TKIP. -/
def Classified (b : RTW88BSS) : Prop :=
  b.akm = akmPsk → b.cipher = cipherCcmp ∨ b.cipher = cipherTkip

/-- An M3 may be accepted under the link's PTK. -/
structure M3Allowed (P : Allow) (v : Link) : Prop where
  state : v.state = .handshaking
  zero : v.ptk = zeros 64 → P.zeroKey
  fresh : pnsUnder (tkOf v.ptk).toList v.trail ≠ [] → P.reuseTk

/-- The AP's station entry after an accepted association, what the
driver heard of it, and the next free address: the old entry, or a new
one that was added. -/
inductive StaAfter (v : Link) : Option Sta → List Obs → Nat → Prop
  | keep : StaAfter v v.sta [] v.next
  | add (sta : Sta) (h : v.sta = none) :
      StaAfter v (some sta) [.staAdd sta.addr] (v.next + 1)

/-- The end of a key, if there is one. -/
def freed : Option KeyConf → List Obs
  | some k => [.freeKey k.addr]
  | none => []

/-- What can happen to a link. -/
inductive Move (hw : Hw) (P : Allow) : Link → Link → Prop
  /-- The state falls back to IDLE. -/
  | idle (v : Link) (r : RTW88State) (hr : r = .idle ∨ r = v.ret) :
      Move hw P v { v with state := .idle, ret := r }
  /-- The driver goes away. -/
  | down (v : Link) (hP : P.stop) : Move hw P v { v with up := false }
  /-- A scan starts. -/
  | scanning (v : Link) (h : v.state = .idle) (hP : P.scan) :
      Move hw P v { v with state := .scanning, ret := .idle }
  /-- The scan list changes. -/
  | entries (v : Link) (l : List RTW88BSS)
      (h : (∀ b ∈ v.entries, Classified b) → ∀ b ∈ l, Classified b) :
      Move hw P v { v with entries := l }
  /-- `cmdConnect` found its target, with the old link cleared away. -/
  | connect (v : Link) (target : RTW88BSS) (password : List UInt8)
      (h : v.state = .idle) (hptk : v.ptk = zeros 64)
      (hconf : v.ptkConf = none)
      (hmem : target ∈ v.entries) (hP : P.connect) :
      Move hw P v { v with
        target := target, password := password
        wpa2 := target.cipher == cipherCcmp, state := .authenticating
        trail := .connecting target password :: v.trail }
  /-- `clearKeys`. -/
  | clear (v : Link) (h : v.state = .idle) :
      Move hw P v { v with
        ptkConf := none, gtkConf := none, ptk := zeros 64, pn := zeros 6
        trail := freed v.gtkConf ++ (freed v.ptkConf ++ v.trail) }
  /-- `releaseSta` with a station; the driver is told while it is there. -/
  | dropSta (v : Link) (sta : Sta) (told : List Obs)
      (hsta : v.sta = some sta)
      (htold : told = [] ∨ told = [.staRemove sta.addr]) :
      Move hw P v { v with
        sta := none, txBaActive := false, rxBa := RxBa.empty
        trail := told ++ v.trail }
  /-- Aggregation ends both ways. -/
  | baDown (v : Link) :
      Move hw P v { v with txBaActive := false, rxBa := RxBa.empty }
  /-- Uplink aggregation ends, or starts in CONNECTED. -/
  | txBa (v : Link) (b : Bool) (h : b = true → v.state = .connected) :
      Move hw P v { v with txBaActive := b }
  /-- The reorder buffers change; a new one opens in CONNECTED only. -/
  | rxBa (v : Link) (rx : RxBa SkBuff)
      (h : v.state = .connected ∨ ∀ i, v.rxBa i = none → rx i = none)
      (hheld : ∀ Q : SkBuff → Prop, (∀ skb, P.takes skb → Q skb) →
        v.rxBa.All Q → rx.All Q) :
      Move hw P v { v with rxBa := rx }
  /-- A frame is handed to the network stack. -/
  | inject (v : Link) (f : EthFrame) (hP : P.hands f) :
      Move hw P v { v with trail := .injectRxFrame f :: v.trail }
  /-- The final write of `doAuthenticate`. -/
  | authWrite (v : Link) (hP : P.authWrite) :
      Move hw P v { v with state := .authenticating }
  /-- The association request is sent. -/
  | assocReq (v : Link) (h : v.state = .authenticating) :
      Move hw P v { v with state := .associating }
  /-- `bss_conf.assoc` is cleared, the driver not told. -/
  | bssDown (v : Link) : Move hw P v { v with bssAssoc := false }
  /-- The driver is told that the association is over. -/
  | bssNotify (v : Link) :
      Move hw P v { v with
        bssAssoc := false, trail := .bssInfoChanged false :: v.trail }
  /-- An association is accepted that needs a handshake: the station is
  there, the driver knows, `_pmk` is derived. -/
  | handshake (v : Link) (sta : Option Sta) (added : List Obs) (next : Nat)
      (h : v.state = .associating) (hP : P.assoc)
      (hsta : StaAfter v sta added next) (hwpa : v.wpa2 = true) :
      Move hw P v { v with
        sta := sta, bssAssoc := true, cfgAssoc := true
        state := .handshaking
        pmk := derivePMK hw.prims v.password v.target.ssid.toList
          v.target.ssidLen.toNat
        next := next
        trail := .associated :: .bssInfoChanged true :: (added ++ v.trail) }
  /-- An association is accepted that needs none. -/
  | openLink (v : Link) (sta : Option Sta) (added : List Obs) (next : Nat)
      (h : v.state = .associating) (hP : P.assoc)
      (hsta : StaAfter v sta added next) (hwpa : v.wpa2 = false) :
      Move hw P v { v with
        sta := sta, bssAssoc := true, cfgAssoc := true
        state := .connected, next := next
        trail := .associated :: .bssInfoChanged true :: (added ++ v.trail) }
  /-- An M1 gives the link its PTK. -/
  | m1 (v : Link) (anonce snonce : Bytes 32) (h : v.state = .handshaking) :
      Move hw P v { v with
        ptk := derivePTK hw.prims v.pmk anonce snonce hw.macAddr
          v.target.bssid
        trail := .m1 anonce snonce :: v.trail }
  /-- A verified M3 removes the pairwise key before it installs one. -/
  | dropPairwise (v : Link) (h : M3Allowed P v) :
      Move hw P v { v with
        ptkConf := none, trail := freed v.ptkConf ++ v.trail }
  /-- A verified M3 installs the pairwise key. -/
  | setPairwise (v : Link) (k : KeyConf) (h : M3Allowed P v)
      (hk : k.key = (tkOf v.ptk).toList) (haddr : k.addr = v.next) :
      Move hw P v { v with
        ptkConf := some k, pn := zeros 6, next := v.next + 1 }
  /-- A verified M3 removes the group key. -/
  | dropGroup (v : Link) (h : M3Allowed P v) :
      Move hw P v { v with
        gtkConf := none, trail := freed v.gtkConf ++ v.trail }
  /-- A verified M3 installs the group key. -/
  | setGroup (v : Link) (k : KeyConf) (h : M3Allowed P v)
      (haddr : k.addr = v.next) :
      Move hw P v { v with gtkConf := some k, next := v.next + 1 }
  /-- The driver refuses a key of a verified M3. -/
  | refusedKey (v : Link) (h : M3Allowed P v) :
      Move hw P v { v with
        next := v.next + 1, trail := .freeKey v.next :: v.trail }
  /-- An M3 is accepted: the link is up under its PTK. -/
  | m3 (v : Link) (k : KeyConf) (h : M3Allowed P v)
      (hconf : v.ptkConf = some k) (hk : k.key = (tkOf v.ptk).toList) :
      Move hw P v { v with
        state := .connected, trail := .m3 v.ptk :: v.trail }
  /-- A frame goes out protected. -/
  | protect (v : Link) (skb : TxSkb) (k : KeyConf)
      (h : v.state = .connected) (hwpa : v.wpa2 = true)
      (hconf : v.ptkConf = some k) (hkey : skb.hwKey = some k)
      (hpn : ccmpPn skb.data = leVal (nextPn v.pn).toList)
      (hwrap : leVal v.pn.toList + 1 = 2 ^ 48 → P.pnWrap) :
      Move hw P v { v with
        pn := nextPn v.pn, trail := .tx skb :: v.trail }
  /-- A packet number is taken by a frame that is not sent. -/
  | lostPn (v : Link) (k : KeyConf) (h : v.state = .connected)
      (hconf : v.ptkConf = some k)
      (hwrap : leVal v.pn.toList + 1 = 2 ^ 48 → P.pnWrap)
      (hlost : v.pn = zeros 6 → P.lostPn) :
      Move hw P v { v with pn := nextPn v.pn }

/-- A chain of moves. -/
abbrev Moves (hw : Hw) (P : Allow) : Link → Link → Prop :=
  Relation.ReflTransGen (Move hw P)

end Rtw88
