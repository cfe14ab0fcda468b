/-
The data part of linux/skbuff.h: an allocation, and the pointers `data`
and `tail` that move inside it. And what fills one: the frames of
RTW88IEEE80211.cpp and of rtw88_compat.c.

`data` and `tail` are offsets from `head`. No operation checks its
argument, so they are integers, and a pointer may leave the allocation; a
copy that does is `none`. What an allocation holds before it is written
is `junk`. That `alloc_skb` may find no memory is for its callers
(Model/Tx.lean); here it found some.
-/
import Rtw88.Model.Tx

namespace Rtw88

/-- `struct sk_buff`: the bytes from `head` to `end`, the pointers, and
what says where a frame goes. -/
structure SkbBuf where
  buf : List UInt8
  data : Int
  tail : Int
  len : UInt32
  priority : UInt32
  queueMapping : UInt16
  cb : List UInt8
  deriving DecidableEq

namespace SkbBuf

/-- `alloc_skb`. -/
def alloc (size : UInt32) (junk : Nat → UInt8) : SkbBuf :=
  let allocSize := size + 64
  { buf := (List.range allocSize.toNat).map junk, data := 0, tail := 0
    len := 0, priority := 0, queueMapping := 0
    cb := List.replicate 64 0 }

/-- `memcpy` to an address of the allocation. -/
def store (s : SkbBuf) (off : Int) (bs : List UInt8) : Option SkbBuf :=
  if 0 ≤ off ∧ off + bs.length ≤ s.buf.length then
    some { s with buf := splice s.buf off.toNat bs }
  else none

/-- `memcpy` from an address of the allocation. -/
def load (s : SkbBuf) (off : Int) (n : Nat) : Option (List UInt8) :=
  if 0 ≤ off ∧ off + n ≤ s.buf.length then
    some ((s.buf.drop off.toNat).take n)
  else none

/-- `skb_put`: what it returns, and the buffer. -/
def put (s : SkbBuf) (len : UInt32) : Int × SkbBuf :=
  (s.tail, { s with tail := s.tail + len.toNat, len := s.len + len })

/-- `skb_put_zero`. -/
def putZero (s : SkbBuf) (len : UInt32) : Option SkbBuf :=
  let (tmp, s) := s.put len
  s.store tmp (List.replicate len.toNat 0)

/-- `skb_put_data`; also `skb_put`, and the bytes then written there. -/
def putData (s : SkbBuf) (bs : List UInt8) : Option SkbBuf :=
  let len := UInt32.ofNat bs.length
  let (tmp, s) := s.put len
  s.store tmp (bs.take len.toNat)

/-- `skb_push`. -/
def push (s : SkbBuf) (len : UInt32) : SkbBuf :=
  { s with data := s.data - len.toNat, len := s.len + len }

/-- `skb_pull`. -/
def pull (s : SkbBuf) (len : UInt32) : SkbBuf :=
  { s with data := s.data + len.toNat, len := s.len - len }

/-- `skb_reserve`. -/
def reserve (s : SkbBuf) (len : Int) : SkbBuf :=
  { s with data := s.data + len, tail := s.tail + len }

/-- `skb_trim`. -/
def trim (s : SkbBuf) (len : UInt32) : SkbBuf :=
  if len < s.len then
    { s with tail := s.tail - (s.len - len).toNat, len := len }
  else s

/-- `skb_reset_tail_pointer`. -/
def resetTailPointer (s : SkbBuf) : SkbBuf := { s with tail := s.data }

/-- `skb_headroom`. -/
def headroom (s : SkbBuf) : UInt32 := UInt32.ofNat (s.data % 2 ^ 32).toNat

/-- `skb_copy`, and `skb_clone`. -/
def copy (s : SkbBuf) (junk : Nat → UInt8) : Option SkbBuf := do
  let n := alloc (s.len + s.headroom) junk
  let n := n.reserve s.headroom.toInt32.toInt
  let bs ← s.load s.data s.len.toNat
  let (dst, n) := n.put s.len
  let n ← n.store dst bs
  some { n with cb := s.cb }

end SkbBuf

/-- A call, or a write of the owner at an offset from `data`. -/
inductive SkbEvent
  | put (len : UInt32)
  | putZero (len : UInt32)
  | putData (bs : List UInt8)
  | push (len : UInt32)
  | pull (len : UInt32)
  | reserve (len : Int)
  | trim (len : UInt32)
  | resetTail
  | write (i : Nat) (bs : List UInt8)

/-- One event; `none` is a write outside the allocation. -/
def skbDataStep (s : SkbBuf) : SkbEvent → Option SkbBuf
  | .put len => some (s.put len).2
  | .putZero len => s.putZero len
  | .putData bs => s.putData bs
  | .push len => some (s.push len)
  | .pull len => some (s.pull len)
  | .reserve len => some (s.reserve len)
  | .trim len => some (s.trim len)
  | .resetTail => some s.resetTailPointer
  | .write i bs => s.store (s.data + i) bs

-- ================================================================== frames

/-- `IEEE80211_AC_BE`. -/
def acBe : UInt16 := 2

/-- The `sk_buff` of `txMgmtFrame`. -/
def txMgmtSkb (junk : Nat → UInt8) (frame : List UInt8) : Option SkbBuf :=
  let skb := SkbBuf.alloc (UInt32.ofNat frame.length + 128) junk
  (skb.reserve 128).putData frame

section Tx

variable (hw : Hw) (junk : Nat → UInt8)

/-- The `sk_buff` of `txNullFunc`. -/
def txNullFuncSkb (powerSave : Bool) (s : Mlme) : Option SkbBuf := do
  let skb := (SkbBuf.alloc (24 + 128) junk).reserve 128
  let fc := ftypeData ||| stypeNullfunc ||| fctlToDs
    ||| (if powerSave then fctlPm else 0)
  let skb ← skb.putData (hdr3addr fc s.targetBSS.bssid hw.macAddr
    s.targetBSS.bssid (seqField s.txSeq))
  some { skb with queueMapping := acBe, priority := 0 }

/-- The CCMP header of `txDataFrame`, on a protected frame. -/
def putCcmp (pn : Bytes 6) (skb : SkbBuf) : Option KeyConf → Option SkbBuf
  | some k => skb.putData (ccmpHdr pn k.keyidx)
  | none => some skb

/-- The `sk_buff` of `txDataFrame`, for an Ethernet frame it takes, with
the sequence and packet numbers it drew. -/
def txDataSkb (m : List UInt8) (seq : UInt16) (key : Option KeyConf)
    (pn : Bytes 6) (s : Mlme) : Option SkbBuf := do
  let paylen := UInt32.ofNat m.length - 14
  let ethertype := be16At m 12
  let qos := htAllowed s
  let hlen : UInt32 := if qos then 26 else 24
  let framelen := hlen + (if key.isSome then 8 else 0) + 8 + paylen
  let skb := (SkbBuf.alloc (framelen + 128) junk).reserve 128
  let fc := ftypeData ||| fctlToDs
    ||| (if qos then stypeQosData else 0)
    ||| (if key.isSome then fctlProtected else 0)
  let skb ← skb.putData (hdr3addr fc s.targetBSS.bssid hw.macAddr
    (grab m 0 6) (seqField seq))
  let skb ← (if qos then skb.putData [baTid &&& 0x0f, 0] else some skb)
  let skb ← putCcmp pn skb key
  let skb ← skb.putData (snapHdr ethertype)
  let skb ← (if paylen ≠ 0 then skb.putData (m.drop 14) else some skb)
  some { skb with queueMapping := acBe, priority := 0 }

end Tx

-- ================================================= frames of rtw88_compat.c

/-- `ieee80211_nullfunc_get`, for the `vif`'s two addresses. -/
def ieee80211NullfuncGet (junk : Nat → UInt8) (bssid addr : Bytes 6)
    (qosOk : Bool) : Option SkbBuf := do
  let headroom : UInt32 := 64
  let hdrLen : UInt32 := if qosOk then 26 else 24
  let skb := (SkbBuf.alloc (headroom + hdrLen) junk).reserve 64
  let p := skb.tail
  let skb ← skb.putZero hdrLen
  let subtype : UInt8 := if qosOk then 0xC else 0x4
  let skb ← skb.store p [(subtype <<< (4 : UInt8)) ||| ((2 : UInt8) <<< 2)]
  let skb ← skb.store (p + 1) [0x01]
  let skb ← skb.store (p + 2) [0, 0]
  let skb ← skb.store (p + 4) bssid.toList
  let skb ← skb.store (p + 10) addr.toList
  let skb ← skb.store (p + 16) bssid.toList
  let skb ← skb.store (p + 22) [0, 0]
  if qosOk then skb.store (p + 24) [0, 0] else some skb

/-- `ieee80211_pspoll_get`. -/
def ieee80211PspollGet (junk : Nat → UInt8) (bssid addr : Bytes 6)
    (cfgAid : UInt16) : Option SkbBuf := do
  let headroom : UInt32 := 64
  let frameLen : UInt32 := 16
  let skb := (SkbBuf.alloc (headroom + frameLen) junk).reserve 64
  let p := skb.tail
  let skb ← skb.putZero frameLen
  let skb ← skb.store p [((0xA : UInt8) <<< 4) ||| ((1 : UInt8) <<< 2)]
  let skb ← skb.store (p + 1) [0x00]
  let aid : UInt16 := cfgAid ||| 0xC000
  let skb ← skb.store (p + 2) [(aid &&& 0xFF).toUInt8]
  let skb ← skb.store (p + 3) [(aid >>> (8 : UInt16)).toUInt8]
  let skb ← skb.store (p + 4) bssid.toList
  skb.store (p + 10) addr.toList

/-- A segment's bytes, in `mbufToSkb`. -/
def putSegment (skb : SkbBuf) (seg : List UInt8) : Option SkbBuf :=
  if 0 < seg.length then
    let (dst, skb) := skb.put (UInt32.ofNat seg.length)
    skb.store dst seg
  else some skb

/-- `mbufToSkb`: a chain of segments, and the `pkthdr.len` of the
first. -/
def mbufToSkb (junk : Nat → UInt8) (total : Nat)
    (chain : List (List UInt8)) : Option SkbBuf :=
  chain.foldlM putSegment
    ((SkbBuf.alloc (UInt32.ofNat (total + 64)) junk).reserve 128)

end Rtw88
