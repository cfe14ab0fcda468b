/-
`struct sk_buff` and its queues in memory (`linux/skbuff.h`,
`linux/types.h`), and `struct ieee80211_tx_info`, which
`IEEE80211_SKB_CB` lays over the control block (`net/mac80211.h`).

Memory is flat and the structures are where the x86-64 compiler puts
their members. Pointers are followed as the C code follows them: an
operation that would follow a null pointer answers `none`. The locks
around the operations are left out; under them the operations are one
step each.
-/
import Rtw88.Lib.Layout
import Rtw88.Lib.Words

namespace Rtw88

-- ================================================================ structures

/-- The members of `struct sk_buff`. -/
inductive SkbField
  | head | data | tail | endPtr | len | dataLen | protocol | pktType
  | priority | queueMapping | ipSummed | cb | list | dmaAddr | mbufRef
  deriving DecidableEq

/-- `struct sk_buff`. -/
def skbLayout : CStruct SkbField where
  members := [.head, .data, .tail, .endPtr, .len, .dataLen, .protocol,
    .pktType, .priority, .queueMapping, .ipSummed, .cb, .list, .dmaAddr,
    .mbufRef]
  size
    | .len | .dataLen | .priority | .ipSummed => 4
    | .protocol | .queueMapping => 2
    | .pktType => 1
    | .cb => 64
    | .list => 16
    | _ => 8
  align
    | .len | .dataLen | .priority | .ipSummed => 4
    | .protocol | .queueMapping => 2
    | .pktType => 1
    | _ => 8

/-- The members of `struct sk_buff_head`; the lock is a pointer. -/
inductive SkbHeadField
  | list | lock | qlen
  deriving DecidableEq

/-- `struct sk_buff_head`. -/
def skbHeadLayout : CStruct SkbHeadField where
  members := [.list, .lock, .qlen]
  size
    | .list => 16
    | .lock => 8
    | .qlen => 4
  align
    | .qlen => 4
    | _ => 8

/-- `struct ieee80211_tx_rate`; `count : 5` shares the two bytes that start
at `idx`, and lies in the second. -/
inductive TxRateField
  | idx | count | flags
  deriving DecidableEq

def txRateLayout : CStruct TxRateField where
  members := [.idx, .count, .flags]
  size
    | .flags => 4
    | _ => 1
  align
    | .flags => 4
    | _ => 1

/-- `control`; the four flags are bits of one byte. -/
inductive TxControlField
  | rates | rtsCtsRateIdx | flagBits | vif | hwKey | sta
  deriving DecidableEq

def txControlLayout : CStruct TxControlField where
  members := [.rates, .rtsCtsRateIdx, .flagBits, .vif, .hwKey, .sta]
  size
    | .rates => 4 * txRateLayout.sizeOf
    | .rtsCtsRateIdx | .flagBits => 1
    | _ => 8
  align
    | .rates => txRateLayout.alignment
    | .rtsCtsRateIdx | .flagBits => 1
    | _ => 8

/-- `status`. -/
inductive TxStatusField
  | rates | ackSignal | ampduAckLen | ampduLen | antenna | txTime
  | isValidAckSignal | statusDriverData
  deriving DecidableEq

def txStatusLayout : CStruct TxStatusField where
  members := [.rates, .ackSignal, .ampduAckLen, .ampduLen, .antenna, .txTime,
    .isValidAckSignal, .statusDriverData]
  size
    | .rates => 4 * txRateLayout.sizeOf
    | .ackSignal | .txTime => 4
    | .statusDriverData => 20
    | _ => 1
  align
    | .rates => txRateLayout.alignment
    | .ackSignal | .txTime => 4
    | .statusDriverData => 8
    | _ => 1

/-- `struct ieee80211_tx_info`; `body` is the union of `control`, `status`
and 64 bytes of padding. -/
inductive TxInfoField
  | flags | band | txTimeEst | body
  deriving DecidableEq

def txInfoLayout : CStruct TxInfoField where
  members := [.flags, .band, .txTimeEst, .body]
  size
    | .flags => 4
    | .body => max txControlLayout.sizeOf (max txStatusLayout.sizeOf 64)
    | _ => 1
  align
    | .flags => 4
    | .body => max txControlLayout.alignment txStatusLayout.alignment
    | _ => 1

-- ================================================================= list heads

/-- `INIT_LIST_HEAD`. -/
def initListHead (m : Memory) (list : Nat) : Memory :=
  storePtr (storePtr m list (some list)) (list + 8) (some list)

/-- `__list_add`. -/
def listAddBetween (m : Memory) (n : Nat) (prev next : Option Nat) :
    Option Memory := do
  let b ← next
  let m := storePtr m (b + 8) (some n)
  let m := storePtr m n next
  let m := storePtr m (n + 8) prev
  let a ← prev
  return storePtr m a (some n)

/-- `list_add_tail`. -/
def listAddTail (m : Memory) (n head : Nat) : Option Memory :=
  listAddBetween m n (loadPtr m (head + 8)) (some head)

/-- `list_add`. -/
def listAdd (m : Memory) (n head : Nat) : Option Memory :=
  listAddBetween m n (some head) (loadPtr m head)

/-- `list_del`. -/
def listDel (m : Memory) (entry : Nat) : Option Memory := do
  let a ← loadPtr m (entry + 8)
  let m := storePtr m a (loadPtr m entry)
  let b ← loadPtr m entry
  let m := storePtr m (b + 8) (loadPtr m (entry + 8))
  return storePtr (storePtr m entry none) (entry + 8) none

/-- `list_empty`. -/
def listEmpty (m : Memory) (head : Nat) : Bool := loadPtr m head = some head

-- ===================================================================== queues

/-- `&skb->list`. -/
def skbList (skb : Nat) : Nat := skb + skbLayout.offset .list

/-- `container_of(list, struct sk_buff, list)`. -/
def skbOfList (list : Nat) : Nat := list - skbLayout.offset .list

/-- `&list->qlen`. -/
def qlenAt (list : Nat) : Nat := list + skbHeadLayout.offset .qlen

/-- `list->qlen++` and `list->qlen--`. -/
def qlenInc (m : Memory) (list : Nat) : Memory :=
  storeLe m (qlenAt list) 4 (loadLe m (qlenAt list) 4 + 1)

def qlenDec (m : Memory) (list : Nat) : Memory :=
  storeLe m (qlenAt list) 4 (loadLe m (qlenAt list) 4 + (2 ^ 32 - 1))

/-- `skb_queue_head_init`; what `spin_lock_init` stores is `lock`. -/
def skbQueueHeadInit (list lock : Nat) (m : Memory) : Memory :=
  let m := initListHead m (list + skbHeadLayout.offset .list)
  let m := storeLe m (list + skbHeadLayout.offset .lock) 8 lock
  storeLe m (qlenAt list) 4 0

/-- `__skb_queue_tail`, and `skb_queue_tail` under the lock. -/
def skbQueueTail (m : Memory) (list skb : Nat) : Option Memory := do
  let m ← listAddTail m (skbList skb) (list + skbHeadLayout.offset .list)
  return qlenInc m list

/-- `skb_queue_head`. -/
def skbQueueHead (m : Memory) (list skb : Nat) : Option Memory := do
  let m ← listAdd m (skbList skb) (list + skbHeadLayout.offset .list)
  return qlenInc m list

/-- `__skb_unlink`, and `skb_unlink` under the lock. -/
def skbUnlink (m : Memory) (skb list : Nat) : Option Memory := do
  let m ← listDel m (skbList skb)
  return qlenDec m list

/-- `skb_dequeue`: the buffer, or null. -/
def skbDequeue (m : Memory) (list : Nat) : Option (Memory × Option Nat) :=
  if listEmpty m (list + skbHeadLayout.offset .list) then some (m, none)
  else do
    let first ← loadPtr m (list + skbHeadLayout.offset .list)
    let m ← skbUnlink m (skbOfList first) list
    return (m, some (skbOfList first))

/-- `skb_queue_purge`: at most `fuel` turns; the buffers freed. -/
def skbQueuePurge : Nat → Memory → Nat → Option (Memory × List Nat)
  | 0, _, _ => none
  | fuel + 1, m, list => do
      let r ← skbDequeue m list
      match r.2 with
      | none => return (r.1, [])
      | some skb =>
          let rest ← skbQueuePurge fuel r.1 list
          return (rest.1, skb :: rest.2)

/-- Store a member. -/
def setField (m : Memory) (skb : Nat) (f : SkbField) (v : Nat) : Memory :=
  storeLe m (skb + skbLayout.offset f) (skbLayout.size f) v

/-- `alloc_skb`, with what `kmalloc` and `kzalloc` returned. -/
def allocSkb (m : Memory) (data skb size : Nat) : Memory :=
  let m := writeMem m skb (List.replicate skbLayout.sizeOf 0)
  let m := setField m skb .head data
  let m := setField m skb .data data
  let m := setField m skb .tail data
  let m := setField m skb .endPtr (data + (size + 64) % 2 ^ 32)
  let m := setField m skb .len 0
  initListHead m (skbList skb)

/-- A write to `*IEEE80211_SKB_CB(skb)`, `off` bytes into it. -/
def cbWrite (m : Memory) (skb off : Nat) (bs : List UInt8) : Memory :=
  writeMem m (skb + skbLayout.offset .cb + off) bs

-- ================================================================= operations

/-- The operations on one queue and its buffers. Those with and without
the lock do the same. `other` is a write by anybody else. -/
inductive SkbOp
  | skbQueueTail (skb : Nat)
  | skbQueueHead (skb : Nat)
  | skbDequeue
  | skbUnlink (skb : Nat)
  | skbQueuePurge
  | cbWrite (skb off : Nat) (bs : List UInt8)
  | allocSkb (data skb size : Nat)
  | other (a : Nat) (bs : List UInt8)

/-- One operation on the queue at `list`: the memory, and the buffers
returned or freed. Nothing in a 64-bit address space is longer than
`2 ^ 64`. -/
def skbStep (list : Nat) (m : Memory) : SkbOp → Option (Memory × List Nat)
  | .skbQueueTail skb => (skbQueueTail m list skb).map fun m => (m, [])
  | .skbQueueHead skb => (skbQueueHead m list skb).map fun m => (m, [])
  | .skbDequeue => (skbDequeue m list).map fun r => (r.1, r.2.toList)
  | .skbUnlink skb => (skbUnlink m skb list).map fun m => (m, [])
  | .skbQueuePurge => skbQueuePurge (2 ^ 64) m list
  | .cbWrite skb off bs => some (cbWrite m skb off bs, [])
  | .allocSkb data skb size => some (allocSkb m data skb size, [])
  | .other a bs => some (writeMem m a bs, [])

/-- A sequence of them. -/
def skbRun (list : Nat) : Memory → List SkbOp → Option (Memory × List Nat)
  | m, [] => some (m, [])
  | m, op :: ops => do
      let r ← skbStep list m op
      let rest ← skbRun list r.1 ops
      return (rest.1, r.2 ++ rest.2)

end Rtw88
