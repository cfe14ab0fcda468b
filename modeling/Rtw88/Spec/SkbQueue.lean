/-
A queue of buffers as a sequence, and what it means that the memory holds
one.
-/
import Rtw88.Lib.Trace
import Rtw88.Model.SkbQueue

namespace Rtw88

/-- The buffers that are allocated, and those on the queue, in order. -/
structure SkbQueue where
  live : List Nat
  queue : List Nat

/-- What an operation does to the sequence. -/
def SkbQueue.step (q : SkbQueue) : SkbOp → SkbQueue
  | .skbQueueTail skb => { q with queue := q.queue ++ [skb] }
  | .skbQueueHead skb => { q with queue := skb :: q.queue }
  | .skbDequeue => { q with queue := q.queue.tail }
  | .skbUnlink skb => { q with queue := q.queue.erase skb }
  | .skbQueuePurge =>
      { live := q.live.filter fun p => p ∉ q.queue, queue := [] }
  | .allocSkb _ skb _ => { q with live := skb :: q.live }
  | .cbWrite _ _ _ | .other _ _ => q

/-- And which buffers it returns or frees. -/
def SkbQueue.out (q : SkbQueue) : SkbOp → List Nat
  | .skbDequeue => q.queue.head?.toList
  | .skbQueuePurge => q.queue
  | _ => []

/-- The buffers a sequence of operations returns or frees. -/
def SkbQueue.outs : SkbQueue → List SkbOp → List Nat
  | _, [] => []
  | q, op :: ops => q.out op ++ (q.step op).outs ops

/-- The bytes of an object at `p`: not at null, and in the address
space. -/
def InSpace (p size : Nat) : Prop := 0 < p ∧ p + size < 2 ^ 64

/-- The head and the buffers are objects of their own. -/
structure Placed (list : Nat) (live : List Nat) : Prop where
  head : InSpace list skbHeadLayout.sizeOf
  skb : ∀ p ∈ live, InSpace p skbLayout.sizeOf
  head_apart : ∀ p ∈ live,
    Apart list skbHeadLayout.sizeOf p skbLayout.sizeOf
  skb_apart : ∀ p ∈ live, ∀ p' ∈ live, p ≠ p' →
    Apart p skbLayout.sizeOf p' skbLayout.sizeOf

/-- What callers may do: put a buffer on the queue that is not on it,
take off one that is, write to the control block of a buffer (inside of
`struct ieee80211_tx_info`); new buffers are where nothing else is, and
others write elsewhere. -/
def SkbQueue.Allowed (list : Nat) (q : SkbQueue) : SkbOp → Prop
  | .skbQueueTail skb | .skbQueueHead skb => skb ∈ q.live ∧ skb ∉ q.queue
  | .skbUnlink skb => skb ∈ q.queue
  | .skbDequeue | .skbQueuePurge => True
  | .cbWrite skb off bs =>
      skb ∈ q.live ∧ off + bs.length ≤ txInfoLayout.sizeOf
  | .allocSkb _ skb _ => skb ∉ q.live ∧ Placed list (skb :: q.live)
  | .other a bs =>
      Apart a bs.length list skbHeadLayout.sizeOf
        ∧ ∀ p ∈ q.live, Apart a bs.length p skbLayout.sizeOf

/-- A write to the control block stays in `cb`. -/
def SkbOp.InCb : SkbOp → Prop
  | .cbWrite _ off bs => off + bs.length ≤ skbLayout.size .cb
  | _ => True

/-- A member of a buffer. -/
def skbField (m : Memory) (skb : Nat) (f : SkbField) : List UInt8 :=
  readMem m (skb + skbLayout.offset f) (skbLayout.size f)

/-- The memory holds the sequence: a circular doubly linked list of these
buffers, with its length in `qlen`. -/
structure QueueHolds (list : Nat) (m : Memory) (queue : List Nat) :
    Prop where
  ring : IsRing (links m) (list + skbHeadLayout.offset .list)
    (queue.map skbList)
  qlen : loadLe m (qlenAt list) 4 = queue.length % 2 ^ 32

/-- From `m` to `m'` no member of a buffer changed but `cb` of `skb`. -/
def OnlyCb (live : List Nat) (skb : Nat) (m m' : Memory) : Prop :=
  ∀ p ∈ live, ∀ f, (p = skb → f ≠ .cb) → skbField m' p f = skbField m p f

end Rtw88
