/-
Flow control on transmit: `RTW88PCIDevice::outputPacket` behind its gated
output queue, `resumeTxIfStalled` behind the interrupt's bottom half, and
the debug timer. And the other bottom half of rtw88_compat.c, NAPI.

# The queue

`createOutputQueue` makes an `IOGatedOutputQueue`, which runs one
`outputPacket` at a time. A packet for which it returns
`kIOReturnOutputStall` goes back to the front, and nothing more is handed
out until `service` is called. `remembers` says whether a `service` that
comes while a packet is being handed out keeps the queue from stalling on
that packet's return.

# The ring

`rtw88_be_ring_avail` counts the free slots of the BE ring. A frame that
finds none is dropped by the driver; `lost` lists those. Frames that do
not come through this queue take slots as well.

# Threads

`_txStalled` is read and written without a lock, so every access to it
and every look at the ring is a step of its own: in `outputPacket`, and
in any number of activations of the bottom half (`thread_call_enter` may
start it again while it runs). The debug timer arms itself again at the
end of its activation, so there is never more than one.

`arrived`, `gone`, `lost` and `others` are marks of the model: the packets
the queue took, those that left it and how, those the full ring dropped,
and how many slots others took since the last look of `outputPacket`.
-/
import Rtw88.Lib.Trace

namespace Rtw88

/-- `kRTW88TxStallAvail`. -/
def kRTW88TxStallAvail : Nat := 96

/-- `kRTW88TxResumeAvail`. -/
def kRTW88TxResumeAvail : Nat := 160

/-- The packets an output queue holds at most. -/
def outputQueueCapacity : Nat := 256

/-- Where the call of `outputPacket` stands: before its test of
`_enabled`, of the ring, its store to `_txStalled`, its return of
`kIOReturnOutputStall`, or its call of `_ieee80211->outputPacket`. -/
inductive OutputPc
  | enabled
  | room
  | mark
  | stall
  | submit
  deriving DecidableEq

/-- Where a thread stands: in `debugTimerFired`, at the test of
`g_tx_resume_cb`, or in `resumeTxIfStalled`. What the debug timer writes
to the system log is left out. -/
inductive FlowPc
  | tickAvail
  | tickFlag (avail : Nat)
  | callback
  | flag
  | avail
  | clear
  | service
  deriving DecidableEq

/-- How a packet left the queue: handed to `_ieee80211->outputPacket`,
freed because the interface is down, or flushed. -/
inductive Fate
  | handed
  | refused
  | flushed
  deriving DecidableEq

/-- The device's side of flow control, and its queue, ring and threads:
`threads` are the activations of the bottom half, and `tick` that of the
debug timer, `none` while it is armed. -/
structure TxFlow where
  enabled : Bool
  running : Bool
  queue : List (List UInt8)
  qStalled : Bool
  serviced : Bool
  out : Option (OutputPc × List UInt8)
  txStalled : Bool
  busy : Nat
  threads : List FlowPc
  tick : Option FlowPc
  irqPending : Bool
  resumeCb : Bool
  arrived : List (List UInt8)
  gone : List (List UInt8 × Fate)
  lost : List (List UInt8)
  others : Nat
  deriving DecidableEq

/-- After `start`, with the interface enabled. -/
def TxFlow.init : TxFlow :=
  { enabled := true, running := true, queue := [], qStalled := false
    serviced := false, out := none, txStalled := false, busy := 0
    threads := [], tick := none, irqPending := false, resumeCb := true
    arrived := [], gone := [], lost := [], others := 0 }

/-- What happens next. `thread` names a thread by its place. -/
inductive FlowEvent
  /-- The stack enqueues a packet, or the queue hands one out. -/
  | arrive (m : List UInt8)
  | dispatch
  /-- The call of `outputPacket` goes on; whether the frame takes a slot
  of the BE ring is for `_ieee80211->outputPacket` to say. -/
  | output (takes : Bool)
  /-- A frame from elsewhere takes a slot. -/
  | otherTx
  /-- `handleInterrupt`, by what the handler returns. -/
  | trigger (wake : Bool)
  /-- The bottom half starts: `thread_fn` frees this many slots. -/
  | bottomHalf (k : Nat)
  | thread (i : Nat)
  /-- The debug timer fires, or its activation goes on. -/
  | tick
  /-- `disable`, statement by statement. -/
  | disable
  | queueStop
  | queueFlush
  /-- `enable`: `_txQueue->start()`, which may clear the queue's stall,
  then `_enabled = true`. -/
  | queueStart (clears : Bool)
  | enable
  /-- `rtw88_set_tx_resume_cb`. -/
  | setResumeCb (on : Bool)
  deriving DecidableEq

section Flow

variable (remembers : Bool) (ringLen : Nat)

/-- `rtw88_be_tx_avail`. -/
def TxFlow.beTxAvail (s : TxFlow) : Nat := ringLen - s.busy

/-- A frame is written to the BE ring, or freed for want of a slot. -/
def TxFlow.writeRing (m : List UInt8) (s : TxFlow) : TxFlow :=
  if s.busy < ringLen then { s with busy := s.busy + 1 }
  else { s with lost := s.lost ++ [m] }

/-- The next step of `outputPacket`. -/
def TxFlow.outputPacket (takes : Bool) (s : TxFlow) : TxFlow :=
  match s.out with
  | none => s
  | some (.enabled, m) =>
      if s.enabled then { s with out := some (.room, m) }
      else { s with out := none, gone := s.gone ++ [(m, .refused)] }
  | some (.room, m) =>
      { s with
        others := 0
        out :=
          if s.beTxAvail ringLen < kRTW88TxStallAvail then some (.mark, m)
          else some (.submit, m) }
  | some (.mark, m) => { s with txStalled := true, out := some (.stall, m) }
  | some (.stall, m) =>
      { s with
        out := none, queue := m :: s.queue
        qStalled := !(remembers && s.serviced) }
  | some (.submit, m) =>
      let s := { s with out := none, gone := s.gone ++ [(m, .handed)] }
      if takes then s.writeRing ringLen m else s

/-- `_txQueue->service(kServiceAsync)`. -/
def TxFlow.service (s : TxFlow) : TxFlow :=
  { s with qStalled := false, serviced := s.serviced || s.out.isSome }

/-- The next step of a thread: where it stands then, if it is still
there. -/
def TxFlow.goOn (pc : FlowPc) (s : TxFlow) : TxFlow × Option FlowPc :=
  match pc with
  | .tickAvail => (s, some (.tickFlag (s.beTxAvail ringLen)))
  | .tickFlag avail =>
      (s, if s.txStalled && kRTW88TxResumeAvail ≤ avail then some .flag
        else none)
  | .callback => (s, if s.resumeCb then some .flag else none)
  | .flag => (s, if s.txStalled then some .avail else none)
  | .avail =>
      (s, if kRTW88TxResumeAvail ≤ s.beTxAvail ringLen then some .clear
        else none)
  | .clear => ({ s with txStalled := false }, some .service)
  | .service => (s.service, none)

/-- A thread back at place `i`, or gone. -/
def putThread (threads : List FlowPc) (i : Nat) : Option FlowPc → List FlowPc
  | some pc => threads.set i pc
  | none => threads.eraseIdx i

/-- The bottom half at place `i` goes on. -/
def TxFlow.stepThread (i : Nat) (s : TxFlow) : TxFlow :=
  match s.threads[i]? with
  | none => s
  | some pc =>
      let r := s.goOn ringLen pc
      { r.1 with threads := putThread s.threads i r.2 }

/-- The debug timer goes on; at its end it is armed again. -/
def TxFlow.stepTick (s : TxFlow) : TxFlow :=
  match s.tick with
  | none => { s with tick := some .tickAvail }
  | some pc =>
      let r := s.goOn ringLen pc
      { r.1 with tick := r.2 }

/-- One event. -/
def flowStep (s : TxFlow) : FlowEvent → TxFlow
  | .arrive m =>
      if s.queue.length < outputQueueCapacity then
        { s with queue := s.queue ++ [m], arrived := s.arrived ++ [m] }
      else s
  | .dispatch =>
      if s.running && !s.qStalled && s.out.isNone then
        match s.queue with
        | [] => s
        | m :: rest =>
            { s with
              queue := rest, out := some (.enabled, m), serviced := false }
      else s
  | .output takes => s.outputPacket remembers ringLen takes
  | .otherTx =>
      if s.busy < ringLen then
        { s with busy := s.busy + 1, others := s.others + 1 }
      else s
  | .trigger wake => { s with irqPending := s.irqPending || wake }
  | .bottomHalf k =>
      if s.irqPending then
        { s with
          irqPending := false, busy := s.busy - k
          threads := s.threads ++ [.callback] }
      else s
  | .thread i => s.stepThread ringLen i
  | .tick => s.stepTick ringLen
  | .disable => { s with enabled := false }
  | .queueStop => if s.enabled then s else { s with running := false }
  | .queueFlush =>
      if s.enabled then s
      else
        { s with
          queue := [], gone := s.gone ++ s.queue.map fun m => (m, .flushed) }
  | .queueStart clears =>
      if s.enabled then s
      else { s with running := true, qStalled := s.qStalled && !clears }
  | .enable => if s.running then { s with enabled := true } else s
  | .setResumeCb on => { s with resumeCb := on }

/-- The run of a list of events. -/
def flowRun (es : List FlowEvent) : TxFlow :=
  runFrom (flowStep remembers ringLen) TxFlow.init es

end Flow

-- ==================================================================== NAPI

/-- `struct napi_struct`, its thread call and what the driver's poll
function works on. `poll` is whether `napi->poll` is set and the call
allocated; `polling` are the activations of `rtw88_napi_thread_wrapper`,
each with the frames it has taken; `backlog` are the frames the hardware
delivered and no poll took yet, and `raised` says that an interrupt for
one of them is still to be handled. -/
structure Napi where
  poll : Bool
  weight : Nat
  callPending : Bool
  polling : List Nat
  backlog : Nat
  raised : Bool
  deriving DecidableEq

/-- Before `rtw88_netif_napi_add`. -/
def Napi.init : Napi :=
  { poll := false, weight := 0, callPending := false, polling := []
    backlog := 0, raised := false }

/-- `rtw88_netif_napi_add`. -/
def Napi.add (n : Napi) : Napi := { n with poll := true, weight := 64 }

/-- `rtw88_napi_schedule`. -/
def Napi.schedule (n : Napi) : Napi :=
  if n.poll then { n with callPending := true } else n

/-- What happens next. `take` and `done` name an activation by its
place. -/
inductive NapiEvent
  | add
  /-- A frame arrives, and its interrupt schedules NAPI. -/
  | arrive
  | handle
  /-- The thread call starts an activation, which calls `napi->poll`. -/
  | start
  /-- The poll function takes a frame, or returns. -/
  | take (i : Nat)
  | done (i : Nat)
  deriving DecidableEq

/-- One event. An activation that used up its weight enters the call
again. -/
def napiStep (n : Napi) : NapiEvent → Napi
  | .add => n.add
  | .arrive => { n with backlog := n.backlog + 1, raised := true }
  | .handle => if n.raised then { n with raised := false }.schedule else n
  | .start =>
      if n.callPending then
        { n with
          callPending := false
          polling := if n.poll then n.polling ++ [0] else n.polling }
      else n
  | .take i =>
      match n.polling[i]? with
      | none => n
      | some work =>
          if work < n.weight ∧ 0 < n.backlog then
            { n with
              backlog := n.backlog - 1
              polling := n.polling.set i (work + 1) }
          else n
  | .done i =>
      match n.polling[i]? with
      | none => n
      | some work =>
          let n := { n with polling := n.polling.eraseIdx i }
          if n.weight ≤ work then n.schedule else n

end Rtw88
