/-
The log ring of rtw88_compat.c: `rtw88_log_append`, which every message
of the driver ends up in, and `rtw88_read_log`, which a user client
reads it with.

Both run under `rtw88_log_lock`, so each is one step here. The lock is
there from `rtw88_compat_init` to `rtw88_compat_exit`; without it both
return at once.
-/
import Rtw88.Lib.Bytes

namespace Rtw88

/-- `sizeof(rtw88_log_ring)`. -/
def logRingSize : UInt32 := 8192

/-- The static variables. -/
structure LogRing where
  lock : Bool
  ring : List UInt8
  head : UInt32
  tail : UInt32

/-- When the kext is loaded. -/
def LogRing.init : LogRing :=
  { lock := false, ring := List.replicate logRingSize.toNat 0, head := 0
    tail := 0 }

/-- What `rtw88_compat_init` and `rtw88_compat_exit` do to it. -/
def rtw88CompatInit (alloc : Bool) (r : LogRing) : LogRing :=
  { r with lock := alloc }

def rtw88CompatExit (r : LogRing) : LogRing := { r with lock := false }

/-- The body of the loop of `rtw88_log_append`. -/
def LogRing.put (c : UInt8) (r : LogRing) : LogRing :=
  let r := { r with ring := r.ring.set r.head.toNat c }
  let r := { r with head := (r.head + 1) % logRingSize }
  if r.head = r.tail then { r with tail := (r.tail + 1) % logRingSize }
  else r

/-- `while (*msg)`. -/
def LogRing.putAll : List UInt8 → LogRing → LogRing
  | [], r => r
  | c :: msg, r => if c = 0 then r else LogRing.putAll msg (r.put c)

/-- `rtw88_log_append`. -/
def rtw88LogAppend (msg : List UInt8) (r : LogRing) : LogRing :=
  if !r.lock then r else LogRing.putAll msg r

/-- The loop of `rtw88_read_log` while `read` is `n` short of `max_len`. -/
def LogRing.getAll : Nat → LogRing → List UInt8 × LogRing
  | 0, r => ([], r)
  | n + 1, r =>
      if r.tail ≠ r.head then
        let out := LogRing.getAll n
          { r with tail := (r.tail + 1) % logRingSize }
        (peek r.ring r.tail.toNat :: out.1, out.2)
      else ([], r)

/-- `rtw88_read_log`: the bytes it puts into `out_buf`, if there is one.
It returns their number. -/
def rtw88ReadLog (outBuf : Bool) (maxLen : UInt32) (r : LogRing) :
    List UInt8 × LogRing :=
  if !outBuf || maxLen == 0 || !r.lock then ([], r)
  else LogRing.getAll maxLen.toNat r

end Rtw88
