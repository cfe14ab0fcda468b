/-
What firmware loading rests on, and what it is asked for.
-/
import Rtw88.Model.Firmware

namespace Rtw88

/-- zlib as documented: `inflate` with `Z_FINISH` inverts `compress` and
reports the end of the stream if the output fits, of a whole stream only;
short of the end it reports an error. -/
structure Zlib.Inverts (z : Zlib) : Prop where
  init_ok : z.inflateInit = zOk
  end_ok : z.inflateEnd = zOk
  stream_end : ∀ raw room,
    (z.inflate (z.compress raw) room).1 = zStreamEnd ↔ raw.length ≤ room
  output : ∀ raw room, raw.length ≤ room →
    (z.inflate (z.compress raw) room).2 = raw
  truncated : ∀ raw n room, n < (z.compress raw).length →
    (z.inflate ((z.compress raw).take n) room).1 ≠ zStreamEnd
  finish : ∀ src room, (z.inflate src room).1 ≠ zOk

/-- Memory allocation succeeds. -/
structure FwMem.Succeeds (mem : FwMem) : Prop where
  malloc : ∀ n, ∃ buf, mem.ioMalloc n = some buf ∧ buf.length = n
  mallocZero : mem.ioMallocZero = true

/-- A base name, or a path that ends in it. -/
def Requests (path name : CString) : Prop :=
  path = name ∨ ∃ dir, path = dir ++ 0x2f :: name

/-- The firmware is this image. -/
structure Firmware.Holds (fw : Firmware) (raw : List UInt8) : Prop where
  size : fw.size = raw.length
  data : fw.data.take fw.size = raw

end Rtw88
