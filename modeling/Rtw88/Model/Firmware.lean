/-
Firmware images: the table `gen_fw_blobs.py` writes, and `load_fw`, which
reads it.

zlib and the kernel's memory are parameters (`Zlib`, `FwMem`). The script
writes C, so between the two stands a compiler (`compileBlobs`): it puts
the arrays where the table names them, and takes no name that is not an
identifier and none that is defined twice.
-/
import Rtw88.Lib.Bytes
import Mathlib.Data.List.Sort

namespace Rtw88

/-- A C string, without its NUL. -/
abbrev CString := List UInt8

-- ================================================================ parameters

/-- zlib: `compress`, and what `inflateInit`, `inflate` with `Z_FINISH`
on an input and with so much room for the output, and `inflateEnd`
return; with the output. -/
structure Zlib where
  compress : List UInt8 → List UInt8
  inflateInit : Int
  inflate : List UInt8 → Nat → Int × List UInt8
  inflateEnd : Int

/-- `Z_OK` and `Z_STREAM_END`. -/
def zOk : Int := 0
def zStreamEnd : Int := 1

/-- `IOMalloc`, with the bytes found in what it returns, and whether
`IOMallocZero` returns anything. -/
structure FwMem where
  ioMalloc : Nat → Option (List UInt8)
  ioMallocZero : Bool

-- ============================================================ gen_fw_blobs.py

/-- A file: its name and `raw`. -/
structure FwFile where
  name : CString
  raw : List UInt8
  deriving DecidableEq

/-- `firmware/`. -/
structure FwDir where
  files : List FwFile
  distinct : (files.map FwFile.name).Nodup

/-- `f.endswith('.bin')`. -/
def FwFile.isBin (f : FwFile) : Bool :=
  [0x2e, 0x62, 0x69, 0x6e].isSuffixOf f.name

/-- `bins`. -/
def FwDir.bins (dir : FwDir) : List FwFile :=
  (dir.files.filter FwFile.isBin).insertionSort fun a b => a.name ≤ b.name

/-- `'fw_' + name.replace('.', '_').replace('-', '_')`. -/
def fwSym (name : CString) : CString :=
  [0x66, 0x77, 0x5f]
    ++ name.map fun c => if c = 0x2e ∨ c = 0x2d then 0x5f else c

/-- A row of the table: an entry of `entries`. -/
structure FwRow where
  name : CString
  sym : CString
  compressedSize : Nat
  originalSize : Nat

/-- `fw_blobs.c`: the arrays by their names, and the rows. -/
structure FwSource where
  arrays : List (CString × List UInt8)
  rows : List FwRow

/-- The script. -/
def genFwBlobs (z : Zlib) (dir : FwDir) : FwSource where
  arrays := dir.bins.map fun f => (fwSym f.name, z.compress f.raw)
  rows := dir.bins.map fun f =>
    { name := f.name, sym := fwSym f.name
      compressedSize := (z.compress f.raw).length
      originalSize := f.raw.length }

-- ================================================================== compiler

/-- `struct rtw88_fw_blob`. -/
structure FwBlob where
  name : CString
  data : List UInt8
  compressedSize : Nat
  originalSize : Nat

/-- A letter, a digit, an underscore, or part of a character beyond
ASCII. -/
def isIdentByte (c : UInt8) : Bool :=
  (0x61 ≤ c && c ≤ 0x7a) || (0x41 ≤ c && c ≤ 0x5a)
    || (0x30 ≤ c && c ≤ 0x39) || c == 0x5f || 0x80 ≤ c

/-- `rtw88_fw_blobs`, if the file compiles. -/
def compileBlobs (src : FwSource) : Option (List FwBlob) :=
  if (src.arrays.map Prod.fst).Nodup
      ∧ (src.arrays.all fun a => a.1.all isIdentByte) = true then
    src.rows.mapM fun r => (src.arrays.lookup r.sym).map fun data =>
      { name := r.name, data := data
        compressedSize := r.compressedSize, originalSize := r.originalSize }
  else none

-- ==================================================================== loader

/-- `struct firmware`; `data` is the whole of the buffer. -/
structure Firmware where
  size : Nat
  data : List UInt8
  allocSize : Nat

/-- `rtw88_decompress`: what it returns, `dest` and `*dest_len`. -/
def rtw88Decompress (z : Zlib) (dest : List UInt8) (destLen : Nat)
    (src : List UInt8) (srcLen : Nat) : Int × List UInt8 × Nat :=
  if z.inflateInit ≠ zOk then (z.inflateInit, dest, destLen)
  else
    let r := z.inflate (src.take srcLen) destLen
    let dest := splice dest 0 r.2
    if r.1 ≠ zStreamEnd then (r.1, dest, destLen)
    else
      (if z.inflateEnd = zOk then 0 else z.inflateEnd, dest,
        r.2.length % 2 ^ 32)

/-- `load_fw_from_blob`. -/
def loadFwFromBlob (z : Zlib) (mem : FwMem) (blobs : List FwBlob)
    (base : CString) : Option Firmware :=
  match blobs.find? fun b => b.name == base with
  | none => none
  | some b =>
      let alloc := b.compressedSize * 4 % 2 ^ 64
      let outLen := alloc % 2 ^ 32
      match mem.ioMalloc alloc with
      | none => none
      | some buf =>
          let r := rtw88Decompress z buf outLen b.data
            (b.compressedSize % 2 ^ 32)
          if r.1 ≠ 0 then none
          else if !mem.ioMallocZero then none
          else some { size := r.2.2, data := r.2.1, allocSize := alloc }

/-- The loop of `load_fw`, with `p` where it stands. -/
def baseLoop : CString → CString → CString
  | [], base => base
  | c :: p, base => baseLoop p (if c = 0x2f then p else base)

/-- `load_fw`. -/
def loadFw (z : Zlib) (mem : FwMem) (blobs : List FwBlob)
    (name : CString) : Option Firmware :=
  loadFwFromBlob z mem blobs (baseLoop name name)

end Rtw88
