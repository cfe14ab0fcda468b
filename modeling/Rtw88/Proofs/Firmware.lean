/-
`load_fw` on what `gen_fw_blobs.py` wrote: `firmware_round_trip_iff`.

The compiler resolves the table to one blob a file (`compile_gen`), names
stay distinct, and the base name of a path is found (`baseLoop_requests`).
What is left is whether the image fits the buffer.

The generator makes an identifier of a file's name, and writes one array
under it and one row of the table. That the table resolves needs the
identifiers to be distinct, which is asked of the directory; that the
right blob is found needs the names to be, and to have no slash, since a
request is cut behind its last one.

The compressor and its inverse are outside the repository, and so
parameters: what is relied on is that the inverse gives back the image
when there is room for it, and an error when there is not. The buffer is
four times as large as what is embedded, whatever the image's size is,
and an image that compresses better than that does not arrive
(`blank_firmware_refused`, with the two streams as zlib writes them).
-/
import Rtw88.Spec.Firmware
import Mathlib.Data.List.Nodup

namespace Rtw88

-- ====================================================================== path

theorem baseLoop_of_plain {p base : CString} (h : 0x2f ∉ p) :
    baseLoop p base = base := by
  induction p with
  | nil => rfl
  | cons c p ih =>
      rw [List.mem_cons, not_or] at h
      rw [baseLoop, if_neg fun hc => h.1 hc.symm, ih h.2]

/-- The base name is what stands behind the last slash. -/
theorem baseLoop_append {dir name base : CString} (h : 0x2f ∉ name) :
    baseLoop (dir ++ 0x2f :: name) base = name := by
  induction dir generalizing base with
  | nil =>
      rw [List.nil_append, baseLoop, if_pos rfl, baseLoop_of_plain h]
  | cons c dir ih =>
      rw [List.cons_append, baseLoop, ih]

theorem baseLoop_requests {path name : CString} (h : 0x2f ∉ name)
    (hreq : Requests path name) : baseLoop path path = name := by
  rcases hreq with rfl | ⟨dir, rfl⟩
  · exact baseLoop_of_plain h
  · exact baseLoop_append h

-- ===================================================================== table

/-- The blob of a file. -/
def FwFile.blob (z : Zlib) (f : FwFile) : FwBlob :=
  { name := f.name, data := z.compress f.raw
    compressedSize := (z.compress f.raw).length
    originalSize := f.raw.length }

/-- Distinct keys: every pair is found under its own. -/
theorem lookup_of_nodup {α β : Type} [BEq α] [LawfulBEq α]
    {l : List (α × β)} {a : α} {b : β} (hl : (l.map Prod.fst).Nodup)
    (h : (a, b) ∈ l) : l.lookup a = some b := by
  induction l with
  | nil => cases h
  | cons p l ih =>
      rw [List.map_cons, List.nodup_cons] at hl
      rcases List.mem_cons.1 h with rfl | h
      · rw [List.lookup_cons, beq_self_eq_true]
      · have hne : a ≠ p.1 := by
          rintro rfl
          exact hl.1 (List.mem_map.2 ⟨_, h, rfl⟩)
        rw [List.lookup_cons, beq_eq_false_iff_ne.2 hne, ih hl.2 h]

/-- Every row resolves: so does the table. -/
theorem mapM_eq_map {α β : Type} {f : α → Option β} {g : α → β}
    {l : List α} (h : ∀ x ∈ l, f x = some (g x)) :
    l.mapM f = some (l.map g) := by
  induction l with
  | nil => rfl
  | cons x l ih =>
      rw [List.mapM_cons, h x List.mem_cons_self,
        ih fun y hy => h y (List.mem_cons_of_mem x hy)]
      rfl

/-- What is compiled is one blob a file, and the names are plain. -/
theorem compile_gen {z : Zlib} {dir : FwDir} {blobs : List FwBlob}
    (h : compileBlobs (genFwBlobs z dir) = some blobs) :
    blobs = dir.bins.map (FwFile.blob z)
      ∧ ∀ f ∈ dir.bins, (fwSym f.name).all isIdentByte = true := by
  unfold compileBlobs at h
  split at h
  next hok =>
    obtain ⟨hnodup, hident⟩ := hok
    have hrow : ∀ f ∈ dir.bins,
        ((genFwBlobs z dir).arrays.lookup (fwSym f.name)).map
          (fun data => { f.blob z with data := data }) = some (f.blob z) := by
      intro f hf
      have hmem : (fwSym f.name, z.compress f.raw)
          ∈ (genFwBlobs z dir).arrays := List.mem_map.2 ⟨f, hf, rfl⟩
      rw [lookup_of_nodup hnodup hmem]
      rfl
    refine ⟨?_, fun f hf => ?_⟩
    · have hmap := mapM_eq_map hrow
      rw [genFwBlobs, List.mapM_map] at h
      exact (Option.some.inj (hmap.symm.trans h)).symm
    · rw [List.all_eq_true] at hident
      exact hident _ (List.mem_map.2 ⟨f, hf, rfl⟩)
  next => cases h

/-- Such a name has no slash. -/
theorem plain_of_ident {name : CString}
    (h : (fwSym name).all isIdentByte = true) : 0x2f ∉ name := by
  intro hmem
  rw [List.all_eq_true] at h
  have hbyte := h 0x2f (List.mem_append_right _
    (List.mem_map.2 ⟨0x2f, hmem, by decide⟩))
  revert hbyte
  decide

theorem mem_bins {dir : FwDir} {f : FwFile} :
    f ∈ dir.bins ↔ f ∈ dir.files ∧ f.isBin = true := by
  rw [FwDir.bins, List.mem_insertionSort, List.mem_filter]

/-- The blob found under a file's name is its own. -/
theorem find_blob {z : Zlib} {dir : FwDir} {f : FwFile}
    (hf : f ∈ dir.files) (hbin : f.isBin = true) :
    (dir.bins.map (FwFile.blob z)).find? (fun b => b.name == f.name)
      = some (f.blob z) := by
  have hmem : f.blob z ∈ dir.bins.map (FwFile.blob z) :=
    List.mem_map_of_mem (mem_bins.2 ⟨hf, hbin⟩)
  cases hfind : (dir.bins.map (FwFile.blob z)).find?
      (fun b => b.name == f.name) with
  | none =>
      have hno := List.find?_eq_none.1 hfind _ hmem
      exact absurd (beq_self_eq_true f.name) hno
  | some b =>
      obtain ⟨g, hg, rfl⟩ := List.mem_map.1 (List.mem_of_find?_eq_some hfind)
      have hname : g.name = f.name := by
        have h := List.find?_some hfind
        exact eq_of_beq h
      have hgf : g = f :=
        List.inj_on_of_nodup_map dir.distinct (mem_bins.1 hg).1 hf hname
      rw [hgf]

-- ================================================================ decompress

/-- With room for the image, the image. -/
theorem decompress_of_fits {z : Zlib} (hz : z.Inverts) {raw : List UInt8}
    {dest : List UInt8} {room n : Nat} (hn : (z.compress raw).length ≤ n)
    (hroom : raw.length ≤ room) (hsmall : room < 2 ^ 32) :
    rtw88Decompress z dest room (z.compress raw) n
      = (0, splice dest 0 raw, raw.length) := by
  have hend := (hz.stream_end raw room).2 hroom
  unfold rtw88Decompress
  rw [if_neg (not_not.2 hz.init_ok), List.take_of_length_le hn]
  simp only
  rw [if_neg (not_not.2 hend), hz.output raw room hroom, if_pos hz.end_ok,
    Nat.mod_eq_of_lt (by omega)]

/-- Without it, or without the whole stream, an error. -/
theorem decompress_of_not_fits {z : Zlib} (hz : z.Inverts)
    {raw : List UInt8} {dest : List UInt8} {room n : Nat}
    (h : n < (z.compress raw).length ∨ room < raw.length) :
    (rtw88Decompress z dest room (z.compress raw) n).1 ≠ 0 := by
  have hend : (z.inflate ((z.compress raw).take n) room).1 ≠ zStreamEnd := by
    rcases h with h | h
    · exact hz.truncated raw n room h
    · by_cases hn : n < (z.compress raw).length
      · exact hz.truncated raw n room hn
      · rw [List.take_of_length_le (Nat.le_of_not_lt hn)]
        intro heq
        have hle := (hz.stream_end raw room).1 heq
        omega
  unfold rtw88Decompress
  rw [if_neg (not_not.2 hz.init_ok)]
  simp only
  rw [if_pos hend]
  exact hz.finish _ _

/-- An image that was embedded and is asked for arrives if and only if it
is no longer than four times its compressed size (in 32 bits). -/
theorem firmware_round_trip_iff {z : Zlib} {mem : FwMem} {dir : FwDir}
    {blobs : List FwBlob} {f : FwFile} {path : CString} (hz : z.Inverts)
    (hmem : mem.Succeeds)
    (hbuild : compileBlobs (genFwBlobs z dir) = some blobs)
    (hf : f ∈ dir.files) (hbin : f.isBin = true)
    (hpath : Requests path f.name) :
    (∃ fw, loadFw z mem blobs path = some fw ∧ fw.Holds f.raw)
      ↔ (z.compress f.raw).length < 2 ^ 32
        ∧ f.raw.length ≤ 4 * (z.compress f.raw).length % 2 ^ 32 := by
  obtain ⟨rfl, hident⟩ := compile_gen hbuild
  have hplain := plain_of_ident (hident f (mem_bins.2 ⟨hf, hbin⟩))
  obtain ⟨buf, hmalloc, hbuf⟩ := hmem.malloc
    ((f.blob z).compressedSize * 4 % 2 ^ 64)
  have hroom : (f.blob z).compressedSize * 4 % 2 ^ 64 % 2 ^ 32
      = 4 * (z.compress f.raw).length % 2 ^ 32 := by
    show (z.compress f.raw).length * 4 % 2 ^ 64 % 2 ^ 32 = _
    omega
  unfold loadFw loadFwFromBlob
  rw [baseLoop_requests hplain hpath, find_blob hf hbin]
  have hdata : (f.blob z).data = z.compress f.raw := rfl
  simp only [hmalloc, hroom, hmem.mallocZero, hdata]
  by_cases hfits : (z.compress f.raw).length < 2 ^ 32
      ∧ f.raw.length ≤ 4 * (z.compress f.raw).length % 2 ^ 32
  · refine iff_of_true ?_ hfits
    have hlen : (z.compress f.raw).length
        ≤ (f.blob z).compressedSize % 2 ^ 32 := by
      rw [Nat.mod_eq_of_lt (show (f.blob z).compressedSize < 2 ^ 32 from
        hfits.1)]
      exact Nat.le_refl _
    have hdec := @decompress_of_fits z hz f.raw buf _ _ hlen hfits.2
      (Nat.mod_lt _ (by decide))
    have htake := @take_splice buf f.raw 0 (Nat.zero_le _)
    rw [Nat.zero_add, List.take_zero, List.nil_append] at htake
    rw [hdec]
    exact ⟨_, rfl, rfl, htake⟩
  · refine iff_of_false ?_ hfits
    have hshort : (f.blob z).compressedSize % 2 ^ 32
          < (z.compress f.raw).length
        ∨ 4 * (z.compress f.raw).length % 2 ^ 32 < f.raw.length := by
      show (z.compress f.raw).length % 2 ^ 32 < _ ∨ _
      omega
    have hdec := @decompress_of_not_fits z hz f.raw buf _ _ hshort
    rintro ⟨fw, hfw, -⟩
    rw [if_pos hdec] at hfw
    cases hfw

-- =================================================================== samples

/-- A byte string that tells where it ends. -/
def tagged : List UInt8 → List UInt8
  | [] => [0]
  | b :: l => 1 :: b :: tagged l

/-- And back. -/
def untagged : List UInt8 → Option (List UInt8)
  | [0] => some []
  | 1 :: b :: l => (untagged l).map (b :: ·)
  | _ => none

theorem untagged_tagged (l : List UInt8) : untagged (tagged l) = some l := by
  induction l with
  | nil => rfl
  | cons b l ih =>
      rw [tagged, untagged, ih]
      rfl

/-- Cut short it is nothing. -/
theorem untagged_take {l : List UInt8} {n : Nat}
    (h : n < (tagged l).length) : untagged ((tagged l).take n) = none := by
  induction l generalizing n with
  | nil =>
      rw [Nat.lt_one_iff.1 h]
      rfl
  | cons b l ih =>
      cases n with
      | zero => rfl
      | succ n =>
          cases n with
          | zero => rfl
          | succ n =>
              have hn : n < (tagged l).length := by
                rw [tagged, List.length_cons, List.length_cons] at h
                omega
              rw [tagged, List.take_succ_cons, List.take_succ_cons,
                untagged, ih hn]
              rfl

/-- It does not look like a zlib stream. -/
theorem tagged_ne {l rest : List UInt8} {n : Nat} :
    (tagged l).take n ≠ 0x78 :: rest := by
  cases l with
  | nil => cases n <;> simp [tagged]
  | cons b l => cases n <;> simp [tagged]

/-- "rtw", and what zlib makes of it at level 9. -/
def sampleImage : List UInt8 := [0x72, 0x74, 0x77]

def samplePacked : List UInt8 :=
  [0x78, 0xda, 0x2b, 0x2a, 0x29, 0x07, 0x00, 0x02, 0xb8, 0x01, 0x5e]

/-- 64 zero bytes, and what zlib makes of them. -/
def blankImage : List UInt8 := List.replicate 64 0

def blankPacked : List UInt8 :=
  [0x78, 0xda, 0x63, 0x60, 0xa0, 0x0c, 0x00, 0x00, 0x00, 0x40, 0x00, 0x01]

/-- zlib on the two images; something as good on the others. -/
def sampleCompress (raw : List UInt8) : List UInt8 :=
  if raw = sampleImage then samplePacked
  else if raw = blankImage then blankPacked else tagged raw

def sampleInflate (src : List UInt8) : Option (List UInt8) :=
  if src = samplePacked then some sampleImage
  else if src = blankPacked then some blankImage else untagged src

def sampleZlib : Zlib where
  compress := sampleCompress
  inflateInit := 0
  inflate := fun src room =>
    match sampleInflate src with
    | some raw => if raw.length ≤ room then (1, raw) else (-5, raw.take room)
    | none => (-5, [])
  inflateEnd := 0

theorem sampleInflate_compress (raw : List UInt8) :
    sampleInflate (sampleCompress raw) = some raw := by
  unfold sampleCompress
  split
  next h => rw [h]; rfl
  next =>
    split
    next h => rw [h]; decide
    next =>
      have hall : (tagged raw).take (tagged raw).length = tagged raw :=
        List.take_length
      have hs : tagged raw ≠ samplePacked := by
        rw [← hall]
        exact tagged_ne
      have hb : tagged raw ≠ blankPacked := by
        rw [← hall]
        exact tagged_ne
      rw [sampleInflate, if_neg hs, if_neg hb, untagged_tagged]

theorem sampleInflate_take {raw : List UInt8} {n : Nat}
    (h : n < (sampleCompress raw).length) :
    sampleInflate ((sampleCompress raw).take n) = none := by
  have hsample : ∀ n < 11, sampleInflate (samplePacked.take n) = none := by
    decide
  have hblank : ∀ n < 12, sampleInflate (blankPacked.take n) = none := by
    decide
  unfold sampleCompress at h ⊢
  split at h
  next heq =>
    rw [if_pos heq]
    exact hsample n h
  next hne =>
    rw [if_neg hne]
    split at h
    next heq =>
      rw [if_pos heq]
      exact hblank n h
    next hne =>
      have hs : (tagged raw).take n ≠ samplePacked := tagged_ne
      have hb : (tagged raw).take n ≠ blankPacked := tagged_ne
      rw [if_neg hne, sampleInflate, if_neg hs, if_neg hb, untagged_take h]

theorem sampleZlib_inverts : sampleZlib.Inverts where
  init_ok := rfl
  end_ok := rfl
  stream_end := by
    intro raw room
    simp only [sampleZlib, sampleInflate_compress]
    split
    next h => exact iff_of_true rfl h
    next h => exact iff_of_false (show (-5 : Int) ≠ 1 by decide) h
  output := by
    intro raw room h
    simp only [sampleZlib, sampleInflate_compress]
    rw [if_pos h]
  truncated := by
    intro raw n room h
    have hnone : sampleInflate ((sampleZlib.compress raw).take n) = none :=
      sampleInflate_take h
    simp only [sampleZlib] at hnone ⊢
    rw [hnone]
    show (-5 : Int) ≠ 1
    decide
  finish := by
    intro src room
    simp only [sampleZlib]
    split
    · split
      · show (1 : Int) ≠ 0
        decide
      · show (-5 : Int) ≠ 0
        decide
    · show (-5 : Int) ≠ 0
      decide

/-- Memory, zeroed. -/
def sampleMem : FwMem where
  ioMalloc := fun n => some (List.replicate n 0)
  ioMallocZero := true

theorem sampleMem_succeeds : sampleMem.Succeeds where
  malloc := fun _ => ⟨_, rfl, List.length_replicate⟩
  mallocZero := rfl

/-- A directory with the file `a.bin`. -/
def sampleFwDir (raw : List UInt8) : FwDir where
  files := [{ name := [0x61, 0x2e, 0x62, 0x69, 0x6e], raw := raw }]
  distinct := List.nodup_singleton _

theorem sampleFwDir_builds (raw : List UInt8) :
    compileBlobs (genFwBlobs sampleZlib (sampleFwDir raw))
      = some ((sampleFwDir raw).bins.map (FwFile.blob sampleZlib)) := by
  rfl

/-- "rtw" arrives, asked for as `b/a.bin`. -/
theorem sample_firmware_arrives :
    ∃ fw, loadFw sampleZlib sampleMem
        ((sampleFwDir sampleImage).bins.map (FwFile.blob sampleZlib))
        [0x62, 0x2f, 0x61, 0x2e, 0x62, 0x69, 0x6e] = some fw
      ∧ fw.Holds sampleImage :=
  (firmware_round_trip_iff sampleZlib_inverts sampleMem_succeeds
    (sampleFwDir_builds sampleImage) List.mem_cons_self (by decide)
    (.inr ⟨[0x62], rfl⟩)).2 (by decide)

/-- 64 zero bytes take 12 when compressed, and do not fit 48. -/
theorem blank_firmware_refused :
    compileBlobs (genFwBlobs sampleZlib (sampleFwDir blankImage))
        = some ((sampleFwDir blankImage).bins.map (FwFile.blob sampleZlib))
      ∧ loadFw sampleZlib sampleMem
        ((sampleFwDir blankImage).bins.map (FwFile.blob sampleZlib))
        [0x61, 0x2e, 0x62, 0x69, 0x6e] = none :=
  ⟨sampleFwDir_builds blankImage, by decide +kernel⟩

end Rtw88
