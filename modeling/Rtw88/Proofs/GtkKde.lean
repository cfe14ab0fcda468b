/-
`extract_gtk_from_kde` finds the first GTK KDE of its key data and
nothing else: `gtk_extracted`.

On a list of elements the walk is the list (`elems_flatMap`), and
key-data padding adds elements without a body; on other bytes every
element of the walk still stands in them (`elems_within`).

Padding is 0xdd and then zeros, and 0xdd is the identifier of a KDE too.
An element that begins there has a length byte of zero, or none at all
where the padding is one byte, and so no body to be a GTK KDE
(`IsKeyPad.no_gtk`). A key of more than 32 bytes is passed over, as the
buffer it would go into has no more.
-/
import Rtw88.Proofs.EapolAccess

namespace Rtw88

-- =================================================================== padding

/-- IEEE 802.11 key-data padding: nothing, or 0xdd and zero bytes. -/
def IsKeyPad (pad : List UInt8) : Prop :=
  pad = [] ∨ ∃ k, pad = 0xdd :: List.replicate k 0

/-- Padding holds no GTK KDE: the length of an element in it is one of
the zeros. -/
theorem IsKeyPad.no_gtk {pad : List UInt8} (h : IsKeyPad pad) {e : Elem}
    (he : e ∈ elems pad) : isGtkKde e = false := by
  rcases h with rfl | ⟨k, rfl⟩
  · cases he
  · obtain ⟨hbody, before, after, heq⟩ := elems_within he
    have hmem : UInt8.ofNat e.body.length ∈ List.replicate k (0 : UInt8) := by
      cases before with
      | nil =>
          rw [List.nil_append, Elem.bytes, List.cons_append] at heq
          rw [(List.cons.inj heq).2]
          exact List.mem_cons_self
      | cons b before =>
          rw [List.cons_append, List.cons_append] at heq
          rw [(List.cons.inj heq).2, Elem.bytes]
          simp
    have hzero : UInt8.ofNat e.body.length = 0 := List.eq_of_mem_replicate hmem
    have hlen : e.body.length = 0 := by
      have hnat := congrArg UInt8.toNat hzero
      rw [UInt8.toNat_ofNat'] at hnat
      have hzero' : (0 : UInt8).toNat = 0 := rfl
      omega
    unfold isGtkKde
    rw [hlen]
    simp

-- ==================================================================== search

/-- A GTK KDE of at most 32 key bytes gives its key and its index. -/
theorem gtkOfKde_eq_some {e : Elem} {key : List UInt8} {idx : UInt8} :
    gtkOfKde e = some (key, idx)
      ↔ e.body.length - 6 ≤ 32 ∧ key = e.body.drop 6
        ∧ idx = peek e.body 4 &&& 0x3 := by
  unfold gtkOfKde
  split
  next hlong =>
    refine ⟨fun h => (by cases h), fun h => ?_⟩
    omega
  next hshort =>
    rw [Option.some.injEq, Prod.mk.injEq]
    refine ⟨fun h => ⟨by omega, h.1.symm, h.2.symm⟩, fun h => ?_⟩
    exact ⟨h.2.1.symm, h.2.2.symm⟩

/-- What the search returns of the elements it walks over. -/
theorem extractGtkFromKde_eq (d : List UInt8) :
    extractGtkFromKde d = ((elems d).find? isGtkKde).bind gtkOfKde := rfl

-- ==================================================================== result

/-- On elements and padding the search returns the key bytes and the
index of the first GTK KDE, if there is one and it holds at most 32 key
bytes. On any bytes what it returns is a complete GTK KDE in them, and
the loop, with its 16-bit position, reads nothing but the key data and
writes no more than the 32 bytes of the key. -/
theorem gtk_extracted :
    (∀ (es : List Elem) (pad key : List UInt8) (idx : UInt8),
        (∀ e ∈ es, e.body.length < 256) → IsKeyPad pad →
        (extractGtkFromKde (es.flatMap Elem.bytes ++ pad) = some (key, idx)
          ↔ ∃ e, es.find? isGtkKde = some e ∧ e.body.length - 6 ≤ 32
            ∧ key = e.body.drop 6 ∧ idx = peek e.body 4 &&& 0x3))
      ∧ (∀ (d key : List UInt8) (idx : UInt8),
        extractGtkFromKde d = some (key, idx) →
        ∃ e before after, d = before ++ Elem.bytes e ++ after
          ∧ e.body.length < 256 ∧ isGtkKde e = true ∧ key.length ≤ 32
          ∧ key = e.body.drop 6 ∧ idx = peek e.body 4 &&& 0x3)
      ∧ ∀ (b : EapolBuf) (d : List UInt8) (base : Nat) (len : UInt16),
        base + len.toNat ≤ d.length →
        let run := extractGtkFromKdeT b d base len 0
        run.All (KdeTouch b base len.toNat)
          ∧ run.val.1 = extractGtkFromKde ((d.drop base).take len.toNat) := by
  refine ⟨fun es pad key idx hes hpad => ?_, fun d key idx h => ?_,
    fun b d base len hlen => ?_⟩
  · have hfind : (es ++ elems pad).find? isGtkKde = es.find? isGtkKde := by
      rw [List.find?_append]
      have hnone : (elems pad).find? isGtkKde = none :=
        List.find?_eq_none.2 fun e he => by simp [hpad.no_gtk he]
      rw [hnone, Option.or_none]
    rw [extractGtkFromKde_eq, elems_flatMap hes, hfind,
      Option.bind_eq_some_iff]
    exact exists_congr fun e => and_congr_right fun _ => gtkOfKde_eq_some
  · rw [extractGtkFromKde_eq, Option.bind_eq_some_iff] at h
    obtain ⟨e, hfind, hgtk⟩ := h
    obtain ⟨hbody, before, after, heq⟩ :=
      elems_within (List.mem_of_find?_eq_some hfind)
    obtain ⟨hle, hkey, hidx⟩ := gtkOfKde_eq_some.1 hgtk
    refine ⟨e, before, after, heq, hbody, List.find?_some hfind, ?_, hkey,
      hidx⟩
    rw [hkey, List.length_drop]
    exact hle
  · obtain ⟨htouch, hval, -⟩ := @extractGtkFromKdeT_spec b d base len hlen
      len.toNat 0 (Nat.zero_le _) (Nat.le_add_left _ _)
    refine ⟨htouch, hval.trans ?_⟩
    show ((elemsUpTo len.toNat (((d.drop base).take len.toNat).drop 0)).find?
      isGtkKde).bind gtkOfKde = _
    rw [List.drop_zero, extractGtkFromKde_eq, elemsUpTo_eq_elems]
    exact List.length_take_le _ _

end Rtw88
