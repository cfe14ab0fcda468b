/-
What the driver holds and what the slots point to, piece by piece.

`Objects` is the invariant: the driver holds what the slots point to, a
new address was never used, and while the driver is gone there is
neither a key nor a station nor a way to one. Most functions leave all
of it alone (`SameObjects`, Proofs/Ledger.lean); what is left are
`clearKeys`, `releaseSta`, the two installations and `addSta`, one lemma
each.

# Keys

`clearKeys` disables each key before it frees it, but only with
`_powered` set; without it the keys are freed under a driver that still
holds them. So its lemma needs the hardware on or no key there. An
installation disables and frees the old key of its slot first, then asks
the driver for the new one. If the driver refuses it, it is freed and the
slot stays empty, so the invariant holds for every answer of `set_key`.

# The station

`releaseSta` removes the station whatever `sta_add` answered, which the
source never looks at. So its lemma asks for a station that was added.
Only one function makes one, `addSta`, and only where there is none.

Each lemma writes the function as an update of the state whose log is
the old one with a known list in front (`clearKeys_eq`,
`emptyPtkConf_eq`), so that the life of the handles (Lib/Handle.lean)
grows by acts that are computed.
-/
import Rtw88.Proofs.Ledger
import Rtw88.Spec.Lifecycle

namespace Rtw88

variable {hw : Hw} {env : Env} {staOk : Nat → Bool} {s t : Mlme}

-- ================================================================= invariant

/-- The address an observation shows to be in use. -/
def Obs.allocated : Obs → Option Nat
  | .setKey key _ => some key.addr
  | .staAdd addr => some addr
  | _ => none

/-- The driver's objects, and what it takes to keep track of them. -/
structure Objects (staOk : Nat → Bool) (s : Mlme) : Prop where
  keys : Lent (keySlots s) (keyActs s.log)
  apart : (keySlots s).Nodup
  stas : Lent ((staSlot s).filter staOk) (staActs staOk s.log)
  added : ∀ addr ∈ staSlot s, .staAdd addr ∈ s.log
  low : ∀ o ∈ s.log, ∀ addr ∈ o.allocated, addr < s.nextAddr
  down : s.up = false → keySlots s = [] ∧ staSlot s = [] ∧ Dormant s

/-- The key objects' acts in two stretches of the log. -/
theorem keyActs_append (new log : List Obs) :
    keyActs (new ++ log) = keyActs new ++ keyActs log :=
  List.filterMap_append

theorem staActs_append (new log : List Obs) :
    staActs staOk (new ++ log) = staActs staOk new ++ staActs staOk log :=
  List.filterMap_append

/-- An address that no observation shows in use is new to the keys. -/
private theorem Objects.freshKey (h : Objects staOk s) :
    .take s.nextAddr ∉ keyActs s.log := by
  intro hmem
  obtain ⟨o, ho, hact⟩ := List.mem_filterMap.1 hmem
  cases o with
  | setKey key ok =>
      simp only [Obs.keyAct, Option.ite_none_right_eq_some,
        Option.some.injEq, HandleAct.take.injEq] at hact
      have hlow := h.low _ ho key.addr rfl
      omega
  | _ => simp [Obs.keyAct] at hact

/-- And to the stations. -/
private theorem Objects.freshSta (h : Objects staOk s) :
    .take s.nextAddr ∉ staActs staOk s.log := by
  intro hmem
  obtain ⟨o, ho, hact⟩ := List.mem_filterMap.1 hmem
  cases o with
  | staAdd addr =>
      simp only [Obs.staAct, Option.ite_none_right_eq_some,
        Option.some.injEq, HandleAct.take.injEq] at hact
      have hlow := h.low _ ho addr rfl
      omega
  | _ => simp [Obs.staAct] at hact

-- ================================================================== read off

/-- How often a station was removed is in the life of the stations. -/
theorem count_staRemove (addr : Nat) (log : List Obs) :
    log.count (.staRemove addr) = (staActs staOk log).count (.give addr) := by
  induction log with
  | nil => rfl
  | cons o log ih =>
      rw [staActs, List.filterMap_cons, ← staActs]
      cases o with
      | staAdd b =>
          cases hok : staOk b <;> simp [Obs.staAct, hok, ih]
      | staRemove b => simp [Obs.staAct, List.count_cons, ih]
      | _ => simp [Obs.staAct, ih]

/-- A station is taken where `sta_add` answered so. -/
theorem mem_staActs_take {addr : Nat} {log : List Obs} :
    .take addr ∈ staActs staOk log
      ↔ .staAdd addr ∈ log ∧ staOk addr = true := by
  refine ⟨fun hmem => ?_, fun ⟨hmem, hok⟩ =>
    List.mem_filterMap.2 ⟨_, hmem, by simp [Obs.staAct, hok]⟩⟩
  obtain ⟨o, ho, hact⟩ := List.mem_filterMap.1 hmem
  cases o with
  | staAdd b =>
      simp only [Obs.staAct, Option.ite_none_right_eq_some,
        Option.some.injEq, HandleAct.take.injEq] at hact
      obtain ⟨hok, rfl⟩ := hact
      exact ⟨ho, hok⟩
  | _ => simp [Obs.staAct] at hact

/-- The invariant gives the life of the objects. -/
theorem Objects.lifecycle (h : Objects staOk s) : Lifecycle staOk s where
  keys := h.keys
  stas := h.stas
  removed addr := by
    rw [@count_staRemove staOk, h.stas.tidy.count_give addr]
    refine if_congr ?_ rfl rfl
    rw [mem_staActs_take, h.stas.mem addr, List.mem_filter]
    constructor
    · rintro ⟨⟨hadd, hok⟩, hnot⟩
      exact ⟨hadd, hok, fun hmem => hnot ⟨hmem, hok⟩⟩
    · rintro ⟨hadd, hok, hnot⟩
      exact ⟨⟨hadd, hok⟩, fun hmem => hnot hmem.1⟩

-- ================================================================ what stays

/-- What is of no key and no station does nothing to either. -/
private theorem Obs.neutral {o : Obs} (h : o.isObject = false) :
    o.keyAct = none ∧ o.staAct staOk = none ∧ o.allocated = none := by
  cases o <;> first | exact ⟨rfl, rfl, rfl⟩ | cases h

/-- A piece that leaves the keys and the station alone; the power may
change. -/
theorem Objects.keep (h : Objects staOk s) (hup : t.up = s.up)
    (hptk : t.ptkConf = s.ptkConf) (hgtk : t.gtkConf = s.gtkConf)
    (hsta : t.sta = s.sta) (hnext : t.nextAddr = s.nextAddr)
    (hdormant : s.up = false → Dormant s → Dormant t)
    (hgrows : Grows (fun o => o.isObject = false) s t) : Objects staOk t := by
  obtain ⟨new, hlog, hnew⟩ := hgrows
  have hslots : keySlots t = keySlots s := by
    rw [keySlots, hptk, hgtk, keySlots]
  have hslot : staSlot t = staSlot s := by rw [staSlot, hsta, staSlot]
  have hkeys : keyActs t.log = keyActs s.log := by
    have hnil : keyActs new = [] := List.filterMap_eq_nil_iff.2 fun o ho =>
      (@Obs.neutral staOk o (hnew o ho)).1
    rw [hlog, keyActs_append, hnil, List.nil_append]
  have hstas : staActs staOk t.log = staActs staOk s.log := by
    have hnil : staActs staOk new = [] :=
      List.filterMap_eq_nil_iff.2 fun o ho => (Obs.neutral (hnew o ho)).2.1
    rw [hlog, staActs_append, hnil, List.nil_append]
  refine ⟨?_, ?_, ?_, fun addr hmem => ?_, fun o ho addr haddr => ?_,
    fun hdown => ?_⟩
  · rw [hslots, hkeys]
    exact h.keys
  · rw [hslots]
    exact h.apart
  · rw [hslot, hstas]
    exact h.stas
  · rw [hlog]
    exact List.mem_append_right _ (h.added addr (hslot ▸ hmem))
  · rw [hnext]
    rw [hlog] at ho
    rcases List.mem_append.1 ho with ho | ho
    · rw [(@Obs.neutral staOk o (hnew o ho)).2.2] at haddr
      cases haddr
    · exact h.low o ho addr haddr
  · rw [hup] at hdown
    obtain ⟨hk, hs, hd⟩ := h.down hdown
    exact ⟨hslots.trans hk, hslot.trans hs, hdormant hdown hd⟩

/-- A piece that touches no object keeps the account. -/
theorem Objects.same (h : Objects staOk s) (hsame : SameObjects s t) :
    Objects staOk t := by
  obtain ⟨hup, -, hptk, hgtk, hsta, hnext, hdormant, hgrows⟩ := hsame
  exact h.keep hup hptk hgtk hsta hnext hdormant hgrows

-- ===================================================================== keys

/-- A piece that changes the keys: what is left to show is about them. -/
private theorem Objects.rekey (h : Objects staOk s) (new : List Obs)
    (hlog : t.log = new ++ s.log) (hsta : t.sta = s.sta) (hup : t.up = s.up)
    (hstate : t.state = s.state)
    (hret : t.scanReturnState = s.scanReturnState)
    (hnext : s.nextAddr ≤ t.nextAddr) (hnew : staActs staOk new = [])
    (hlow : ∀ o ∈ new, ∀ addr ∈ o.allocated, addr < t.nextAddr)
    (hkeys : Lent (keySlots t) (keyActs t.log)) (hapart : (keySlots t).Nodup)
    (hdown : s.up = false → keySlots t = []) : Objects staOk t := by
  have hslot : staSlot t = staSlot s := by rw [staSlot, hsta, staSlot]
  refine ⟨hkeys, hapart, ?_, fun addr hmem => ?_, fun o ho addr haddr => ?_,
    fun hdown' => ?_⟩
  · rw [hslot, hlog, staActs_append, hnew, List.nil_append]
    exact h.stas
  · rw [hlog]
    exact List.mem_append_right _ (h.added addr (hslot ▸ hmem))
  · rw [hlog] at ho
    rcases List.mem_append.1 ho with ho | ho
    · exact hlow o ho addr haddr
    · exact Nat.lt_of_lt_of_le (h.low o ho addr haddr) hnext
  · rw [hup] at hdown'
    obtain ⟨-, hs, hd⟩ := h.down hdown'
    exact ⟨hdown hdown', hslot.trans hs, by rw [hstate]; exact hd.1,
      by rw [hret]; exact hd.2⟩

/-- What the driver hears when a slot is emptied. -/
private def disabled : Option KeyConf → List Obs
  | some k => [.disableKey k]
  | none => []

/-- What `clearKeys` does to the keys, newest first. -/
def clearingObs (s : Mlme) : List Obs :=
  freed s.gtkConf ++ (freed s.ptkConf
    ++ if s.powered && s.up then disabled s.gtkConf ++ disabled s.ptkConf
      else [])

/-- `clearKeys` empties both slots and logs what it does, newest first. -/
theorem clearKeys_eq (s : Mlme) :
    clearKeys s = { s with
      ptkConf := none, gtkConf := none, ptk := zeros 64, ccmpTxPn := zeros 6
      log := clearingObs s ++ s.log } := by
  rw [clearKeys, disableKeys, clearingObs]
  cases hptk : s.ptkConf <;> cases hgtk : s.gtkConf <;> split <;>
    simp [*, disableKey, dropPtkConf, dropGtkConf, zeroKeys, Mlme.emit, freed,
      disabled]

/-- They are of keys that were there before. -/
private theorem clearingObs_quiet (s : Mlme) :
    staActs staOk (clearingObs s) = []
      ∧ ∀ o ∈ clearingObs s, o.allocated = none := by
  rw [clearingObs]
  cases s.ptkConf <;> cases s.gtkConf <;> split <;>
    simp [freed, disabled, staActs, Obs.staAct, Obs.allocated]

/-- The driver that is told of every key holds none afterwards. -/
private theorem clearingObs_lent (h : Objects staOk s)
    (hcan : keySlots s = [] ∨ (s.powered = true ∧ s.up = true)) :
    Lent [] (keyActs (clearingObs s ++ s.log)) := by
  have hkeys := h.keys
  have hapart := h.apart
  rw [keyActs_append, clearingObs]
  rw [keySlots] at hkeys hapart hcan
  cases hptk : s.ptkConf with
  | none =>
      cases hgtk : s.gtkConf with
      | none =>
          rw [hptk, hgtk] at hkeys
          have hsame : keyActs (freed none ++ (freed none
              ++ if s.powered && s.up then disabled none ++ disabled none
                else [])) = [] := by split <;> rfl
          rw [hsame]
          exact hkeys
      | some g =>
          obtain ⟨hon, hup⟩ := hcan.resolve_left (by simp [hgtk])
          rw [hptk, hgtk] at hkeys
          rw [hon, hup]
          exact (hkeys.give List.mem_cons_self (by simp)).free
            (List.not_mem_nil)
  | some k =>
      obtain ⟨hon, hup⟩ := hcan.resolve_left (by simp [hptk])
      rw [hon, hup]
      cases hgtk : s.gtkConf with
      | none =>
          rw [hptk, hgtk] at hkeys
          exact (hkeys.give List.mem_cons_self (by simp)).free
            (List.not_mem_nil)
      | some g =>
          rw [hptk, hgtk] at hkeys hapart
          have hne : g.addr ≠ k.addr := by
            rintro heq
            simp [heq] at hapart
          have hone : Lent [g.addr] (.give k.addr :: keyActs s.log) :=
            hkeys.give List.mem_cons_self (by
              intro b
              simp only [Option.toList, List.cons_append, List.nil_append,
                List.map_cons, List.map_nil, List.mem_cons,
                List.not_mem_nil, or_false]
              constructor
              · rintro rfl
                exact ⟨.inr rfl, hne⟩
              · rintro ⟨rfl | rfl, hb⟩
                · exact absurd rfl hb
                · rfl)
          exact ((hone.give List.mem_cons_self (by simp)).free
            List.not_mem_nil).free List.not_mem_nil

/-- `clearKeys` that tells the driver of every key. -/
theorem clearKeys_objects (h : Objects staOk s)
    (hcan : s.powered = true ∨ keySlots s = []) :
    Objects staOk (clearKeys s) := by
  have htold : keySlots s = [] ∨ (s.powered = true ∧ s.up = true) := by
    rcases hcan with hon | hnone
    · cases hup : s.up with
      | false => exact .inl (h.down hup).1
      | true => exact .inr ⟨hon, rfl⟩
    · exact .inl hnone
  obtain ⟨hquiet, hold⟩ := @clearingObs_quiet staOk s
  rw [clearKeys_eq]
  refine h.rekey (clearingObs s) rfl rfl rfl rfl rfl (Nat.le_refl _)
    hquiet (fun o ho addr haddr => ?_) (clearingObs_lent h htold)
    List.nodup_nil fun _ => rfl
  rw [hold o ho] at haddr
  cases haddr

/-- The old key of a slot is disabled and freed. -/
private theorem emptySlot_lent {own : List Nat} {log : List Obs}
    {k : Option KeyConf} {rest : List Nat} (h : Lent own (keyActs log))
    (hown : ∀ a, a ∈ own ↔ a ∈ k.toList.map KeyConf.addr ∨ a ∈ rest)
    (hapart : ∀ a ∈ k.toList.map KeyConf.addr, a ∉ rest) :
    Lent rest (keyActs (freed k ++ (disabled k ++ log))) := by
  cases k with
  | none => exact h.congr fun a => by simp [hown]
  | some k =>
      have hk : k.addr ∉ rest := hapart k.addr (by simp)
      refine (h.give ((hown _).2 (.inl (by simp))) fun a => ?_).free hk
      rw [hown]
      simp only [Option.toList, List.map_cons, List.map_nil,
        List.mem_singleton]
      constructor
      · exact fun ha => ⟨.inr ha, fun heq => hk (heq ▸ ha)⟩
      · rintro ⟨heq | ha, hne⟩
        · exact absurd heq hne
        · exact ha

/-- `dropPtkConf` behind `disableKey`, in one piece. -/
private theorem emptyPtkConf_eq (s : Mlme) :
    dropPtkConf (disableKey s.ptkConf s) = { s with
      ptkConf := none
      log := freed s.ptkConf ++ (disabled s.ptkConf ++ s.log) } := by
  cases hptk : s.ptkConf with
  | none =>
      simp only [disableKey, dropPtkConf, hptk]
      show s = { s with ptkConf := none }
      rw [← hptk]
  | some k => simp [disableKey, dropPtkConf, hptk, Mlme.emit, freed, disabled]

/-- The group key's slot emptied by itself. -/
private theorem emptyGtkConf_eq (s : Mlme) :
    dropGtkConf (disableKey s.gtkConf s) = { s with
      gtkConf := none
      log := freed s.gtkConf ++ (disabled s.gtkConf ++ s.log) } := by
  cases hgtk : s.gtkConf with
  | none =>
      simp only [disableKey, dropGtkConf, hgtk]
      show s = { s with gtkConf := none }
      rw [← hgtk]
  | some k => simp [disableKey, dropGtkConf, hgtk, Mlme.emit, freed, disabled]

/-- The observations of an emptied slot are of a key that was there. -/
private theorem emptied_quiet (k : Option KeyConf) :
    staActs staOk (freed k ++ disabled k) = []
      ∧ ∀ o ∈ freed k ++ disabled k, o.allocated = none := by
  cases k <;> simp [freed, disabled, staActs, Obs.staAct, Obs.allocated]

/-- Emptying the pairwise key's slot keeps the account. -/
private theorem emptyPtkConf_objects (h : Objects staOk s) :
    Objects staOk (dropPtkConf (disableKey s.ptkConf s)) := by
  obtain ⟨hquiet, hold⟩ := @emptied_quiet staOk s.ptkConf
  have hslots : keySlots s = s.ptkConf.toList.map KeyConf.addr
      ++ s.gtkConf.toList.map KeyConf.addr := by rw [keySlots, List.map_append]
  have hapart := hslots ▸ h.apart
  rw [emptyPtkConf_eq]
  refine h.rekey (freed s.ptkConf ++ disabled s.ptkConf)
    (List.append_assoc _ _ _).symm rfl rfl rfl rfl (Nat.le_refl _) hquiet
    (fun o ho addr haddr => ?_) ?_ (List.nodup_append.1 hapart).2.1
    fun hdown => ?_
  · rw [hold o ho] at haddr
    cases haddr
  · refine emptySlot_lent h.keys (fun a => ?_) fun a ha hb =>
      (List.nodup_append.1 hapart).2.2 a ha a hb rfl
    rw [hslots, List.mem_append]
    rfl
  · have hnone := (h.down hdown).1
    rw [hslots, List.append_eq_nil_iff] at hnone
    exact hnone.2

/-- Emptying the group key's does. -/
private theorem emptyGtkConf_objects (h : Objects staOk s) :
    Objects staOk (dropGtkConf (disableKey s.gtkConf s)) := by
  obtain ⟨hquiet, hold⟩ := @emptied_quiet staOk s.gtkConf
  have hslots : keySlots s = s.ptkConf.toList.map KeyConf.addr
      ++ s.gtkConf.toList.map KeyConf.addr := by rw [keySlots, List.map_append]
  have hapart := hslots ▸ h.apart
  have hleft : keySlots { s with gtkConf := none }
      = s.ptkConf.toList.map KeyConf.addr := by simp [keySlots]
  rw [emptyGtkConf_eq]
  refine h.rekey (freed s.gtkConf ++ disabled s.gtkConf)
    (List.append_assoc _ _ _).symm rfl rfl rfl rfl (Nat.le_refl _) hquiet
    (fun o ho addr haddr => ?_) ?_ ?_ fun hdown => ?_
  · rw [hold o ho] at haddr
    cases haddr
  · refine emptySlot_lent h.keys (fun a => ?_) fun a ha hb => ?_
    · rw [hslots, List.mem_append, or_comm]
      exact Iff.of_eq (congrArg (_ ∨ a ∈ ·) hleft.symm)
    · exact (List.nodup_append.1 hapart).2.2 a (hleft ▸ hb) a ha rfl
  · exact hleft ▸ (List.nodup_append.1 hapart).1
  · have hnone := (h.down hdown).1
    rw [hslots, List.append_eq_nil_iff] at hnone
    exact hleft.trans hnone.1

/-- The driver refuses a new key: it is freed at once. -/
private theorem refuseKey_objects (h : Objects staOk s) {key : KeyConf}
    (haddr : key.addr = s.nextAddr) :
    Objects staOk
      ((s.bumpAddr.emit (.setKey key false)).emit (.freeKey key.addr)) := by
  refine h.rekey [.freeKey key.addr, .setKey key false] rfl rfl rfl
    rfl rfl (Nat.le_succ _) rfl (fun o ho addr ha => ?_) ?_ h.apart
    fun hdown => (h.down hdown).1
  · show addr < s.nextAddr + 1
    rcases List.mem_cons.1 ho with rfl | ho
    · cases ha
    · rw [List.mem_singleton.1 ho] at ha
      obtain rfl : key.addr = addr := Option.some.inj ha
      omega
  · refine Lent.free h.keys fun hmem => h.freshKey ?_
    have hheld := taken_of_outstanding ((h.keys.mem _).2 hmem)
    rw [haddr] at hheld
    exact hheld

/-- The driver takes a new key, and an empty slot points to it. -/
private theorem takeKey_objects (h : Objects staOk s) (key : KeyConf)
    (haddr : key.addr = s.nextAddr) (hup : s.up = true)
    (hlog : t.log = .setKey key true :: s.log) (hsta : t.sta = s.sta)
    (hupt : t.up = s.up) (hstate : t.state = s.state)
    (hret : t.scanReturnState = s.scanReturnState)
    (hnext : t.nextAddr = s.nextAddr + 1)
    (hslots : ∀ a, a ∈ keySlots t ↔ a ∈ key.addr :: keySlots s)
    (hapart : (keySlots t).Nodup) : Objects staOk t := by
  refine h.rekey [.setKey key true] hlog hsta hupt hstate hret
    (by omega) rfl (fun o ho addr ha => ?_) ?_ hapart fun hdown => ?_
  · rw [List.mem_singleton.1 ho] at ha
    obtain rfl : key.addr = addr := Option.some.inj ha
    omega
  · rw [hlog]
    exact (h.keys.take (haddr ▸ h.freshKey)).congr hslots
  · rw [hup] at hdown
    cases hdown

/-- A new address is in no slot. -/
private theorem Objects.next_not_mem (h : Objects staOk s) :
    s.nextAddr ∉ keySlots s := fun hmem =>
  h.freshKey (taken_of_outstanding ((h.keys.mem _).2 hmem))

/-- The slot is empty afterwards. -/
private theorem emptyPtkConf_slots (s : Mlme) :
    (dropPtkConf (disableKey s.ptkConf s)).ptkConf = none := by
  rw [emptyPtkConf_eq]

/-- `installKey` on the pairwise slot, whatever is answered. -/
theorem installPairwise_objects (h : Objects staOk s) (alloc set : Bool)
    (keyidx : UInt8) (cipher : UInt32) (tk : List UInt8) :
    Objects staOk (installPairwise alloc set keyidx cipher tk s).2 := by
  have hempty := emptyPtkConf_objects h
  have hslot := emptyPtkConf_slots s
  have hupt : (dropPtkConf (disableKey s.ptkConf s)).up = s.up := by
    rw [emptyPtkConf_eq]
  rw [installPairwise]
  split
  next => exact h
  next hargs =>
    have hup : s.up = true := by
      by_contra hdown
      exact hargs (by simp [hdown])
    simp only
    generalize dropPtkConf (disableKey s.ptkConf s) = t at hempty hslot hupt ⊢
    have hslots : keySlots t = t.gtkConf.toList.map KeyConf.addr := by
      rw [keySlots, hslot]
      rfl
    split
    · exact hempty
    · cases set with
      | false => exact refuseKey_objects hempty rfl
      | true =>
          refine takeKey_objects hempty
            (newKeyConf t.nextAddr true keyidx cipher tk) rfl
            (hupt.trans hup) rfl rfl rfl rfl rfl rfl (fun a => ?_) ?_
          · rw [hslots]
            exact Iff.rfl
          · exact List.nodup_cons.2 ⟨hslots ▸ hempty.next_not_mem,
              hslots ▸ hempty.apart⟩

/-- And on the group slot. -/
theorem installGroup_objects (h : Objects staOk s) (alloc set : Bool)
    (keyidx : UInt8) (cipher : UInt32) (tk : List UInt8) :
    Objects staOk (installGroup alloc set keyidx cipher tk s).2 := by
  have hempty := emptyGtkConf_objects h
  have hslot : (dropGtkConf (disableKey s.gtkConf s)).gtkConf = none := by
    rw [emptyGtkConf_eq]
  have hupt : (dropGtkConf (disableKey s.gtkConf s)).up = s.up := by
    rw [emptyGtkConf_eq]
  rw [installGroup]
  split
  next => exact h
  next hargs =>
    have hup : s.up = true := by
      by_contra hdown
      exact hargs (by simp [hdown])
    simp only
    generalize dropGtkConf (disableKey s.gtkConf s) = t at hempty hslot hupt ⊢
    split
    · exact hempty
    · cases set with
      | false => exact refuseKey_objects hempty rfl
      | true =>
          have hslots : keySlots (setGtkConf
              (newKeyConf t.nextAddr false keyidx cipher tk) t)
              = keySlots t ++ [t.nextAddr] := by
            rw [keySlots, keySlots, hslot]
            simp [setGtkConf, newKeyConf]
          refine takeKey_objects hempty
            (newKeyConf t.nextAddr false keyidx cipher tk) rfl
            (hupt.trans hup) rfl rfl rfl rfl rfl rfl (fun a => ?_) ?_
          · exact (Iff.of_eq (congrArg (a ∈ ·) hslots)).trans
              (by simp [newKeyConf, or_comm])
          · refine hslots ▸ List.nodup_append.2 ⟨hempty.apart,
              List.nodup_singleton _, fun a ha b hb heq => ?_⟩
            rw [List.mem_singleton.1 hb] at heq
            exact hempty.next_not_mem (heq ▸ ha)

-- ================================================================== station

/-- A new station is registered. -/
theorem addSta_objects (h : Objects staOk s) (hup : s.up = true)
    (aid : UInt16) : Objects staOk (addSta hw env aid s) := by
  rw [addSta]
  split
  next => exact h
  next hnone =>
    have hsta : s.sta = none := by
      cases hs : s.sta with
      | none => rfl
      | some sta => exact absurd (by simp [hs]) hnone
    have haddr : (newSta hw aid s).addr = s.nextAddr := rfl
    have hempty : staSlot s = [] := by
      rw [staSlot, hsta]
      rfl
    refine ⟨h.keys, h.apart, ?_, fun addr hmem => ?_,
      fun o ho addr ha => ?_, fun hdown => ?_⟩
    · have hslot := h.stas
      rw [hempty] at hslot
      show Lent ([s.nextAddr].filter staOk)
        (staActs staOk (.staAdd s.nextAddr :: s.log))
      rw [staActs, List.filterMap_cons, ← staActs]
      cases hok : staOk s.nextAddr with
      | true =>
          simp only [Obs.staAct, hok, if_true, List.filter_cons,
            List.filter_nil]
          exact hslot.take h.freshSta
      | false =>
          simp only [Obs.staAct, hok, List.filter_cons]
          exact hslot
    · obtain rfl : addr = s.nextAddr := List.mem_singleton.1 hmem
      exact List.mem_cons_self
    · show addr < s.nextAddr + 1
      rcases List.mem_cons.1 ho with rfl | ho
      · obtain rfl : s.nextAddr = addr := Option.some.inj ha
        omega
      · exact Nat.lt_succ_of_lt (h.low o ho addr ha)
    · rw [show s.up = false from hdown] at hup
      cases hup

/-- A frame is not an object of the driver's. -/
theorem kfreeSkb_same (skb : SkBuff) (s : Mlme) :
    SameObjects s (kfreeSkb skb s) := (SameObjects.refl s).emit _ rfl

theorem kfreeAll_same (skbs : List SkBuff) (s : Mlme) :
    SameObjects s (kfreeAll skbs s) := by
  induction skbs generalizing s with
  | nil => exact .refl s
  | cons skb skbs ih => exact (kfreeSkb_same skb s).trans (ih _)

/-- The reorder windows hold frames, and no objects. -/
theorem rxBaTeardownAll_same (s : Mlme) :
    SameObjects s (rxBaTeardownAll s) := by
  have hfold : ∀ (tids : List Nat) (s : Mlme),
      SameObjects s (tids.foldl (fun s tid => s.rxBaTeardown tid) s) := by
    intro tids
    induction tids with
    | nil => exact fun s => .refl s
    | cons tid tids ih =>
        intro s
        have hone : SameObjects s (s.rxBaTeardown tid) :=
          (show SameObjects s { s with
            rxBa := (Rtw88.rxBaTeardown tid s.rxBa).rxBa } from .refl s).trans
              (kfreeAll_same _ _)
        exact hone.trans (ih _)
  exact hfold _ s

/-- The station of the object is removed and freed. -/
theorem releaseSta_objects (h : Objects staOk s)
    (hok : ∀ addr ∈ staSlot s, staOk addr = true) :
    Objects staOk (releaseSta s) := by
  rw [releaseSta]
  split
  next => exact h
  next sta hsta =>
    have hslot : staSlot s = [sta.addr] := by
      rw [staSlot, hsta]
      rfl
    have hup : s.up = true := by
      by_contra hdown
      have hnone := (h.down (by simpa using hdown)).2.1
      rw [hslot] at hnone
      cases hnone
    rw [if_pos hup]
    refine Objects.same ?_ (rxBaTeardownAll_same _)
    refine ⟨h.keys, h.apart, ?_, fun addr hmem => (by cases hmem),
      fun o ho addr ha => ?_, fun hdown => ?_⟩
    · have hstas := h.stas
      rw [hslot, List.filter_cons_of_pos (hok _ (by simp [hslot]))] at hstas
      have hnone : Lent [] (.give sta.addr :: staActs staOk s.log) :=
        hstas.give List.mem_cons_self (by simp)
      exact hnone.free List.not_mem_nil
    · rcases List.mem_cons.1 ho with rfl | ho
      · cases ha
      · rcases List.mem_cons.1 ho with rfl | ho
        · cases ha
        · exact h.low o ho addr ha
    · rw [show s.up = false from hdown] at hup
      cases hup

end Rtw88
