/-
Key and station lifetime: `clearKeys`, `releaseSta`, `installKey`, and
`rxBaTeardownAll` at the object's own reorder buffers.
-/
import Rtw88.Model.State

namespace Rtw88

/-- `kfree_skb(skb)`. -/
def kfreeSkb (skb : SkBuff) (s : Mlme) : Mlme := s.emit (.kfreeSkb skb)

/-- `kfree_skb` on each of a list. -/
def kfreeAll (skbs : List SkBuff) (s : Mlme) : Mlme :=
  skbs.foldl (fun s skb => kfreeSkb skb s) s

-- ========================================================= reorder buffers

/-- `rxBaTeardown(tid)`. -/
def Mlme.rxBaTeardown (tid : Nat) (s : Mlme) : Mlme :=
  let o := Rtw88.rxBaTeardown tid s.rxBa
  kfreeAll o.freed { s with rxBa := o.rxBa }

/-- `rxBaTeardownAll`. -/
def rxBaTeardownAll (s : Mlme) : Mlme :=
  (List.range kRxBaNumTid).foldl (fun s tid => s.rxBaTeardown tid) s

-- ================================================================== keys

/-- `ops->set_key(DISABLE_KEY, …)` on a key that is there. -/
def disableKey (k : Option KeyConf) (s : Mlme) : Mlme :=
  match k with
  | some k => s.emit (.disableKey k)
  | none => s

/-- `IOFree(_ptkConf); _ptkConf = nullptr`, if it is there. -/
def dropPtkConf (s : Mlme) : Mlme :=
  match s.ptkConf with
  | some k => { s with ptkConf := none }.emit (.freeKey k.addr)
  | none => s

/-- `IOFree(_gtkConf); _gtkConf = nullptr`, if it is there. -/
def dropGtkConf (s : Mlme) : Mlme :=
  match s.gtkConf with
  | some k => { s with gtkConf := none }.emit (.freeKey k.addr)
  | none => s

/-- The driver forgets both keys, if it is powered. -/
def disableKeys (s : Mlme) : Mlme :=
  if s.powered && s.up then disableKey s.gtkConf (disableKey s.ptkConf s)
  else s

/-- The `memset`s at the end of `clearKeys`. -/
def zeroKeys (s : Mlme) : Mlme :=
  { s with ptk := zeros 64, ccmpTxPn := zeros 6 }

/-- `clearKeys`. -/
def clearKeys (s : Mlme) : Mlme :=
  zeroKeys (dropGtkConf (dropPtkConf (disableKeys s)))

/-- The assignments of `releaseSta`. -/
def forgetSta (s : Mlme) : Mlme :=
  { s with sta := none, txBaActive := false, dataSeq := 0 }

/-- `releaseSta`. -/
def releaseSta (s : Mlme) : Mlme :=
  match s.sta with
  | none => s
  | some sta =>
      let s := if s.up then s.emit (.staRemove sta.addr) else s
      rxBaTeardownAll (forgetSta (s.emit (.freeSta sta.addr)))

/-- The `key_conf` that `installKey` fills in. -/
def newKeyConf (addr : Nat) (pairwise : Bool) (keyidx : UInt8)
    (cipher : UInt32) (tk : List UInt8) : KeyConf :=
  { addr := addr, cipher := cipher, keyidx := keyidx, pairwise := pairwise
    generateMmic := cipher == cipherTkip, ivLen := 8
    icvLen := if cipher = cipherTkip then 4 else 8, key := tk }

/-- `*slot = key` on the pairwise slot: the packet number restarts. -/
def setPtkConf (key : KeyConf) (s : Mlme) : Mlme :=
  { s with ptkConf := some key, ccmpTxPn := zeros 6 }

/-- `*slot = key` on the group slot. -/
def setGtkConf (key : KeyConf) (s : Mlme) : Mlme :=
  { s with gtkConf := some key }

/-- The lengths `installKey` accepts for a cipher. -/
def keyLengthOk (cipher : UInt32) (len : Nat) : Bool :=
  (cipher == cipherCcmp && len == 16) || (cipher == cipherTkip && len == 32)

/-- `installKey(&_ptkConf, true, …)`: whether it succeeded, and the state
after. The old key is gone before the new one is tried. -/
def installPairwise (alloc set : Bool) (keyidx : UInt8) (cipher : UInt32)
    (tk : List UInt8) (s : Mlme) : Bool × Mlme :=
  if !s.up || !keyLengthOk cipher tk.length then (false, s)
  else
    let s := dropPtkConf (disableKey s.ptkConf s)
    if !alloc then (false, s)
    else
      let key := newKeyConf s.nextAddr true keyidx cipher tk
      let s := s.bumpAddr.emit (.setKey key set)
      if !set then (false, s.emit (.freeKey key.addr))
      else (true, setPtkConf key s)

/-- `installKey(&_gtkConf, false, …)`: the same code on the group slot,
without the PN reset. -/
def installGroup (alloc set : Bool) (keyidx : UInt8) (cipher : UInt32)
    (tk : List UInt8) (s : Mlme) : Bool × Mlme :=
  if !s.up || !keyLengthOk cipher tk.length then (false, s)
  else
    let s := dropGtkConf (disableKey s.gtkConf s)
    if !alloc then (false, s)
    else
      let key := newKeyConf s.nextAddr false keyidx cipher tk
      let s := s.bumpAddr.emit (.setKey key set)
      if !set then (false, s.emit (.freeKey key.addr))
      else (true, setGtkConf key s)

end Rtw88
