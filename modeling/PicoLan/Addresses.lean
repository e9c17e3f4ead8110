import PicoLan.Device

/-!
# Address fields as sets

`AddressField` with its two accessors, `set_addr` and `get_addr`.  An address is one bit;
the others stay (`AddressField.getAddr_setBit`).
-/

namespace PicoLan

namespace AddressField

theorem slot_lt (addr : UInt8) : addr.toNat / 8 < 32 := by
  have := addr.toNat_lt
  omega

/-- The byte of an address. -/
def slot (addr : UInt8) : Fin 32 := ⟨addr.toNat / 8, slot_lt addr⟩

/-- `set_addr` with its second argument; `bits[bf].set_bit(bit, set)` sets or clears a bit. -/
def setBit (af : AddressField) (addr : UInt8) (set : Bool) : AddressField :=
  af.set (slot addr) (if set then af[slot addr] ||| 1 <<< (addr % 8)
    else af[slot addr] &&& ~~~(1 <<< (addr % 8)))

/-- `bits[bf].read_bit(bit)` -/
def getAddr (af : AddressField) (addr : UInt8) : Bool :=
  af[slot addr].toBitVec.getLsbD (addr.toNat % 8)

/-- The second argument is true by default. -/
theorem setAddr_eq (af : AddressField) (addr : UInt8) : af.setAddr addr = af.setBit addr true := rfl

theorem addr_ext {addr a : UInt8} (hslot : slot a = slot addr) (hbit : a.toNat % 8 = addr.toNat % 8) :
    a = addr := by
  have hdiv : a.toNat / 8 = addr.toNat / 8 := congrArg Fin.val hslot
  refine UInt8.toNat_inj.mp ?_
  rw [← Nat.div_add_mod a.toNat 8, hdiv, hbit, Nat.div_add_mod]

theorem mask_bit (addr : UInt8) (i : Nat) :
    ((1 : UInt8) <<< (addr % 8)).toBitVec.getLsbD i = decide (i = addr.toNat % 8) := by
  have hbit : addr.toNat % 8 < 8 := Nat.mod_lt _ (by omega)
  have hmask : ((1 : UInt8) <<< (addr % 8)).toBitVec = BitVec.twoPow 8 (addr.toNat % 8) := by
    rw [UInt8.toBitVec_shiftLeft]
    apply BitVec.eq_of_toNat_eq
    simp [BitVec.toNat_twoPow, Nat.shiftLeft_eq]
  rw [hmask, BitVec.getLsbD_twoPow]
  simp [hbit, eq_comm]

/-- `set_bit` -/
theorem setBit_bit (b addr : UInt8) (set : Bool) {i : Nat} (hi : i < 8) :
    (if set then b ||| 1 <<< (addr % 8) else b &&& ~~~(1 <<< (addr % 8))).toBitVec.getLsbD i =
      if i = addr.toNat % 8 then set else b.toBitVec.getLsbD i := by
  have hmask := mask_bit addr i
  generalize (1 : UInt8) <<< (addr % 8) = mask at hmask
  cases set
  · rw [if_neg Bool.false_ne_true, UInt8.toBitVec_and, UInt8.toBitVec_not, BitVec.getLsbD_and,
      BitVec.getLsbD_not, hmask]
    by_cases h : i = addr.toNat % 8 <;> simp [h, hi]
  · rw [if_pos rfl, UInt8.toBitVec_or, BitVec.getLsbD_or, hmask]
    by_cases h : i = addr.toNat % 8 <;> simp [h]

/-- **An address is one bit.** -/
theorem getAddr_setBit (af : AddressField) (addr : UInt8) (set : Bool) (a : UInt8) :
    (af.setBit addr set).getAddr a = if a = addr then set else af.getAddr a := by
  have hcell : (af.setBit addr set)[slot a] = if slot a = slot addr then
      (if set then af[slot addr] ||| 1 <<< (addr % 8) else af[slot addr] &&& ~~~(1 <<< (addr % 8)))
      else af[slot a] := by
    unfold setBit
    rw [Fin.getElem_fin, Vector.getElem_set]
    simp only [Fin.ext_iff, eq_comm]
    rfl
  unfold getAddr
  rw [hcell]
  by_cases hslot : slot a = slot addr
  · have hcell' : af[slot a] = af[slot addr] := congrArg (af[·]) hslot
    have heq : a.toNat % 8 = addr.toNat % 8 ↔ a = addr := ⟨addr_ext hslot, fun h => by rw [h]⟩
    rw [if_pos hslot, setBit_bit _ _ _ (Nat.mod_lt _ (by omega)), hcell']
    simp only [heq]
  · have hne : a ≠ addr := fun h => hslot (by rw [h])
    rw [if_neg hslot, if_neg hne]

theorem getAddr_empty (a : UInt8) : getAddr (Vector.replicate 32 0) a = false := by
  simp [getAddr]

/-- The field of one address. -/
def only (addr : UInt8) : AddressField := AddressField.setAddr (Vector.replicate 32 0) addr

theorem getAddr_only (addr a : UInt8) : (only addr).getAddr a = decide (a = addr) := by
  unfold only
  rw [setAddr_eq, getAddr_setBit, getAddr_empty]
  by_cases h : a = addr <;> simp [h]

end AddressField

/-- What the last answer said. -/
def Device.lookupAddrList (D : Device) (addr : UInt8) : Bool := D.addrField.getAddr addr

end PicoLan
