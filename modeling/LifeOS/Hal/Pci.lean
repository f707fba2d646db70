import Mathlib.Algebra.GroupWithZero.Nat
import LifeOS.Library.Loops

/-!
PCI configuration space through the ports `0xCF8` and `0xCFC`, as in `hal/pci.h`, on a
machine whose configuration space does not change.
-/

namespace LifeOS.Hal
open LifeOS.Library.Loops

/-- The registers of four bytes of each function of each device on each bus. -/
abbrev ConfigSpace := Fin 256 → Fin 32 → Fin 8 → Fin 64 → BitVec 32

/-- What a read of port `0xCFC` returns after `address` was written to port `0xCF8`. -/
def configData (space : ConfigSpace) (address : BitVec 32) : BitVec 32 :=
  if address.toNat / 2 ^ 31 = 1 then
    space (Fin.ofNat 256 (address.toNat / 2 ^ 16)) (Fin.ofNat 32 (address.toNat / 2 ^ 11))
      (Fin.ofNat 8 (address.toNat / 2 ^ 8)) (Fin.ofNat 64 (address.toNat / 2 ^ 2))
  else 0xFFFFFFFF#32

def pciConfigRead (space : ConfigSpace) (bus dev func offset : BitVec 8) : BitVec 32 :=
  let address := (1#32 <<< 31) ||| (bus.setWidth 32 <<< 16) ||| (dev.setWidth 32 <<< 11) |||
    (func.setWidth 32 <<< 8) ||| (offset &&& 0xFC#8).setWidth 32
  configData space address

def halPciClassCode (space : ConfigSpace) (bus dev func : BitVec 8) : BitVec 8 :=
  let data := pciConfigRead space bus dev func 8#8
  ((data >>> 24) &&& 0xFF#32).setWidth 8

def halPciSubclassCode (space : ConfigSpace) (bus dev func : BitVec 8) : BitVec 8 :=
  let data := pciConfigRead space bus dev func 8#8
  ((data >>> 16) &&& 0xFF#32).setWidth 8

def halPciVendorId (space : ConfigSpace) (bus dev func : BitVec 8) : BitVec 16 :=
  let data := pciConfigRead space bus dev func 0#8
  (data &&& 0xFFFF#32).setWidth 16

def halPciDeviceId (space : ConfigSpace) (bus dev func : BitVec 8) : BitVec 16 :=
  let data := pciConfigRead space bus dev func 0#8
  ((data >>> 16) &&& 0xFFFF#32).setWidth 16

def countFunction (space : ConfigSpace) (bus dev func : BitVec 8) (count : BitVec 32) : BitVec 32 :=
  let data := pciConfigRead space bus dev func 0#8
  if data &&& 0xFFFF#32 ≠ 0xFFFF#32 then count + 1#32 else count

def halPciDeviceCount (space : ConfigSpace) : BitVec 32 :=
  forRange 256 (fun bus count =>
    forRange 32 (fun dev count =>
      forRange 8 (fun func count =>
        countFunction space (BitVec.ofNat 8 bus) (BitVec.ofNat 8 dev) (BitVec.ofNat 8 func) count)
        count) count) 0#32

structure Place where
  bus : Fin 256
  dev : Fin 32
  func : Fin 8

def places : List Place :=
  (List.finRange 256).flatMap fun bus => (List.finRange 32).flatMap fun dev =>
    (List.finRange 8).flatMap fun func => [⟨bus, dev, func⟩]

namespace Place

def vendorId (space : ConfigSpace) (p : Place) : BitVec 16 := (space p.bus p.dev p.func 0).extractLsb' 0 16

def deviceId (space : ConfigSpace) (p : Place) : BitVec 16 := (space p.bus p.dev p.func 0).extractLsb' 16 16

def classCode (space : ConfigSpace) (p : Place) : BitVec 8 := (space p.bus p.dev p.func 2).extractLsb' 24 8

def subclassCode (space : ConfigSpace) (p : Place) : BitVec 8 := (space p.bus p.dev p.func 2).extractLsb' 16 8

def Present (space : ConfigSpace) (p : Place) : Prop := p.vendorId space ≠ 0xFFFF#16

instance (space : ConfigSpace) (p : Place) : Decidable (p.Present space) := inferInstanceAs (Decidable (_ ≠ _))

end Place

def present (space : ConfigSpace) : List Place := places.filter (Place.Present space)

theorem places_length : places.length = 65536 := by
  have functions (bus : Fin 256) (dev : Fin 32) :
      ((List.finRange 8).flatMap fun func => [Place.mk bus dev func]).length = 8 := by
    simp [List.length_flatMap]
  have devices (bus : Fin 256) : ((List.finRange 32).flatMap fun dev =>
      (List.finRange 8).flatMap fun func => [Place.mk bus dev func]).length = 256 := by
    rw [List.length_flatMap]
    simp only [functions, List.map_const', List.sum_replicate_nat, List.length_finRange]
  unfold places
  rw [List.length_flatMap]
  simp only [devices, List.map_const', List.sum_replicate_nat, List.length_finRange]

/-- Three loops over buses, devices and functions pass every place once, in order. -/
theorem forPlaces {σ : Type} (body : BitVec 8 → BitVec 8 → BitVec 8 → σ → Option σ) (held : List Place → σ → Prop)
    (s : σ) (start : held [] s)
    (next : ∀ (p : Place) passed t, held passed t →
      ∃ u, body (BitVec.ofNat 8 p.bus.val) (BitVec.ofNat 8 p.dev.val) (BitVec.ofNat 8 p.func.val) t = some u ∧
        held (passed ++ [p]) u) :
    ∃ u, forUp 0 256 (fun bus s => forUp 0 32 (fun dev s => forUp 0 8 (fun func s =>
        body (BitVec.ofNat 8 bus) (BitVec.ofNat 8 dev) (BitVec.ofNat 8 func) s) s) s) s = some u ∧
      held places u := by
  have device (bus : Fin 256) (dev : Fin 32) (passed : List Place) (s : σ) (held_so_far : held passed s) :=
    forUp_visits (fun func s => body (BitVec.ofNat 8 bus.val) (BitVec.ofNat 8 dev.val) (BitVec.ofNat 8 func) s)
      (fun func => [Place.mk bus dev func]) held passed s held_so_far
      (fun func _ _ so_far => next ⟨bus, dev, func⟩ _ _ so_far)
  have bus (bus : Fin 256) (passed : List Place) (s : σ) (held_so_far : held passed s) :=
    forUp_visits (fun dev s => forUp 0 8 (fun func s => body (BitVec.ofNat 8 bus.val) (BitVec.ofNat 8 dev)
        (BitVec.ofNat 8 func) s) s)
      (fun dev => (List.finRange 8).flatMap fun func => [Place.mk bus dev func]) held passed s held_so_far
      (device bus)
  exact forUp_visits (fun bus s => forUp 0 32 (fun dev s => forUp 0 8 (fun func s =>
      body (BitVec.ofNat 8 bus) (BitVec.ofNat 8 dev) (BitVec.ofNat 8 func) s) s) s)
    (fun bus => (List.finRange 32).flatMap fun dev => (List.finRange 8).flatMap fun func => [Place.mk bus dev func])
    held [] s start bus

/-- The five fields of the address do not overlap. -/
theorem address_toNat (bus : Fin 256) (dev : Fin 32) (func : Fin 8) (reg : BitVec 8) :
    ((1#32 <<< 31) ||| ((BitVec.ofNat 8 bus.val).setWidth 32 <<< 16) |||
      ((BitVec.ofNat 8 dev.val).setWidth 32 <<< 11) ||| ((BitVec.ofNat 8 func.val).setWidth 32 <<< 8) |||
      reg.setWidth 32).toNat = (((2 ^ 15 + bus.val) * 32 + dev.val) * 8 + func.val) * 2 ^ 8 + reg.toNat := by
  have field (v : Nat) (few : v < 256) (k : Nat) (low : v * 2 ^ k < 2 ^ 32) :
      ((BitVec.ofNat 8 v).setWidth 32 <<< k).toNat = v * 2 ^ k := by
    rw [BitVec.toNat_shiftLeft, BitVec.toNat_setWidth, BitVec.toNat_ofNat, Nat.mod_eq_of_lt few,
      Nat.mod_eq_of_lt (show v < 2 ^ 32 by omega), Nat.shiftLeft_eq, Nat.mod_eq_of_lt low]
  have joined (high low k : Nat) (below : low < 2 ^ k) : high * 2 ^ k ||| low = high * 2 ^ k + low := by
    rw [← Nat.shiftLeft_eq]
    exact (Nat.shiftLeft_add_eq_or_of_lt below high).symm
  have small := reg.isLt
  rw [BitVec.toNat_or, BitVec.toNat_or, BitVec.toNat_or, BitVec.toNat_or, field bus.val (by omega) 16 (by omega),
    field dev.val (by omega) 11 (by omega), field func.val (by omega) 8 (by omega), BitVec.toNat_setWidth,
    Nat.mod_eq_of_lt (by omega)]
  change 1 * 2 ^ 31 ||| _ ||| _ ||| _ ||| _ = _
  rw [joined 1 (bus.val * 2 ^ 16) 31 (by omega),
    show 1 * 2 ^ 31 + bus.val * 2 ^ 16 = ((2 ^ 15 + bus.val) * 32) * 2 ^ 11 by omega,
    show (2 ^ 15 + bus.val) * 32 * 2 ^ 11 = (2 ^ 15 + bus.val) * 2 ^ 16 by omega,
    joined (2 ^ 15 + bus.val) (dev.val * 2 ^ 11) 16 (by omega),
    show (2 ^ 15 + bus.val) * 2 ^ 16 + dev.val * 2 ^ 11 = ((2 ^ 15 + bus.val) * 32 + dev.val) * 2 ^ 11 by omega,
    joined _ (func.val * 2 ^ 8) 11 (by omega),
    show ((2 ^ 15 + bus.val) * 32 + dev.val) * 2 ^ 11 + func.val * 2 ^ 8 =
      (((2 ^ 15 + bus.val) * 32 + dev.val) * 8 + func.val) * 2 ^ 8 by omega,
    joined _ reg.toNat 8 (by omega)]

theorem pciConfigRead_eq (space : ConfigSpace) (p : Place) (offset : BitVec 8) :
    pciConfigRead space (BitVec.ofNat 8 p.bus.val) (BitVec.ofNat 8 p.dev.val) (BitVec.ofNat 8 p.func.val) offset =
      space p.bus p.dev p.func (Fin.ofNat 64 (offset.toNat / 4)) := by
  have aligned : ∀ offset : BitVec 8, (offset &&& 0xFC#8).toNat = offset.toNat / 4 * 4 := by decide +kernel
  have address := address_toNat p.bus p.dev p.func (offset &&& 0xFC#8)
  rw [aligned offset] at address
  have inside := offset.isLt
  have bus := p.bus.isLt
  have dev := p.dev.isLt
  have func := p.func.isLt
  unfold pciConfigRead configData
  dsimp only
  rw [address, if_pos (by omega)]
  congr 1 <;> apply Fin.ext <;> simp only [Fin.val_ofNat] <;> omega

theorem masked_byte (data : BitVec 32) (k : Nat) :
    ((data >>> k) &&& 0xFF#32).setWidth 8 = data.extractLsb' k 8 := by
  apply BitVec.eq_of_toNat_eq
  rw [BitVec.toNat_setWidth, BitVec.toNat_and, BitVec.toNat_ushiftRight, BitVec.extractLsb'_toNat]
  change (_ &&& 2 ^ 8 - 1) % _ = _
  rw [Nat.and_two_pow_sub_one_eq_mod, Nat.mod_mod]

theorem masked_half (data : BitVec 32) (k : Nat) :
    ((data >>> k) &&& 0xFFFF#32).setWidth 16 = data.extractLsb' k 16 := by
  apply BitVec.eq_of_toNat_eq
  rw [BitVec.toNat_setWidth, BitVec.toNat_and, BitVec.toNat_ushiftRight, BitVec.extractLsb'_toNat]
  change (_ &&& 2 ^ 16 - 1) % _ = _
  rw [Nat.and_two_pow_sub_one_eq_mod, Nat.mod_mod]

structure Reads (space : ConfigSpace) (p : Place) (bus dev func : BitVec 8) : Prop where
  classCode : halPciClassCode space bus dev func = p.classCode space
  subclass : halPciSubclassCode space bus dev func = p.subclassCode space
  vendor : halPciVendorId space bus dev func = p.vendorId space
  device : halPciDeviceId space bus dev func = p.deviceId space
  responds : pciConfigRead space bus dev func 0#8 &&& 0xFFFF#32 ≠ 0xFFFF#32 ↔ p.Present space

theorem place_reads (space : ConfigSpace) (p : Place) :
    Reads space p (BitVec.ofNat 8 p.bus.val) (BitVec.ofNat 8 p.dev.val) (BitVec.ofNat 8 p.func.val) := by
  have identity := pciConfigRead_eq space p 0#8
  have kind := pciConfigRead_eq space p 8#8
  change _ = space p.bus p.dev p.func 0 at identity
  change _ = space p.bus p.dev p.func 2 at kind
  have low := masked_half (space p.bus p.dev p.func 0) 0
  rw [BitVec.ushiftRight_zero] at low
  refine ⟨?_, ?_, ?_, ?_, ?_⟩
  · unfold halPciClassCode
    rw [kind]
    exact masked_byte _ 24
  · unfold halPciSubclassCode
    rw [kind]
    exact masked_byte _ 16
  · unfold halPciVendorId
    rw [identity]
    exact low
  · unfold halPciDeviceId
    rw [identity]
    exact masked_half _ 16
  · rw [identity]
    apply not_congr
    have vendor : p.vendorId space = (space p.bus p.dev p.func 0).extractLsb' 0 16 := rfl
    rw [vendor, ← low]
    have small : (space p.bus p.dev p.func 0 &&& 0xFFFF#32).toNat < 2 ^ 16 := by
      rw [BitVec.toNat_and]
      exact Nat.lt_of_le_of_lt Nat.and_le_right (by decide)
    generalize space p.bus p.dev p.func 0 &&& 0xFFFF#32 = data at small
    constructor
    · rintro rfl
      decide
    · intro same
      have values := congrArg BitVec.toNat same
      rw [BitVec.toNat_setWidth, Nat.mod_eq_of_lt small] at values
      exact BitVec.eq_of_toNat_eq values

def Counted (space : ConfigSpace) (passed : List Place) (count : BitVec 32) : Prop :=
  count = BitVec.ofNat 32 (passed.filter (Place.Present space)).length

theorem Counted.next {space : ConfigSpace} {passed : List Place} {count : BitVec 32}
    (counted : Counted space passed count) (p : Place) :
    Counted space (passed ++ [p]) (if p.Present space then count + 1#32 else count) := by
  unfold Counted at counted ⊢
  rw [List.filter_append, List.length_append, counted]
  by_cases here : p.Present space
  · rw [if_pos here, BitVec.ofNat_add]
    simp [here]
  · rw [if_neg here]
    simp [here]

theorem Counted.toNat_eq {space : ConfigSpace} {passed : List Place} {count : BitVec 32}
    (counted : Counted space passed count) (few : passed.length < 2 ^ 32) :
    count.toNat = (passed.filter (Place.Present space)).length := by
  have shorter := List.length_filter_le (Place.Present space) passed
  rw [show count = _ from counted, BitVec.toNat_ofNat, Nat.mod_eq_of_lt (by omega)]

theorem halPciDeviceCount_eq (space : ConfigSpace) :
    halPciDeviceCount space = BitVec.ofNat 32 (present space).length := by
  change Counted space ([] ++ places) (halPciDeviceCount space)
  apply forRange_visits _ _ (Counted space) [] 0#32 rfl
  intro bus passed count held
  apply forRange_visits _ _ (Counted space) _ _ held
  intro dev passed count held
  apply forRange_visits _ _ (Counted space) _ _ held
  intro func passed count held
  have responds := (place_reads space ⟨bus, dev, func⟩).responds
  have next := held.next ⟨bus, dev, func⟩
  simp only [← responds] at next
  exact next

end LifeOS.Hal
