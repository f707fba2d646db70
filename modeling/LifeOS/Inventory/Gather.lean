import LifeOS.Console.Commands
import LifeOS.Hal.Pci

/-!
`inventory_gather` of `kernel/inventory/inventory.c`. Every store to the five arrays is
checked, and one outside them leaves no result.
-/

namespace LifeOS.Inventory
open LifeOS.Console LifeOS.Hal LifeOS.Library.Loops

/-- `struct compute_inventory`: what the console prints, and the subclasses. -/
structure SystemInventory extends ComputeInventory where
  pciSubclass : Fin 256 → BitVec 8

def storeEntry {α : Type} (a : Fin 256 → α) (i : BitVec 32) (v : α) : Option (Fin 256 → α) :=
  if inside : i.toNat < 256 then some (Function.update a ⟨i.toNat, inside⟩ v) else none

/-- `ebx` is what CPUID leaves in that register for a leaf. -/
def halCpuCoreCount (ebx : BitVec 32 → BitVec 32) : BitVec 32 :=
  if ebx 0x0B#32 ≠ 0#32 then ebx 0x0B#32 &&& 0xFFFF#32
  else
    let cores := (ebx 1#32 >>> 16) &&& 0xFF#32
    if cores = 0#32 then 1#32 else cores

def halMemorySize : BitVec 64 := 64#64 * 1024#64 * 1024#64

def recordDevice (bus : BitVec 8) (classCode subclass : BitVec 8) (vendor device : BitVec 16)
    (inv : SystemInventory) : Option SystemInventory := do
  let pciBus ← storeEntry inv.pciBus inv.pciDevices bus
  let pciClass ← storeEntry inv.pciClass inv.pciDevices classCode
  let pciSubclass ← storeEntry inv.pciSubclass inv.pciDevices subclass
  let pciVendor ← storeEntry inv.pciVendor inv.pciDevices vendor
  let pciDevice ← storeEntry inv.pciDevice inv.pciDevices device
  return { inv with pciBus := pciBus, pciClass := pciClass, pciSubclass := pciSubclass,
                    pciVendor := pciVendor, pciDevice := pciDevice }

def gatherFunction (space : ConfigSpace) (bus dev func : BitVec 8) (inv : SystemInventory) :
    Option SystemInventory :=
  let data := pciConfigRead space bus dev func 0#8
  if data &&& 0xFFFF#32 ≠ 0xFFFF#32 then do
    let inv ←
      if inv.pciDevices < 256#32 then
        recordDevice bus (halPciClassCode space bus dev func) (halPciSubclassCode space bus dev func)
          (halPciVendorId space bus dev func) (halPciDeviceId space bus dev func) inv
      else some inv
    return { inv with pciDevices := inv.pciDevices + 1#32 }
  else some inv

def inventoryGather (ebx : BitVec 32 → BitVec 32) (space : ConfigSpace) (inv : SystemInventory) :
    Option SystemInventory :=
  let inv := { inv with cpuCores := halCpuCoreCount ebx, memoryBytes := halMemorySize, pciDevices := 0#32 }
  forUp 0 256 (fun bus inv =>
    forUp 0 32 (fun dev inv =>
      forUp 0 8 (fun func inv =>
        gatherFunction space (BitVec.ofNat 8 bus) (BitVec.ofNat 8 dev) (BitVec.ofNat 8 func) inv)
        inv) inv) inv

structure Describes (space : ConfigSpace) (inv : SystemInventory) (i : Fin 256) (p : Place) : Prop where
  bus : (inv.pciBus i).toNat = p.bus.val
  classCode : inv.pciClass i = p.classCode space
  subclass : inv.pciSubclass i = p.subclassCode space
  vendor : inv.pciVendor i = p.vendorId space
  device : inv.pciDevice i = p.deviceId space

/-- The inventory after a scan of the given places. The counter wraps after 2^32 of them. -/
structure Gathered (space : ConfigSpace) (passed : List Place) (inv : SystemInventory) : Prop where
  count : Counted space passed inv.pciDevices
  entries : passed.length < 2 ^ 32 → ∀ (i : Fin 256) (found : i.val < (passed.filter (Place.Present space)).length),
    Describes space inv i (passed.filter (Place.Present space))[i.val]

theorem recordDevice_describes {space : ConfigSpace} {p : Place} {bus : BitVec 8} (number : bus.toNat = p.bus.val)
    (inv : SystemInventory) (room : inv.pciDevices.toNat < 256) :
    ∃ recorded, recordDevice bus (p.classCode space) (p.subclassCode space) (p.vendorId space)
        (p.deviceId space) inv = some recorded ∧
      recorded.pciDevices = inv.pciDevices ∧
      Describes space recorded ⟨inv.pciDevices.toNat, room⟩ p ∧
      ∀ i q, i.val ≠ inv.pciDevices.toNat → Describes space inv i q → Describes space recorded i q := by
  unfold recordDevice storeEntry
  simp only [dif_pos room, Option.bind_eq_bind, Option.bind_some]
  refine ⟨_, rfl, rfl, ?_, ?_⟩
  · have slot := congrArg BitVec.toNat
      (Function.update_self (⟨inv.pciDevices.toNat, room⟩ : Fin 256) bus inv.pciBus)
    exact ⟨slot.trans number, Function.update_self .., Function.update_self ..,
      Function.update_self .., Function.update_self ..⟩
  · intro i q other described
    have away : i ≠ ⟨inv.pciDevices.toNat, room⟩ := fun same => other (congrArg Fin.val same)
    have kept := congrArg BitVec.toNat (Function.update_of_ne away bus inv.pciBus)
    exact ⟨kept.trans described.bus, (Function.update_of_ne away ..).trans described.classCode,
      (Function.update_of_ne away ..).trans described.subclass,
      (Function.update_of_ne away ..).trans described.vendor,
      (Function.update_of_ne away ..).trans described.device⟩

theorem Describes.counted {space : ConfigSpace} {inv : SystemInventory} {i : Fin 256} {p : Place}
    (described : Describes space inv i p) (count : BitVec 32) :
    Describes space { inv with pciDevices := count } i p :=
  ⟨described.bus, described.classCode, described.subclass, described.vendor, described.device⟩

theorem Gathered.found {space : ConfigSpace} {passed : List Place} {inv : SystemInventory}
    (gathered : Gathered space passed inv) (p : Place) (here : p.Present space) (bus dev func : BitVec 8)
    (number : bus.toNat = p.bus.val) (reads : Reads space p bus dev func) :
    ∃ after, gatherFunction space bus dev func inv = some after ∧ Gathered space (passed ++ [p]) after := by
  obtain ⟨count, entries⟩ := gathered
  have counted := count.next p
  rw [if_pos here] at counted
  have longer : (passed ++ [p]).filter (Place.Present space) = passed.filter (Place.Present space) ++ [p] := by
    rw [List.filter_append]
    simp [here]
  unfold gatherFunction
  dsimp only
  rw [if_pos (reads.responds.mpr here), reads.classCode, reads.subclass, reads.vendor, reads.device]
  by_cases room : inv.pciDevices.toNat < 256
  · obtain ⟨recorded, stored, same, newest, older⟩ := recordDevice_describes number inv room
    rw [if_pos (show inv.pciDevices < 256#32 from room), stored]
    refine ⟨_, rfl, same ▸ counted, ?_⟩
    intro few i inside
    rw [List.length_append, List.length_singleton] at few
    have place := count.toNat_eq (by omega)
    simp only [longer, List.length_append, List.length_singleton] at inside ⊢
    apply Describes.counted
    by_cases last : i.val = (passed.filter (Place.Present space)).length
    · have slot : i = ⟨inv.pciDevices.toNat, room⟩ := Fin.ext (last.trans place.symm)
      rw [List.getElem_append_right (by omega)]
      simpa [slot] using newest
    · have before : i.val < (passed.filter (Place.Present space)).length := by omega
      rw [List.getElem_append_left before]
      exact older i _ (fun same => last (same.trans place)) (entries (by omega) i before)
  · rw [if_neg (show ¬inv.pciDevices < 256#32 from room)]
    refine ⟨_, rfl, counted, ?_⟩
    intro few i inside
    rw [List.length_append, List.length_singleton] at few
    have place := count.toNat_eq (by omega)
    have before : i.val < (passed.filter (Place.Present space)).length := by omega
    simp only [longer]
    rw [List.getElem_append_left before]
    exact (entries (by omega) i before).counted _

theorem Gathered.next {space : ConfigSpace} {passed : List Place} {inv : SystemInventory}
    (gathered : Gathered space passed inv) (p : Place) :
    ∃ after, gatherFunction space (BitVec.ofNat 8 p.bus.val) (BitVec.ofNat 8 p.dev.val)
        (BitVec.ofNat 8 p.func.val) inv = some after ∧ Gathered space (passed ++ [p]) after := by
  have reads := place_reads space p
  by_cases here : p.Present space
  · have number : (BitVec.ofNat 8 p.bus.val).toNat = p.bus.val := by
      rw [BitVec.toNat_ofNat, Nat.mod_eq_of_lt p.bus.isLt]
    exact gathered.found p here _ _ _ number reads
  · have counted := gathered.count.next p
    rw [if_neg here] at counted
    have same : (passed ++ [p]).filter (Place.Present space) = passed.filter (Place.Present space) := by
      rw [List.filter_append]
      simp [here]
    refine ⟨inv, if_neg (fun test => here (reads.responds.mp test)), counted, ?_⟩
    intro few i inside
    rw [List.length_append, List.length_singleton] at few
    simp only [same] at inside ⊢
    exact gathered.entries (by omega) i inside

structure SameSummary (before after : SystemInventory) : Prop where
  cores : after.cpuCores = before.cpuCores
  memory : after.memoryBytes = before.memoryBytes

theorem recordDevice_summary {bus classCode subclass : BitVec 8} {vendor device : BitVec 16}
    {inv after : SystemInventory} (recorded : recordDevice bus classCode subclass vendor device inv = some after) :
    SameSummary inv after := by
  unfold recordDevice storeEntry at recorded
  by_cases room : inv.pciDevices.toNat < 256
  · simp only [dif_pos room, Option.bind_eq_bind, Option.bind_some] at recorded
    rw [← Option.some.inj recorded]
    exact ⟨rfl, rfl⟩
  · simp only [dif_neg room, Option.bind_eq_bind, Option.bind_none] at recorded
    cases recorded

theorem gatherFunction_summary {space : ConfigSpace} {bus dev func : BitVec 8} {inv after : SystemInventory}
    (gathered : gatherFunction space bus dev func inv = some after) : SameSummary inv after := by
  unfold gatherFunction at gathered
  dsimp only at gathered
  split at gathered
  · split at gathered
    · obtain ⟨mid, recorded, counted⟩ := Option.bind_eq_some_iff.mp gathered
      have same := recordDevice_summary recorded
      rw [← Option.some.inj counted]
      exact ⟨same.cores, same.memory⟩
    · rw [← Option.some.inj gathered]
      exact ⟨rfl, rfl⟩
  · rw [← Option.some.inj gathered]
    exact ⟨rfl, rfl⟩

def unscanned (ebx : BitVec 32 → BitVec 32) (inv : SystemInventory) : SystemInventory :=
  { inv with cpuCores := halCpuCoreCount ebx, memoryBytes := halMemorySize, pciDevices := 0#32 }

theorem inventoryGather_gathered (ebx : BitVec 32 → BitVec 32) (space : ConfigSpace) (inv : SystemInventory) :
    ∃ after, inventoryGather ebx space inv = some after ∧ Gathered space places after ∧
      SameSummary (unscanned ebx inv) after := by
  apply forPlaces (gatherFunction space)
    (fun passed after => Gathered space passed after ∧ SameSummary (unscanned ebx inv) after)
  · exact ⟨⟨rfl, fun _ _ inside => absurd inside (Nat.not_lt_zero _)⟩, ⟨rfl, rfl⟩⟩
  · rintro p passed before ⟨gathered, same⟩
    obtain ⟨after, ran, further⟩ := gathered.next p
    have kept := gatherFunction_summary ran
    exact ⟨after, ran, further, ⟨kept.cores.trans same.cores, kept.memory.trans same.memory⟩⟩

structure Exact (space : ConfigSpace) (inv : SystemInventory) : Prop where
  count : inv.pciDevices.toNat = (present space).length
  sameCount : halPciDeviceCount space = inv.pciDevices
  entries : ∀ (i : Fin 256) (found : i.val < (present space).length), Describes space inv i (present space)[i.val]

/-- The scan stays inside the arrays and finds every function that responds, in order, whatever
the inventory held before. -/
theorem inventory_exact (ebx : BitVec 32 → BitVec 32) (space : ConfigSpace) (inv : SystemInventory) :
    ∃ after, inventoryGather ebx space inv = some after ∧ Exact space after := by
  obtain ⟨after, ran, gathered, _⟩ := inventoryGather_gathered ebx space inv
  have few : places.length < 2 ^ 32 := by
    rw [places_length]
    decide
  refine ⟨after, ran, gathered.count.toNat_eq few, ?_, gathered.entries few⟩
  rw [halPciDeviceCount_eq]
  exact gathered.count.symm

end LifeOS.Inventory
