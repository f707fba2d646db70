import LifeOS.Console.Report
import LifeOS.Inventory.Gather

/-!
The command `info` on a machine that was scanned: the printed text says what the CPU and
the configuration space hold.
-/

namespace LifeOS.Inventory
open LifeOS.Console LifeOS.Hal LifeOS.Library.Strings

def placeLine (space : ConfigSpace) (p : Place) : DeviceLine :=
  ⟨p.bus.val, (p.vendorId space).toNat, (p.deviceId space).toNat, ascii (pciClassName (p.classCode space))⟩

/-- What there is to report about a machine. Functions beyond the arrays are counted, not listed. -/
def machineReport (ebx : BitVec 32 → BitVec 32) (space : ConfigSpace) : InfoReport :=
  ⟨(halCpuCoreCount ebx).toNat, 2 ^ 26, (present space).length,
    ((present space).take 256).map (placeLine space)⟩

theorem Describes.line_eq {space : ConfigSpace} {inv : SystemInventory} {i : Fin 256} {p : Place}
    (described : Describes space inv i p) : inv.line i = placeLine space p := by
  unfold ComputeInventory.line placeLine
  rw [described.bus, described.vendor, described.device, described.classCode]

theorem report_eq {ebx : BitVec 32 → BitVec 32} {space : ConfigSpace} {inv : SystemInventory}
    (cores : inv.cpuCores = halCpuCoreCount ebx) (memory : inv.memoryBytes = halMemorySize)
    (gathered : Gathered space places inv) : inv.report = machineReport ebx space := by
  have few : places.length < 2 ^ 32 := by
    rw [places_length]
    decide
  have count : inv.pciDevices.toNat = (present space).length := gathered.count.toNat_eq few
  have listed : (printedEntries inv.toComputeInventory).map inv.line =
      ((present space).take 256).map (placeLine space) := by
    apply List.ext_getElem
    · simp [printedEntries, count, Nat.min_comm]
    · intro i inside other
      have entry : i < (present space).length := by
        simp only [List.length_map, List.length_take] at other
        omega
      have described := gathered.entries few ⟨i, by simp [printedEntries] at inside; omega⟩ entry
      simp only [printedEntries, List.getElem_map, List.getElem_finRange, List.getElem_take]
      exact described.line_eq
  unfold ComputeInventory.report machineReport
  rw [cores, memory, count, listed]
  rfl

theorem inventoryGather_report (ebx : BitVec 32 → BitVec 32) (space : ConfigSpace) (inv : SystemInventory) :
    ∃ after, inventoryGather ebx space inv = some after ∧ after.report = machineReport ebx space := by
  obtain ⟨after, ran, gathered, same⟩ := inventoryGather_gathered ebx space inv
  exact ⟨after, ran, report_eq same.cores same.memory gathered⟩

/-- Whatever the CPU and the bus hold and whatever is on the screen, `info` after a scan prints a
text from which the machine can be read back, with nothing left over. -/
theorem info_read_back (ebx : BitVec 32 → BitVec 32) (space : ConfigSpace) (before : SystemInventory) (t : Terminal) :
    ∃ inv printed, inventoryGather ebx space before = some inv ∧
      consoleExecuteCommand inv.toComputeInventory (ascii "info" ++ [0#8]) t =
        some (.returned (t.onConsole (consoleWrite printed))) ∧
      readInfo printed = some (machineReport ebx space, []) := by
  obtain ⟨inv, scanned, reported⟩ := inventoryGather_report ebx space before
  have command : text (ascii "info" ++ [0#8]) = ascii "info" := text_append_zero _ _ (by decide +kernel)
  have shown : showInfo inv.toComputeInventory = consoleWrite (infoText inv.toComputeInventory) :=
    funext (showInfo_eq inv.toComputeInventory)
  have back := readInfo_text inv.toComputeInventory []
  rw [List.append_nil, reported] at back
  refine ⟨inv, infoText inv.toComputeInventory, scanned, ?_, back⟩
  rw [executeCommand_eq _ _ t (by simp), command, ← shown]
  rfl

end LifeOS.Inventory
