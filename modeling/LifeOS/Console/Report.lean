import LifeOS.Console.Numbers
import LifeOS.Library.Readers

/-!
The text of `show_info` of `kernel/console/cmd.c`, and a reader that gets the inventory
back from it.
-/

namespace LifeOS.Console
open LifeOS.Library.Loops LifeOS.Library.Numerals LifeOS.Library.Readers LifeOS.Library.Strings

def decimalText (n : Nat) : List Byte := ascii (toString n)

def hex8Text (v : BitVec 8) : List Byte := [hexDigit (v >>> 4), hexDigit v]

def hex16Text (v : BitVec 16) : List Byte := hex8Text ((v >>> 8).setWidth 8) ++ hex8Text (v.setWidth 8)

def hex32Text (v : BitVec 32) : List Byte := hex16Text ((v >>> 16).setWidth 16) ++ hex16Text (v.setWidth 16)

theorem writeHex16_text (v : BitVec 16) (c : ConsoleState) :
    consoleWriteHex16 v c = consoleWrite (hex16Text v) c := by
  rw [hex16Text, consoleWrite_append]
  rfl

theorem writeHex32_text (v : BitVec 32) (c : ConsoleState) :
    consoleWriteHex32 v c = consoleWrite (hex32Text v) c := by
  rw [hex32Text, consoleWrite_append, ← writeHex16_text, ← writeHex16_text]
  rfl

theorem hex8Text_digits (v : BitVec 8) : Hexadecimal (hex8Text v) 2 v.toNat := by
  have both := (hexDigit_numeral (v >>> 4)).append (hexDigit_numeral v)
  have whole : (v >>> 4).toNat % 16 * 16 ^ 1 + v.toNat % 16 = v.toNat := by
    rw [BitVec.toNat_ushiftRight, Nat.shiftRight_eq_div_pow]
    omega
  rw [whole] at both
  exact both

theorem hex16Text_digits (v : BitVec 16) : Hexadecimal (hex16Text v) 4 v.toNat := by
  have both := (hex8Text_digits ((v >>> 8).setWidth 8)).append (hex8Text_digits (v.setWidth 8))
  exact halves_toNat 2 v ▸ both

theorem hex32Text_digits (v : BitVec 32) : Hexadecimal (hex32Text v) 8 v.toNat := by
  have both := (hex16Text_digits ((v >>> 16).setWidth 16)).append (hex16Text_digits (v.setWidth 16))
  exact halves_toNat 4 v ▸ both

def deviceText (inv : ComputeInventory) (i : Fin 256) : List Byte :=
  ascii "  Bus " ++ (decimalText (inv.pciBus i).toNat ++ (ascii "  Vend 0x" ++ (hex16Text (inv.pciVendor i) ++
    (ascii " Dev 0x" ++ (hex16Text (inv.pciDevice i) ++ (ascii " : " ++
      (ascii (pciClassName (inv.pciClass i)) ++ [newline])))))))

theorem printed_few (inv : ComputeInventory) : min inv.pciDevices.toNat 256 ≤ 256 := Nat.min_le_right _ _

def printedEntries (inv : ComputeInventory) : List (Fin 256) :=
  (List.finRange (min inv.pciDevices.toNat 256)).map (Fin.castLE (printed_few inv))

def infoText (inv : ComputeInventory) : List Byte :=
  ascii "CPU cores: " ++ (decimalText inv.cpuCores.toNat ++ (ascii "\nMemory bytes: " ++
    (decimalText inv.memoryBytes.toNat ++ (ascii "\nPCI devices: " ++ (decimalText inv.pciDevices.toNat ++
      (ascii "\nPCI device list:\n" ++ (printedEntries inv).flatMap (deviceText inv)))))))

theorem writeDec_text {w : Nat} (v : BitVec w) (narrow : w ≤ 64) (c : ConsoleState) :
    consoleWriteDec (v.setWidth 64) c = consoleWrite (decimalText v.toNat) c := by
  rw [consoleWriteDec_eq, BitVec.toNat_setWidth_of_le narrow]
  rfl

theorem showDevice_eq (inv : ComputeInventory) (i : Fin 256) (c : ConsoleState) :
    showDevice inv i c = consoleWrite (deviceText inv i) c := by
  have bus := writeDec_text (inv.pciBus i) (by decide)
  simp only [showDevice, deviceText, say, bus, writeHex16_text, consoleWrite_append]
  rfl

theorem forFin_write {n : Nat} (text : Fin n → List Byte) (c : ConsoleState) :
    forFin n (fun i c => consoleWrite (text i) c) c = consoleWrite ((List.finRange n).flatMap text) c := by
  induction n with
  | zero =>
    rw [forFin_zero]
    rfl
  | succ n ih =>
    rw [forFin_succ, ih, List.finRange_succ_last, List.flatMap_append, List.flatMap_map, consoleWrite_append,
      List.flatMap_singleton]

theorem showInfo_eq (inv : ComputeInventory) (c : ConsoleState) :
    showInfo inv c = consoleWrite (infoText inv) c := by
  have cores := writeDec_text inv.cpuCores (by decide)
  have devices := writeDec_text inv.pciDevices (by decide)
  simp only [showInfo, infoText, say, cores, devices, consoleWriteDec_eq, showDevice_eq, forFin_write,
    consoleWrite_append]
  rw [printedEntries, List.flatMap_map]
  rfl

structure DeviceLine where
  bus : Nat
  vendor : Nat
  device : Nat
  className : List Byte
deriving DecidableEq, Repr

structure InfoReport where
  cores : Nat
  memory : Nat
  devices : Nat
  listed : List DeviceLine
deriving DecidableEq, Repr

def readDevice (s : List Byte) : Option (DeviceLine × List Byte) := do
  let s ← expect (ascii "  Bus ") s
  let (bus, s) ← number decimalDigits s
  let s ← expect (ascii "  Vend 0x") s
  let (vendor, s) ← number hexDigits s
  let s ← expect (ascii " Dev 0x") s
  let (device, s) ← number hexDigits s
  let s ← expect (ascii " : ") s
  let (className, s) ← upTo newline s
  return (⟨bus, vendor, device, className⟩, s)

/-- The list stops at the length of the arrays, whatever the counter says. -/
def readInfo (s : List Byte) : Option (InfoReport × List Byte) := do
  let s ← expect (ascii "CPU cores: ") s
  let (cores, s) ← number decimalDigits s
  let s ← expect (ascii "\nMemory bytes: ") s
  let (memory, s) ← number decimalDigits s
  let s ← expect (ascii "\nPCI devices: ") s
  let (devices, s) ← number decimalDigits s
  let s ← expect (ascii "\nPCI device list:\n") s
  let (listed, s) ← times readDevice (min devices 256) s
  return (⟨cores, memory, devices, listed⟩, s)

def ComputeInventory.line (inv : ComputeInventory) (i : Fin 256) : DeviceLine :=
  ⟨(inv.pciBus i).toNat, (inv.pciVendor i).toNat, (inv.pciDevice i).toNat, ascii (pciClassName (inv.pciClass i))⟩

def ComputeInventory.report (inv : ComputeInventory) : InfoReport :=
  ⟨inv.cpuCores.toNat, inv.memoryBytes.toNat, inv.pciDevices.toNat, (printedEntries inv).map inv.line⟩

theorem decimal_read (n : Nat) (rest : List Byte) (stops : Stops (fun b => decide (b ∈ decimalDigits)) rest) :
    number decimalDigits (decimalText n ++ rest) = some (n, rest) := by
  apply number_append decimalDigits (decimalText n) rest n (toString_numeral n) _ stops
  rw [decimalText, ascii_toString]
  simp

theorem hex16_read (v : BitVec 16) (rest : List Byte) (stops : Stops (fun b => decide (b ∈ hexDigits)) rest) :
    number hexDigits (hex16Text v ++ rest) = some (v.toNat, rest) :=
  number_append hexDigits (hex16Text v) rest v.toNat (hex16Text_digits v).numeral (List.cons_ne_nil _ _) stops

theorem className_plain (classCode : BitVec 8) : newline ∉ ascii (pciClassName classCode) := by
  revert classCode
  decide +kernel

theorem readDevice_text (inv : ComputeInventory) (i : Fin 256) (rest : List Byte) :
    readDevice (deviceText inv i ++ rest) = some (inv.line i, rest) := by
  have bus := decimal_read (inv.pciBus i).toNat
  have name := upTo_append newline (ascii (pciClassName (inv.pciClass i))) rest (className_plain _)
  unfold readDevice deviceText
  simp only [List.append_assoc, List.singleton_append, expect_append, Option.bind_eq_bind, Option.bind_some]
  rw [bus _ (Stops.append _ (by decide +kernel)), Option.bind_some]
  simp only [expect_append, Option.bind_some]
  rw [hex16_read _ _ (Stops.append _ (by decide +kernel)), Option.bind_some]
  simp only [expect_append, Option.bind_some]
  rw [hex16_read _ _ (Stops.append _ (by decide +kernel)), Option.bind_some]
  simp only [expect_append, Option.bind_some]
  rw [name]
  rfl

theorem readInfo_text (inv : ComputeInventory) (rest : List Byte) :
    readInfo (infoText inv ++ rest) = some (inv.report, rest) := by
  have number_of_entries : (printedEntries inv).length = min inv.pciDevices.toNat 256 := by
    rw [printedEntries, List.length_map, List.length_finRange]
  have listed := times_append readDevice (deviceText inv) inv.line (printedEntries inv) rest
    (fun i _ rest => readDevice_text inv i rest)
  rw [number_of_entries] at listed
  unfold readInfo infoText
  simp only [List.append_assoc, expect_append, Option.bind_eq_bind, Option.bind_some]
  rw [decimal_read _ _ (Stops.append _ (by decide +kernel)), Option.bind_some]
  simp only [expect_append, Option.bind_some]
  rw [decimal_read _ _ (Stops.append _ (by decide +kernel)), Option.bind_some]
  simp only [expect_append, Option.bind_some]
  rw [decimal_read _ _ (Stops.append _ (by decide +kernel)), Option.bind_some]
  simp only [expect_append, Option.bind_some]
  rw [listed]
  rfl

end LifeOS.Console
