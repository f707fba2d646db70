import LifeOS.Acpi.Enumeration
import LifeOS.Console.Lines
import LifeOS.Console.Report

/-!
What `acpi_init` prints, as a list of messages that is a function of the firmware's memory.
-/

namespace LifeOS.Acpi
open LifeOS.Console LifeOS.Library.Access LifeOS.Library.Memory LifeOS.Library.Strings

inductive Message where
  | starting
  | rsdp (a : Addr)
  | root (useXsdt : Bool) (a : Addr)
  | fadt (a : Addr) (blocks : Fadt)
  | parsed
  | missing

def Message.line : Message → List Byte
  | .starting => ascii "ACPI parser initializing"
  | .rsdp a => ascii "RSDP found at 0x" ++ hex32Text (a.setWidth 32)
  | .root useXsdt a => ascii (if useXsdt then "XSDT at 0x" else "RSDT at 0x") ++ hex32Text (a.setWidth 32)
  | .fadt a blocks => ascii "FADT at 0x" ++ (hex32Text (a.setWidth 32) ++ (ascii " PM1a=" ++
      (hex16Text blocks.pm1aCntBlk ++ (ascii " PM1b=" ++ hex16Text blocks.pm1bCntBlk))))
  | .parsed => ascii "ACPI tables parsed"
  | .missing => ascii "ACPI tables not found, using defaults"

def logText (messages : List Message) : List Byte := lineText (messages.map Message.line)

theorem logText_append (first second : List Message) : logText (first ++ second) = logText first ++ logText second := by
  rw [logText, List.map_append]
  exact lineText_append _ _

theorem logText_singleton (message : Message) : logText [message] = message.line ++ [newline] :=
  List.flatMap_singleton ..

theorem printAt_text (label : String) (a : Addr) (c : ConsoleState) :
    printAt label a c = consoleWrite (ascii label ++ hex32Text (a.setWidth 32) ++ [newline]) c := by
  rw [consoleWrite_append, consoleWrite_append, ← writeHex32_text]
  rfl

theorem printFadt_text (a : Addr) (blocks : Fadt) (c : ConsoleState) :
    printFadt a blocks c = consoleWrite (logText [.fadt a blocks]) c := by
  unfold printFadt say
  simp only [logText_singleton, Message.line, consoleWrite_append, writeHex32_text, writeHex16_text]
  rfl

def Logs (messages : List Message) (before after : AcpiState) : Prop :=
  after.con = consoleWrite (logText messages) before.con

theorem Logs.refl (s : AcpiState) : Logs [] s s := rfl

theorem Logs.trans {first second third : AcpiState} {early late : List Message} (start : Logs early first second)
    (rest : Logs late second third) : Logs (early ++ late) first third := by
  unfold Logs at *
  rw [rest, start, logText_append, consoleWrite_append]

theorem Logs.said {label : String} {message : Message} (same : ascii label = message.line ++ [newline])
    (s : AcpiState) : Logs [message] s (s.print (say label)) := by
  unfold Logs
  rw [logText_singleton, ← same]
  rfl

theorem Logs.pointed {label : String} {message : Message} {a : Addr}
    (same : message.line = ascii label ++ hex32Text (a.setWidth 32)) (s : AcpiState) :
    Logs [message] s (s.print (printAt label a)) := by
  unfold Logs
  rw [logText_singleton, same, ← printAt_text]
  rfl

theorem fallback_logs (s : AcpiState) : Logs [.missing] s (fallback s) := by
  have same : ascii "ACPI tables not found, using defaults\n" = Message.missing.line ++ [newline] := by decide +kernel
  unfold Logs fallback say
  rw [logText_singleton, ← same]

variable (m : Mem)

def fadtMessages (tables : List Addr) : List Message :=
  (tables.filter (IsFadt m)).map fun a => .fadt a (fadtAt m a)

theorem fadtMessages_append (first second : List Addr) :
    fadtMessages m (first ++ second) = fadtMessages m first ++ fadtMessages m second := by
  unfold fadtMessages
  rw [List.filter_append, List.map_append]

theorem fadtMessages_fadt (a : Addr) (fadt : IsFadt m a) : fadtMessages m [a] = [.fadt a (fadtAt m a)] := by
  unfold fadtMessages
  rw [List.filter_cons, if_pos (decide_eq_true fadt)]
  rfl

theorem fadtMessages_other (a : Addr) (other : ¬IsFadt m a) : fadtMessages m [a] = [] := by
  unfold fadtMessages
  rw [List.filter_cons, if_neg (fun same => other (of_decide_eq_true same))]
  rfl

theorem registerTable_logs (a : Addr) (s : AcpiState) (usable : Usable a) :
    Logs (fadtMessages m [a]) s (registerTable m a s).value := by
  have nonzero : a ≠ 0#64 := fun zero => absurd usable.1 (by rw [zero]; decide)
  unfold registerTable
  simp only [if_pos usable.2, if_neg nonzero, value_bind, compares_value]
  by_cases fadt : Holds m sigFacp a
  · rw [if_pos (decide_eq_true fadt), fadtMessages_fadt m a fadt]
    exact printFadt_text a _ s.con
  · rw [if_neg (fun same => fadt (of_decide_eq_true same)), fadtMessages_other m a fadt]
    exact Logs.refl s

theorem scanEntries_logs (root : Root) (left i : Nat) (s : AcpiState) (room : s.tables.length ≤ 16) :
    Logs (fadtMessages m
        ((((List.range' i left).map (entryAt m root)).filter Usable).take (16 - s.tables.length)))
      s (scanEntries m root left i s).value := by
  induction left generalizing i s with
  | zero => exact (List.take_nil ▸ Logs.refl s)
  | succ left ih =>
    rw [scanEntries, List.range'_succ, List.map_cons]
    by_cases more : s.tables.length < 16
    · rw [if_pos more, value_bind, value_bind, fetchEntry_value]
      by_cases usable : Usable (entryAt m root i)
      · have told := registerTable_logs m (entryAt m root i) s usable
        have count : (registerTable m (entryAt m root i) s).value.tables.length = s.tables.length + 1 := by
          rw [(registerTable_usable m _ s usable).tables, List.length_append, List.length_singleton]
        have rest := ih (i + 1) (registerTable m (entryAt m root i) s).value (by omega)
        rw [count] at rest
        rw [List.filter_cons, if_pos (decide_eq_true usable),
          show 16 - s.tables.length = 16 - (s.tables.length + 1) + 1 by omega, List.take_succ_cons,
          ← List.singleton_append, fadtMessages_append]
        exact told.trans rest
      · rw [registerTable_unusable m _ s usable, value_pure, List.filter_cons,
          if_neg (fun same => usable (of_decide_eq_true same))]
        exact ih (i + 1) s room
    · rw [if_neg more, show 16 - s.tables.length = 0 by omega, List.take_zero]
      exact Logs.refl s

theorem parseRoot_logs (root : Root) (s : AcpiState) :
    Logs (fadtMessages m (firstTables m root) ++ [.parsed]) s (parseRoot m root s).value := by
  have scanned := scanEntries_logs m root
    (entries (read32 m (root.sdt + 4#64)) root.useXsdt).toNat 0 { s with tables := [] } (Nat.zero_le 16)
  rw [List.length_nil, Nat.sub_zero] at scanned
  exact scanned.trans (Logs.said (by decide +kernel) _)

def rootMessages (root : Root) : List Message :=
  if root.sdt = 0#64 then [] else [.root root.useXsdt root.sdt]

theorem announce_logs (rsdp : Addr) (root : Root) (s : AcpiState) :
    Logs (.rsdp rsdp :: rootMessages root) s (announce rsdp root s) := by
  have pointer (t : AcpiState) : Logs [.rsdp rsdp] t (t.print (printAt "RSDP found at 0x" rsdp)) :=
    Logs.pointed rfl t
  have table (t : AcpiState) : Logs [.root root.useXsdt root.sdt] t
      (t.print (printAt (if root.useXsdt then "XSDT at 0x" else "RSDT at 0x") root.sdt)) :=
    Logs.pointed rfl t
  unfold announce rootMessages
  dsimp only
  by_cases null : root.sdt = 0#64
  · rw [if_pos null, if_pos null]
    exact pointer s
  · rw [if_neg null, if_neg null]
    exact (pointer s).trans (table _)

/-- Everything that `acpi_init` prints on a machine with the given memory. -/
def acpiMessages : List Message :=
  let rsdp := (findRsdp m).value
  let root := (rootPointer m rsdp).value
  .starting :: (if rsdp = 0#64 then [.missing]
    else (.rsdp rsdp :: rootMessages root) ++
      (if RootSigned m root.sdt then fadtMessages m (firstTables m root) ++ [.parsed] else [.missing]))

theorem acpiInit_logs (s : AcpiState) : Logs (acpiMessages m) s (acpiInit m s).value := by
  have starts : Logs [.starting] s (s.print (say "ACPI parser initializing\n")) := Logs.said (by decide +kernel) s
  unfold acpiInit acpiMessages
  generalize s.print (say "ACPI parser initializing\n") = t at starts ⊢
  rw [value_bind]
  generalize (findRsdp m).value = rsdp
  dsimp only
  rw [← List.singleton_append]
  refine starts.trans ?_
  by_cases missing : rsdp = 0#64
  · rw [if_pos missing, if_pos missing]
    exact fallback_logs t
  · rw [if_neg missing, if_neg missing, value_bind]
    generalize (rootPointer m rsdp).value = root
    rw [value_bind, isRoot_value]
    refine (announce_logs rsdp root t).trans ?_
    by_cases signed : RootSigned m root.sdt
    · rw [if_pos signed, if_pos (decide_eq_true signed)]
      exact parseRoot_logs m root _
    · rw [if_neg signed, if_neg (fun same => signed (of_decide_eq_true same))]
      exact fallback_logs _

theorem digits_legible {digits : List Byte} {k n : Nat} (hex : Hexadecimal digits k n) : Legible digits := by
  have ordinary : Legible hexDigits := by decide +kernel
  exact fun ch member => ordinary ch (hex.numeral.digits ch member)

theorem Message.line_short (message : Message) : Legible message.line ∧ message.line.length ≤ 38 := by
  have address (a : Addr) := hex32Text_digits (a.setWidth 32)
  have block (v : BitVec 16) := hex16Text_digits v
  have word (label : String) (a : Addr) (legible : Legible (ascii label)) (short : (ascii label).length ≤ 30) :
      Legible (ascii label ++ hex32Text (a.setWidth 32)) ∧
        (ascii label ++ hex32Text (a.setWidth 32)).length ≤ 38 := by
    rw [List.length_append, (address a).length]
    exact ⟨legible.append (digits_legible (address a)), by omega⟩
  cases message with
  | starting => exact ⟨by decide +kernel, by decide +kernel⟩
  | rsdp a => exact word _ a (by decide +kernel) (by decide +kernel)
  | root useXsdt a =>
    apply word _ a
    · cases useXsdt <;> decide +kernel
    · cases useXsdt <;> decide +kernel
  | fadt a blocks =>
    have label : Legible (ascii "FADT at 0x") ∧ (ascii "FADT at 0x").length = 10 := by decide +kernel
    have first : Legible (ascii " PM1a=") ∧ (ascii " PM1a=").length = 6 := by decide +kernel
    have second : Legible (ascii " PM1b=") ∧ (ascii " PM1b=").length = 6 := by decide +kernel
    refine ⟨?_, ?_⟩
    · exact label.1.append ((digits_legible (address a)).append (first.1.append
        ((digits_legible (block blocks.pm1aCntBlk)).append (second.1.append
          (digits_legible (block blocks.pm1bCntBlk))))))
    · simp only [Message.line, List.length_append, label.2, first.2, second.2, (address a).length,
        (block _).length]
      decide
  | parsed => exact ⟨by decide +kernel, by decide +kernel⟩
  | missing => exact ⟨by decide +kernel, by decide +kernel⟩

theorem acpiMessages_few : (acpiMessages m).length ≤ 20 := by
  have tables (root : Root) : (fadtMessages m (firstTables m root)).length ≤ 16 := by
    have some_of_them := List.length_filter_le (fun a => decide (IsFadt m a)) (firstTables m root)
    have first : (firstTables m root).length ≤ 16 := List.length_take_le _ _
    rw [fadtMessages, List.length_map]
    omega
  have pointer (root : Root) : (rootMessages root).length ≤ 1 := by
    unfold rootMessages
    split
    · exact Nat.zero_le 1
    · exact Nat.le_refl 1
  unfold acpiMessages
  generalize (findRsdp m).value = rsdp
  dsimp only
  generalize (rootPointer m rsdp).value = root
  have fadts := tables root
  have line := pointer root
  split_ifs <;> simp only [List.length_cons, List.length_append, List.length_nil] <;> omega

end LifeOS.Acpi
