import LifeOS.Kernel.Boot
import LifeOS.Power

/-!
What the screen tells about the power registers. The boot log stays on the text screen while the
tasks run, so the words that `kernel_shutdown` would write can be read off it at any time.
-/

namespace LifeOS.Kernel
open LifeOS.Boot (framed framed_mapped leftOf)
open LifeOS.Acpi LifeOS.Console LifeOS.Drivers LifeOS.Gui LifeOS.Library.Readers LifeOS.Library.Runs
open LifeOS.Library.Strings
open LifeOS.Power (shutdownPass)
open LifeOS.Gui.Machine (rows)
open LifeOS.Gui.Mapped (MappedAt frameOf)
open LifeOS.Library.Memory (Addr Mem)

/-- The registers of QEMU, which the kernel falls back on. -/
def defaultFadt : Fadt := ⟨0x604#16, 0xB004#16, 0#16, 0#16⟩

def readFadt (row : List Byte) : Option Fadt := do
  let s ← expect (ascii "FADT at 0x") row
  let (_, s) ← number hexDigits s
  let s ← expect (ascii " PM1a=") s
  let (pm1a, s) ← number hexDigits s
  let s ← expect (ascii " PM1b=") s
  let (pm1b, _) ← number hexDigits s
  return ⟨BitVec.ofNat 16 pm1a, BitVec.ofNat 16 pm1b, 0#16, 0#16⟩

/-- The FADT that is known behind a row, if `kept` is known before it. -/
def readRow (kept : Option Fadt) (row : List Byte) : Option Fadt :=
  if row = padded Message.missing.line then some defaultFadt else (readFadt row).or kept

/-- The FADT as the rows of the screen tell it, from the top down. -/
def screenFadt (kept : Option Fadt) (rows : Fin 25 → Row) : Option Fadt :=
  (List.ofFn fun y => charsOf (rows y)).foldl readRow kept

def told (kept : Option Fadt) : Message → Option Fadt
  | .fadt _ blocks => some { blocks with slpTypa := 0#16, slpTypb := 0#16 }
  | .missing => some defaultFadt
  | _ => kept

theorem padded_head (line : List Byte) (ch : Byte) (first : line.head? = some ch) : (padded line).head? = some ch := by
  cases line with
  | nil => cases first
  | cons b line => exact first

theorem readRow_other (kept : Option Fadt) (row : List Byte) (first : row.head? ≠ some 0x46#8)
    (other : row ≠ padded Message.missing.line) : readRow kept row = kept := by
  have label : ascii "FADT at 0x" = 0x46#8 :: ascii "ADT at 0x" := by decide +kernel
  have unread : readFadt row = none := by
    unfold readFadt
    rw [label]
    cases row with
    | nil => rfl
    | cons ch row =>
      have differs : 0x46#8 ≠ ch := fun same => first (congrArg some same.symm)
      rw [expect, if_neg differs]
      rfl
  rw [readRow, if_neg other, unread]
  rfl

theorem readFadt_line (a : Library.Memory.Addr) (blocks : Fadt) (rest : List Byte)
    (stops : Stops (fun b => decide (b ∈ hexDigits)) rest) :
    readFadt ((Message.fadt a blocks).line ++ rest) = some { blocks with slpTypa := 0#16, slpTypb := 0#16 } := by
  have address (rest : List Byte) (stops : Stops (fun b => decide (b ∈ hexDigits)) rest) :
      number hexDigits (hex32Text (a.setWidth 32) ++ rest) = some ((a.setWidth 32).toNat, rest) :=
    number_append hexDigits _ rest _ (hex32Text_digits _).numeral (List.cons_ne_nil _ _) stops
  unfold readFadt Message.line
  simp only [List.append_assoc, expect_append, Option.bind_eq_bind, Option.bind_some]
  rw [address _ (Stops.append _ (by decide +kernel)), Option.bind_some]
  simp only [expect_append, Option.bind_some]
  rw [hex16_read _ _ (Stops.append _ (by decide +kernel)), Option.bind_some]
  simp only [expect_append, Option.bind_some]
  rw [hex16_read _ _ stops, Option.bind_some, BitVec.ofNat_toNat, BitVec.ofNat_toNat, BitVec.setWidth_eq,
    BitVec.setWidth_eq]
  rfl

theorem readRow_first (kept : Option Fadt) (line : List Byte) (ch : Byte) (first : line.head? = some ch)
    (other : ch ≠ 0x46#8 ∧ ch ≠ 0x41#8) : readRow kept (padded line) = kept := by
  have begins := padded_head line ch first
  have fallback : (padded Message.missing.line).head? = some 0x41#8 := by decide +kernel
  apply readRow_other
  · rw [begins]
    exact fun same => other.1 (Option.some.inj same)
  · intro same
    rw [same, fallback] at begins
    exact other.2 (Option.some.inj begins).symm

theorem readRow_blank (kept : Option Fadt) : readRow kept (padded []) = kept :=
  readRow_other kept (padded []) (by decide +kernel) (by decide +kernel)

theorem readRow_message (kept : Option Fadt) (message : Message) :
    readRow kept (padded message.line) = told kept message := by
  cases message with
  | starting => exact readRow_other kept _ (by decide +kernel) (by decide +kernel)
  | rsdp a => exact readRow_first kept _ 0x52#8 (by simp [Message.line, ascii]) (by decide)
  | root useXsdt a =>
    cases useXsdt with
    | true => exact readRow_first kept _ 0x58#8 (by simp [Message.line, ascii]) (by decide)
    | false => exact readRow_first kept _ 0x52#8 (by simp [Message.line, ascii]) (by decide)
  | fadt a blocks =>
    have begins : (padded (Message.fadt a blocks).line).head? = some 0x46#8 :=
      padded_head _ _ (by simp [Message.line, ascii])
    have fallback : (padded Message.missing.line).head? = some 0x41#8 := by decide +kernel
    have other : padded (Message.fadt a blocks).line ≠ padded Message.missing.line := by
      intro same
      rw [same, fallback] at begins
      exact absurd (Option.some.inj begins) (by decide)
    have short := (Message.fadt a blocks).line_short.2
    have stops : Stops (fun b => decide (b ∈ hexDigits))
        (List.replicate (80 - (Message.fadt a blocks).line.length) 0x20#8) := by
      intro ch first
      obtain rfl := List.eq_of_mem_replicate (List.mem_of_mem_head? first)
      decide +kernel
    rw [readRow, if_neg other, padded, readFadt_line a blocks _ stops]
    rfl
  | parsed => exact readRow_other kept _ (by decide +kernel) (by decide +kernel)
  | missing => exact if_pos rfl

theorem rows_listed (lines : List (List Byte)) (few : lines.length ≤ 25) :
    (List.ofFn fun y : Fin 25 => padded (lines.getD y.val [])) =
      lines.map padded ++ List.replicate (25 - lines.length) (padded []) := by
  apply List.ext_getElem
  · simp only [List.length_ofFn, List.length_append, List.length_map, List.length_replicate]
    omega
  · intro i _ _
    rw [List.getElem_ofFn, List.getElem_append]
    by_cases inside : i < lines.length
    · rw [dif_pos (by rwa [List.length_map]), List.getElem_map, List.getD_eq_getElem _ _ inside]
    · rw [dif_neg (by rwa [List.length_map]), List.getElem_replicate, List.getD_eq_default _ _ (Nat.le_of_not_lt inside)]

theorem foldl_blank (n : Nat) (kept : Option Fadt) : (List.replicate n (padded [])).foldl readRow kept = kept := by
  induction n with
  | zero => rfl
  | succ n ih =>
    rw [List.replicate_succ, List.foldl_cons, readRow_blank]
    exact ih

theorem foldl_lines (messages : List Message) (kept : Option Fadt) :
    ((messages.map Message.line).map padded).foldl readRow kept = messages.foldl told kept := by
  induction messages generalizing kept with
  | nil => rfl
  | cons message messages ih =>
    rw [List.map_cons, List.map_cons, List.foldl_cons, List.foldl_cons, readRow_message]
    exact ih _

theorem foldl_bootLines (m : Mem) (kept : Option Fadt) :
    ((bootLines m ++ [prompt]).map padded).foldl readRow kept = (acpiMessages m).foldl told kept := by
  have opening (kept : Option Fadt) : readRow kept (padded (0x20#8 :: Message.starting.line)) = kept :=
    readRow_other kept _ (by decide +kernel) (by decide +kernel)
  have closing (kept : Option Fadt) : readRow kept (padded (ascii "LifeOS initialized")) = kept :=
    readRow_other kept _ (by decide +kernel) (by decide +kernel)
  have prompted (kept : Option Fadt) : readRow kept (padded prompt) = kept :=
    readRow_other kept _ (by decide +kernel) (by decide +kernel)
  obtain ⟨rest, messages⟩ : ∃ rest, acpiMessages m = .starting :: rest := ⟨_, rfl⟩
  rw [bootLines, messages, List.map_cons, indented]
  simp only [List.cons_append, List.map_cons, List.map_append, List.foldl_cons, List.foldl_append, List.map_nil,
    List.foldl_nil, readRow_blank, opening, closing, prompted, foldl_lines]
  rfl

theorem foldl_fadtMessages (m : Mem) (tables : List Library.Memory.Addr) (kept : Option Fadt) :
    (fadtMessages m tables).foldl told kept = tables.foldl (recordFadt m) kept := by
  induction tables generalizing kept with
  | nil => rfl
  | cons a tables ih =>
    rw [← List.singleton_append, fadtMessages_append, List.foldl_append, List.singleton_append, List.foldl_cons]
    unfold recordFadt
    by_cases fadt : IsFadt m a
    · rw [fadtMessages_fadt m a fadt, if_pos fadt]
      exact ih _
    · rw [fadtMessages_other m a fadt, if_neg fadt]
      exact ih kept

theorem foldl_acpiMessages (m : Mem) (kept : Option Fadt) :
    (acpiMessages m).foldl told kept = match acceptedRoot m with
      | some root => (firstTables m root).foldl (recordFadt m) kept
      | none => some defaultFadt := by
  have pointer (root : Root) (kept : Option Fadt) : (rootMessages root).foldl told kept = kept := by
    unfold rootMessages
    split <;> rfl
  unfold acpiMessages acceptedRoot
  generalize (findRsdp m).value = rsdp
  dsimp only
  generalize (rootPointer m rsdp).value = root
  by_cases missing : rsdp = 0#64
  · rw [if_pos missing, if_neg (fun both => both.1 missing)]
    rfl
  · rw [if_neg missing]
    by_cases signed : RootSigned m root.sdt
    · rw [if_pos signed, if_pos ⟨missing, signed⟩]
      simp only [List.foldl_cons, List.foldl_append, List.cons_append, pointer, foldl_fadtMessages]
      rfl
    · rw [if_neg signed, if_neg (fun both => signed both.2)]
      simp only [List.foldl_cons, List.foldl_append, List.cons_append, pointer]
      rfl

theorem screenFadt_boot (m : Mem) (c : ConsoleState) (kept : Option Fadt) (screen : BootScreen m c) :
    screenFadt kept c.vgaBuffer = match acceptedRoot m with
      | some root => (firstTables m root).foldl (recordFadt m) kept
      | none => some defaultFadt := by
  have few := bootLines_few m
  have length : (bootLines m ++ [prompt]).length ≤ 25 := by
    rw [List.length_append, List.length_singleton]
    omega
  unfold screenFadt
  rw [funext screen.rows, rows_listed _ length, List.foldl_append, foldl_blank, foldl_bootLines, foldl_acpiMessages]

end LifeOS.Kernel
