import LifeOS.Console.Commands
import LifeOS.Console.Text
import LifeOS.Drivers.Keyboard

/-!
The line editor of `kernel/console/shell.c`: one iteration of `shell_task` for a
character. Every access to `cmd_buf` and `history` is checked, and an access outside
them leaves no result.
-/

namespace LifeOS.Console
open LifeOS.Drivers LifeOS.Library.Loops LifeOS.Library.Strings

/-- `v - 1` on `unsigned int`. -/
def wrapPred (v : Nat) : Nat := (v + (2 ^ 32 - 1)) % 2 ^ 32

/-- `cmd` is the object from the pointer on. -/
def historyAdd (cmd : List Byte) (s : Shell) : Option Shell := do
  let row ← load s.history s.historyIndex
  let (i, row) ← copyString 127 cmd 0 row
  let row ← store row i 0#8
  let history ← store s.history s.historyIndex row
  return { s with
    history := history,
    historyIndex := (s.historyIndex + 1) % 8,
    historyCount := if s.historyCount < 8 then s.historyCount + 1 else s.historyCount }

/-- The returned pointer as the object from there on. -/
def historyGet (offset : Int) (s : Shell) : Option (List Byte) :=
  if offset < 0 ∨ offset ≥ s.historyCount then some [0#8]
  else
    let idx : Int := s.historyIndex - 1 - offset
    let idx := if idx < 0 then idx + 8 else idx
    if idx < 0 then none else (load s.history idx.toNat).map (fun row => row.toList)

def redrawLine (s : Shell) (c : ConsoleState) : Option (Shell × ConsoleState) := do
  let c := consoleSetCursor s.promptX s.promptY c
  let c := forRange s.dispLen (fun _ c => consolePutc 0x20#8 c) c
  let c := consoleSetCursor s.promptX s.promptY c
  let c ← forUp 0 s.cmdLen (fun i c => (load s.cmdBuf i).map (fun ch => consolePutc ch c)) c
  let c := consoleSetCursor (BitVec.ofNat 8 (s.promptX.toNat + s.cmdPos)) s.promptY c
  return ({ s with dispLen := s.cmdLen }, c)

def redraw (s : Shell) (t : Terminal) : Option Outcome :=
  (redrawLine s t.con).map (fun drawn => .returned { t with shell := drawn.1, con := drawn.2 })

def showPoint (s : Shell) (t : Terminal) : Outcome :=
  .returned { t with
    shell := s,
    con := consoleSetCursor (BitVec.ofNat 8 (s.promptX.toNat + s.cmdPos)) s.promptY t.con }

/-- The newline branch up to the command: what `console_execute_command` gets, and the
terminal at that moment. -/
def enterLine (t : Terminal) : Option (List Byte × Terminal) := do
  let cmdBuf ← store t.shell.cmdBuf t.shell.cmdLen 0#8
  let s := { t.shell with cmdBuf := cmdBuf }
  let c := consoleSetCursor (BitVec.ofNat 8 (s.promptX.toNat + s.dispLen)) s.promptY t.con
  let c := consolePutc newline c
  let s ← if s.cmdLen > 0 then historyAdd cmdBuf.toList s else some s
  return (cmdBuf.toList, { t with shell := { s with historyNav := -1 }, con := c })

def eraseBefore (t : Terminal) : Option Outcome :=
  if t.shell.cmdPos > 0 then do
    let lo := wrapPred t.shell.cmdPos
    let hi := wrapPred t.shell.cmdLen
    let cmdBuf ← forUp lo (hi - lo) (fun i buf => do store buf i (← load buf (i + 1))) t.shell.cmdBuf
    redraw { t.shell with cmdBuf := cmdBuf, cmdLen := hi, cmdPos := lo } t
  else some (.returned t)

def pointLeft (t : Terminal) : Outcome :=
  if t.shell.cmdPos > 0 then showPoint { t.shell with cmdPos := t.shell.cmdPos - 1 } t
  else .returned t

def pointRight (t : Terminal) : Outcome :=
  if t.shell.cmdPos < t.shell.cmdLen then showPoint { t.shell with cmdPos := t.shell.cmdPos + 1 } t
  else .returned t

/-- `for (cmd_len = 0; h[cmd_len] && cmd_len < CMD_BUF_SIZE - 1; ++cmd_len) ..` and the redraw. -/
def loadLine (h : List Byte) (s : Shell) (t : Terminal) : Option Outcome := do
  let (cmdLen, cmdBuf) ← copyString 127 h 0 s.cmdBuf
  redraw { s with cmdBuf := cmdBuf, cmdLen := cmdLen, cmdPos := cmdLen } t

def olderEntry (t : Terminal) : Option Outcome :=
  if t.shell.historyCount > 0 ∧ t.shell.historyNav < t.shell.historyCount - 1 then do
    let s := { t.shell with historyNav := t.shell.historyNav + 1 }
    loadLine (← historyGet s.historyNav s) s t
  else some (.returned t)

def newerEntry (t : Terminal) : Option Outcome :=
  if t.shell.historyNav ≥ 0 then do
    let s := { t.shell with historyNav := t.shell.historyNav - 1 }
    loadLine (← if s.historyNav ≥ 0 then historyGet s.historyNav s else some [0#8]) s t
  else some (.returned t)

/-- `history_nav = -1` at the end of the last branch. -/
def resetNav : Outcome → Outcome
  | .returned t => .returned { t with shell := { t.shell with historyNav := -1 } }
  | .halted t => .halted t

def insertChar (ch : Byte) (t : Terminal) : Option Outcome :=
  if t.shell.cmdLen < 127 then do
    let cmdBuf ← forDown t.shell.cmdPos (t.shell.cmdLen - t.shell.cmdPos)
      (fun i buf => do store buf i (← load buf (i - 1))) t.shell.cmdBuf
    let cmdBuf ← store cmdBuf t.shell.cmdPos ch
    let s := { t.shell with cmdBuf := cmdBuf, cmdPos := t.shell.cmdPos + 1, cmdLen := t.shell.cmdLen + 1 }
    return resetNav (← redraw s t)
  else some (resetNav (.returned t))

/-- The body of `shell_task` for a character other than zero. -/
def shellKey (inv : ComputeInventory) (ch : Byte) (t : Terminal) : Option Outcome :=
  if ch = newline then do
    let (cmd, t) ← enterLine t
    match ← consoleExecuteCommand inv cmd t with
    | .returned t => return .returned (shellShowPrompt t)
    | .halted t => return .halted t
  else if ch = backspace then eraseBefore t
  else if ch = keyLeft then some (pointLeft t)
  else if ch = keyRight then some (pointRight t)
  else if ch = keyUp then olderEntry t
  else if ch = keyDown then newerEntry t
  else insertChar ch t

theorem wrapPred_pos (v : Nat) (positive : 0 < v) (small : v < 2 ^ 32) : wrapPred v = v - 1 := by
  unfold wrapPred
  omega

def redrawnText (s : Shell) (t : Text) : Text :=
  let t := (t.setCursor s.promptX s.promptY).write (List.replicate s.dispLen 0x20#8)
  let t := (t.setCursor s.promptX s.promptY).write (s.cmdBuf.toList.take s.cmdLen)
  t.setCursor (BitVec.ofNat 8 (s.promptX.toNat + s.cmdPos)) s.promptY

theorem textOf_blanks (n : Nat) (c : ConsoleState) :
    textOf (forRange n (fun _ c => consolePutc 0x20#8 c) c) = (textOf c).write (List.replicate n 0x20#8) := by
  induction n with
  | zero =>
    rw [forRange_zero]
    rfl
  | succ n ih =>
    rw [forRange_succ, textOf_consolePutc, ih, List.replicate_succ', Text.write_append]
    rfl

theorem redraw_spec (s : Shell) (t : Terminal) (fits : s.cmdLen ≤ 128) :
    ∃ con, redraw s t = some (.returned { t with shell := { s with dispLen := s.cmdLen }, con := con }) ∧
      textOf con = redrawnText s (textOf t.con) := by
  obtain ⟨clean, cleans⟩ : ∃ clean, forRange s.dispLen (fun _ c => consolePutc 0x20#8 c)
      (consoleSetCursor s.promptX s.promptY t.con) = clean := ⟨_, rfl⟩
  have cleaned := textOf_blanks s.dispLen (consoleSetCursor s.promptX s.promptY t.con)
  rw [cleans] at cleaned
  obtain ⟨drawn, ran, shown⟩ := forUp_total 0 s.cmdLen
    (fun i c => (load s.cmdBuf i).map (fun ch => consolePutc ch c))
    (fun i c => textOf c = ((textOf clean).setCursor s.promptX s.promptY).write (s.cmdBuf.toList.take i))
    (consoleSetCursor s.promptX s.promptY clean) (textOf_consoleSetCursor _ _ _)
    (by
      intro i c _ high held
      have inside : i < 128 := by omega
      have next : s.cmdBuf.toList.take (i + 1) = s.cmdBuf.toList.take i ++ [s.cmdBuf[i]] := by
        rw [List.take_add_one]
        simp [inside]
      refine ⟨consolePutc s.cmdBuf[i] c, ?_, ?_⟩
      · rw [load_inside s.cmdBuf i inside]
        rfl
      · rw [textOf_consolePutc, held, next, Text.write_append]
        rfl)
  rw [Nat.zero_add] at shown
  refine ⟨consoleSetCursor (BitVec.ofNat 8 (s.promptX.toNat + s.cmdPos)) s.promptY drawn, ?_, ?_⟩
  · unfold redraw redrawLine
    simp only [cleans, ran, Option.bind_eq_bind, Option.bind_some]
    rfl
  · rw [textOf_consoleSetCursor, shown, cleaned, textOf_consoleSetCursor]
    rfl

theorem shift_down (buf : Vector Byte 128) (lo n : Nat) (fits : lo + n < 128) :
    ∃ shifted, forUp lo n (fun i buf => do store buf i (← load buf (i + 1))) buf = some shifted ∧
      shifted.toList.take (lo + n) = (buf.toList.take (lo + n + 1)).eraseIdx lo := by
  obtain ⟨shifted, ran, held⟩ := forUp_total lo n
    (fun i (buf : Vector Byte 128) => do store buf i (← load buf (i + 1)))
    (fun k b => ∀ j (inside : j < 128),
      b[j] = if lo ≤ j ∧ j < k then buf.toList.getD (j + 1) 0#8 else buf[j]) buf
    (by
      intro j inside
      rw [if_neg (by omega)])
    (by
      intro i b low high held
      have within : i + 1 < 128 := by omega
      refine ⟨b.set i b[i + 1], ?_, ?_⟩
      · simp only [load_inside b (i + 1) within, Option.bind_eq_bind, Option.bind_some]
        exact store_inside b i _ (by omega)
      · intro j inside
        by_cases here : j = i
        · subst here
          have next := held (j + 1) within
          rw [if_neg (by omega)] at next
          rw [Vector.getElem_set_self, if_pos (by omega), next]
          simp [List.getD_eq_getElem?_getD, within]
        · rw [Vector.getElem_set_ne _ _ (fun same => here same.symm), held j inside]
          simp only [show (lo ≤ j ∧ j < i) ↔ (lo ≤ j ∧ j < i + 1) by omega])
  refine ⟨shifted, ran, ?_⟩
  apply List.ext_getElem
  · have taken : (buf.toList.take (lo + n + 1)).length = lo + n + 1 := by
      rw [List.length_take, Vector.length_toList]
      omega
    rw [List.length_eraseIdx_of_lt (by omega), taken, List.length_take, Vector.length_toList]
    omega
  · intro j first second
    have inside : j < lo + n := Nat.lt_of_lt_of_le first (List.length_take_le _ _)
    have value := held j (by omega)
    rw [List.getElem_take, Vector.getElem_toList, value, List.getElem_eraseIdx]
    by_cases below : j < lo
    · rw [if_neg (by omega), dif_pos below]
      simp
    · rw [if_pos (by omega), dif_neg below]
      simp [List.getD_eq_getElem?_getD, show j + 1 < 128 by omega]

theorem shift_up (buf : Vector Byte 128) (lo n : Nat) (ch : Byte) (fits : lo + n < 127) :
    ∃ shifted final, forDown lo n (fun i buf => do store buf i (← load buf (i - 1))) buf = some shifted ∧
      store shifted lo ch = some final ∧
      final.toList.take (lo + n + 1) =
        buf.toList.take lo ++ ch :: (buf.toList.take (lo + n)).drop lo := by
  obtain ⟨shifted, ran, held⟩ := forDown_total lo n
    (fun i (buf : Vector Byte 128) => do store buf i (← load buf (i - 1)))
    (fun k b => ∀ j (inside : j < 128),
      b[j] = if k < j ∧ j ≤ lo + n then buf.toList.getD (j - 1) 0#8 else buf[j]) buf
    (by
      intro j inside
      rw [if_neg (by omega)])
    (by
      intro i b low high held
      have within : i < 128 := by omega
      refine ⟨b.set (i + 1) b[i], ?_, ?_⟩
      · simp only [Nat.add_sub_cancel, load_inside b i within, Option.bind_eq_bind, Option.bind_some]
        exact store_inside b (i + 1) _ (by omega)
      · intro j inside
        by_cases here : j = i + 1
        · subst here
          have next := held i within
          rw [if_neg (by omega)] at next
          rw [Vector.getElem_set_self, if_pos (by omega), next]
          simp [List.getD_eq_getElem?_getD, within]
        · rw [Vector.getElem_set_ne _ _ (fun same => here same.symm), held j inside]
          simp only [show (i + 1 < j ∧ j ≤ lo + n) ↔ (i < j ∧ j ≤ lo + n) by omega])
  refine ⟨shifted, shifted.set lo ch, ran, store_inside shifted lo ch (by omega), ?_⟩
  apply List.ext_getElem
  · simp
    omega
  · intro j first second
    have inside : j < lo + n + 1 := by simp at first; omega
    rw [List.getElem_take, Vector.getElem_toList, Vector.getElem_set]
    by_cases below : j < lo
    · rw [if_neg (by omega), held j (by omega), if_neg (by omega),
        List.getElem_append_left (by simp; omega)]
      simp
    · have front : (buf.toList.take lo).length = lo := by simp; omega
      rw [List.getElem_append_right (by omega)]
      simp only [front]
      by_cases here : j = lo
      · simp [here]
      · obtain ⟨k, rfl⟩ : ∃ k, j = lo + k + 1 := ⟨j - lo - 1, by omega⟩
        rw [if_neg (by omega), held _ (by omega), if_pos (by omega)]
        simp only [show lo + k + 1 - lo = k + 1 by omega, List.getElem_cons_succ, List.getElem_drop,
          List.getElem_take, Vector.getElem_toList]
        simp [List.getD_eq_getElem?_getD, show lo + k < 128 by omega]

end LifeOS.Console
