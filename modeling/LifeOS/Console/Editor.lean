import LifeOS.Library.Runs
import LifeOS.Console.Shell

/-!
The shell's line editor against a reference: a line with an insertion point, a list of
at most eight entered lines and a place in it.
-/

namespace LifeOS.Console
open LifeOS.Drivers LifeOS.Library.Runs LifeOS.Library.Strings

/-- `history` is newest first; `nav` is the entry shown, if any. -/
structure Editor where
  line : List Byte
  point : Nat
  history : List (List Byte)
  nav : Option Nat

namespace Editor

def fresh : Editor := ⟨[], 0, [], none⟩

def enter (e : Editor) : Editor where
  line := []
  point := 0
  history := if e.line = [] then e.history else (e.line :: e.history).take 8
  nav := none

def interrupt (e : Editor) : Editor := { e with line := [], point := 0 }

def erase (e : Editor) : Editor :=
  if 0 < e.point then { e with line := e.line.eraseIdx (e.point - 1), point := e.point - 1 } else e

def left (e : Editor) : Editor := if 0 < e.point then { e with point := e.point - 1 } else e

def right (e : Editor) : Editor := if e.point < e.line.length then { e with point := e.point + 1 } else e

def fetch (line : List Byte) (nav : Option Nat) (e : Editor) : Editor :=
  { e with line := line, point := line.length, nav := nav }

def nextOlder (e : Editor) : Nat :=
  match e.nav with
  | none => 0
  | some k => k + 1

def older (e : Editor) : Editor :=
  if inside : e.nextOlder < e.history.length then
    e.fetch (e.history.get ⟨e.nextOlder, inside⟩) (some e.nextOlder)
  else e

def newer (e : Editor) : Editor :=
  match e.nav with
  | none => e
  | some 0 => e.fetch [] none
  | some (k + 1) => e.fetch (e.history.getD k []) (some k)

def insert (ch : Byte) (e : Editor) : Editor :=
  if e.line.length < 127 then
    { e with line := e.line.take e.point ++ ch :: e.line.drop e.point, point := e.point + 1, nav := none }
  else { e with nav := none }

def key (ch : Byte) (e : Editor) : Editor :=
  if ch = newline then e.enter
  else if ch = backspace then e.erase
  else if ch = keyLeft then e.left
  else if ch = keyRight then e.right
  else if ch = keyUp then e.older
  else if ch = keyDown then e.newer
  else e.insert ch

end Editor

/-- The ring of the shell holds the entries, the newest right before `history_index`. -/
structure Recalls (s : Shell) (entries : List (List Byte)) : Prop where
  count : s.historyCount = entries.length
  few : entries.length ≤ 8
  index : s.historyIndex < 8
  slots : ∀ k (inside : k < entries.length), ∃ row,
    load s.history ((s.historyIndex + 7 - k) % 8) = some row ∧ 0#8 ∈ row.toList ∧
      text row.toList = entries.get ⟨k, inside⟩
  short : ∀ entry ∈ entries, entry.length ≤ 127

def navValue : Option Nat → Int
  | none => -1
  | some k => k

structure Edits (s : Shell) (e : Editor) : Prop where
  line : s.cmdBuf.toList.take s.cmdLen = e.line
  length : s.cmdLen = e.line.length
  short : e.line.length ≤ 127
  plain : 0#8 ∉ e.line
  point : s.cmdPos = e.point
  inside : e.point ≤ e.line.length
  nav : s.historyNav = navValue e.nav
  shown : ∀ k, e.nav = some k → k < e.history.length
  history : Recalls s e.history

theorem Recalls.congr {before after : Shell} {entries : List (List Byte)} (recalls : Recalls before entries)
    (history : after.history = before.history) (count : after.historyCount = before.historyCount)
    (index : after.historyIndex = before.historyIndex) : Recalls after entries := by
  refine ⟨count.trans recalls.count, recalls.few, index ▸ recalls.index, ?_, recalls.short⟩
  rw [history, index]
  exact recalls.slots

private theorem load_set {α : Type} {n : Nat} (a : Vector α n) (i j : Nat) (v : α) (inside : i < n) :
    load (a.set i v) j = if i = j then some v else load a j := by
  unfold load
  rw [Vector.getElem?_set]

theorem historyAdd_spec (cmd : List Byte) (s : Shell) (entries : List (List Byte))
    (recalls : Recalls s entries) (terminated : 0#8 ∈ cmd) (short : (text cmd).length ≤ 127) :
    ∃ history index count, historyAdd cmd s =
        some { s with history := history, historyIndex := index, historyCount := count } ∧
      Recalls { s with history := history, historyIndex := index, historyCount := count }
        ((text cmd :: entries).take 8) := by
  have index := recalls.index
  have few := recalls.few
  have count := recalls.count
  obtain ⟨copied, final, ran, stored, ended, kept⟩ :=
    copyString_terminate 127 cmd s.history[s.historyIndex] terminated (by decide)
  rw [List.take_of_length_le short] at kept
  refine ⟨s.history.set s.historyIndex final, (s.historyIndex + 1) % 8,
    if s.historyCount < 8 then s.historyCount + 1 else s.historyCount, ?_, ?_⟩
  · unfold historyAdd
    simp only [load_inside s.history s.historyIndex index, ran, stored,
      store_inside s.history s.historyIndex final index, Option.bind_eq_bind, Option.bind_some]
    rfl
  · have length : ((text cmd :: entries).take 8).length = min 8 (entries.length + 1) := by
      rw [List.length_take, List.length_cons]
    refine ⟨?_, by omega, Nat.mod_lt _ (by decide), ?_, ?_⟩
    · change (if s.historyCount < 8 then s.historyCount + 1 else s.historyCount) = _
      split <;> omega
    · intro k inside
      rw [length] at inside
      change ∃ row, load (s.history.set s.historyIndex final) (((s.historyIndex + 1) % 8 + 7 - k) % 8) =
        some row ∧ _
      rw [load_set]
      cases k with
      | zero =>
        rw [if_pos (by omega)]
        exact ⟨final, rfl, ended, by simpa using kept⟩
      | succ k =>
        obtain ⟨row, place, closed, same⟩ := recalls.slots k (by omega)
        rw [if_neg (by omega), show ((s.historyIndex + 1) % 8 + 7 - (k + 1)) % 8 =
          (s.historyIndex + 7 - k) % 8 by omega]
        exact ⟨row, place, closed, by simpa using same⟩
    · intro entry member
      rcases List.mem_cons.mp (List.mem_of_mem_take member) with new | old
      · rw [new]
        exact short
      · exact recalls.short entry old

theorem historyGet_spec (s : Shell) (entries : List (List Byte)) (recalls : Recalls s entries) (k : Nat)
    (inside : k < entries.length) :
    ∃ object, historyGet k s = some object ∧ 0#8 ∈ object ∧ text object = entries.get ⟨k, inside⟩ := by
  obtain ⟨row, place, closed, same⟩ := recalls.slots k inside
  have index := recalls.index
  have few := recalls.few
  have count := recalls.count
  refine ⟨row.toList, ?_, closed, same⟩
  have valid : ¬((k : Int) < 0 ∨ (k : Int) ≥ s.historyCount) := by omega
  unfold historyGet
  rw [if_neg valid]
  dsimp only
  by_cases wraps : (s.historyIndex : Int) - 1 - k < 0
  · rw [if_pos wraps, if_neg (by omega)]
    rw [show ((s.historyIndex : Int) - 1 - k + 8).toNat = (s.historyIndex + 7 - k) % 8 by omega, place]
    rfl
  · rw [if_neg wraps, if_neg wraps]
    rw [show ((s.historyIndex : Int) - 1 - k).toNat = (s.historyIndex + 7 - k) % 8 by omega, place]
    rfl

/-- The step has a result, and when it returns the shell holds what the editor says. -/
def Reaches (result : Option Outcome) (e : Editor) : Prop :=
  ∃ outcome, result = some outcome ∧ ∀ after, outcome = .returned after → Edits after.shell e

theorem returned_reaches (t : Terminal) (e : Editor) (edits : Edits t.shell e) :
    Reaches (some (.returned t)) e := by
  refine ⟨_, rfl, ?_⟩
  intro after same
  rw [← Outcome.returned.inj same]
  exact edits

/-- A shell that holds what the editor says and remembers the same prompt and display. -/
structure Replaces (before after : Shell) (e : Editor) : Prop where
  edits : Edits after e
  promptX : after.promptX = before.promptX
  promptY : after.promptY = before.promptY
  dispLen : after.dispLen = before.dispLen

/-- How an editing key ends: with nothing drawn, with the cursor moved, or with a redraw. -/
inductive Ends (t : Terminal) (old new : Editor) : Option Outcome → Prop where
  | still (s : Shell) (replaces : Replaces t.shell s new) (line : new.line = old.line)
      (point : new.point = old.point) : Ends t old new (some (.returned { t with shell := s }))
  | pointed (s : Shell) (replaces : Replaces t.shell s new) (line : new.line = old.line) :
      Ends t old new (some (showPoint s t))
  | redrawn (s : Shell) (replaces : Replaces t.shell s new) : Ends t old new (redraw s t)

theorem Ends.returns {t : Terminal} {old new : Editor} {result : Option Outcome}
    (ends : Ends t old new result) :
    ∃ after, result = some (.returned after) ∧ Edits after.shell new ∧ after.panes = t.panes := by
  cases ends with
  | still s replaces => exact ⟨_, rfl, replaces.edits, rfl⟩
  | pointed s replaces => exact ⟨_, rfl, replaces.edits, rfl⟩
  | redrawn s replaces =>
    have edits := replaces.edits
    have length := edits.length
    have short := edits.short
    obtain ⟨con, drawn, _⟩ := redraw_spec s t (by omega)
    have kept : Edits { s with dispLen := s.cmdLen } new :=
      ⟨edits.line, length, short, edits.plain, edits.point, edits.inside, edits.nav, edits.shown,
        edits.history.congr rfl rfl rfl⟩
    exact ⟨_, drawn, kept, rfl⟩

theorem Ends.reaches {t : Terminal} {old new : Editor} {result : Option Outcome}
    (ends : Ends t old new result) : Reaches result new := by
  obtain ⟨after, ran, edits, _⟩ := ends.returns
  rw [ran]
  exact returned_reaches after new edits

theorem unchanged_ends (t : Terminal) (e : Editor) (edits : Edits t.shell e) :
    Ends t e e (some (.returned t)) :=
  .still t.shell ⟨edits, rfl, rfl, rfl⟩ rfl rfl

theorem pointLeft_ends (t : Terminal) (e : Editor) (edits : Edits t.shell e) :
    Ends t e e.left (some (pointLeft t)) := by
  have point := edits.point
  have inside := edits.inside
  unfold pointLeft Editor.left
  by_cases moves : 0 < e.point
  · rw [if_pos (show t.shell.cmdPos > 0 by omega), if_pos moves]
    refine .pointed _ ⟨?_, rfl, rfl, rfl⟩ rfl
    exact ⟨edits.line, edits.length, edits.short, edits.plain, congrArg (· - 1) point,
      show e.point - 1 ≤ e.line.length by omega, edits.nav, edits.shown, edits.history.congr rfl rfl rfl⟩
  · rw [if_neg (show ¬t.shell.cmdPos > 0 by omega), if_neg moves]
    exact unchanged_ends t e edits

theorem pointRight_ends (t : Terminal) (e : Editor) (edits : Edits t.shell e) :
    Ends t e e.right (some (pointRight t)) := by
  have point := edits.point
  have length := edits.length
  unfold pointRight Editor.right
  by_cases moves : e.point < e.line.length
  · rw [if_pos (show t.shell.cmdPos < t.shell.cmdLen by omega), if_pos moves]
    refine .pointed _ ⟨?_, rfl, rfl, rfl⟩ rfl
    exact ⟨edits.line, edits.length, edits.short, edits.plain, congrArg (· + 1) point,
      show e.point + 1 ≤ e.line.length by omega, edits.nav, edits.shown, edits.history.congr rfl rfl rfl⟩
  · rw [if_neg (show ¬t.shell.cmdPos < t.shell.cmdLen by omega), if_neg moves]
    exact unchanged_ends t e edits

theorem eraseBefore_ends (t : Terminal) (e : Editor) (edits : Edits t.shell e) :
    Ends t e e.erase (eraseBefore t) := by
  have point := edits.point
  have length := edits.length
  have inside := edits.inside
  have short := edits.short
  unfold eraseBefore Editor.erase
  by_cases moves : 0 < e.point
  · have lo : wrapPred t.shell.cmdPos = e.point - 1 := by
      rw [wrapPred_pos _ (by omega) (by omega), point]
    have hi : wrapPred t.shell.cmdLen = e.line.length - 1 := by
      rw [wrapPred_pos _ (by omega) (by omega), length]
    obtain ⟨shifted, ran, kept⟩ := shift_down t.shell.cmdBuf (e.point - 1)
      (e.line.length - 1 - (e.point - 1)) (by omega)
    rw [show e.point - 1 + (e.line.length - 1 - (e.point - 1)) = e.line.length - 1 by omega,
      show e.line.length - 1 + 1 = e.line.length by omega, ← length, edits.line] at kept
    rw [if_pos (show t.shell.cmdPos > 0 by omega), if_pos moves]
    simp only [lo, hi, ran]
    simp only [Option.bind_eq_bind, Option.bind_some]
    refine .redrawn _ ⟨?_, rfl, rfl, rfl⟩
    have erased : (e.line.eraseIdx (e.point - 1)).length = e.line.length - 1 :=
      List.length_eraseIdx_of_lt (by omega)
    refine ⟨?_, erased.symm, ?_, ?_, rfl, ?_, edits.nav, edits.shown, edits.history.congr rfl rfl rfl⟩
    · rw [← length]
      exact kept
    · change (e.line.eraseIdx (e.point - 1)).length ≤ 127
      omega
    · exact fun member => edits.plain (List.mem_of_mem_eraseIdx member)
    · change e.point - 1 ≤ (e.line.eraseIdx (e.point - 1)).length
      omega
  · rw [if_neg (show ¬t.shell.cmdPos > 0 by omega), if_neg moves]
    exact unchanged_ends t e edits

theorem Edits.resetNav {s : Shell} {e : Editor} (edits : Edits s e) :
    Edits { s with historyNav := -1 } { e with nav := none } :=
  ⟨edits.line, edits.length, edits.short, edits.plain, edits.point, edits.inside, rfl,
    fun _ never => (Option.some_ne_none _ never.symm).elim, edits.history.congr rfl rfl rfl⟩

/-- A redraw does not look at `history_nav`, so it may be reset before. -/
theorem redraw_resetNav (s : Shell) (t : Terminal) :
    (redraw s t).map resetNav = redraw { s with historyNav := -1 } t := by
  have line (c : ConsoleState) : redrawLine { s with historyNav := -1 } c =
      (redrawLine s c).map (fun drawn => ({ drawn.1 with historyNav := -1 }, drawn.2)) := by
    unfold redrawLine
    simp only [Option.bind_eq_bind, Option.map_bind]
    rfl
  unfold redraw
  rw [line, Option.map_map, Option.map_map]
  rfl

theorem insertChar_ends (ch : Byte) (t : Terminal) (e : Editor) (edits : Edits t.shell e)
    (nonzero : ch ≠ 0#8) : Ends t e (e.insert ch) (insertChar ch t) := by
  have point := edits.point
  have length := edits.length
  have inside := edits.inside
  unfold insertChar Editor.insert
  by_cases room : e.line.length < 127
  · obtain ⟨shifted, final, ran, stored, kept⟩ := shift_up t.shell.cmdBuf e.point
      (e.line.length - e.point) ch (by omega)
    rw [show e.point + (e.line.length - e.point) = e.line.length by omega, ← length, edits.line] at kept
    have front : t.shell.cmdBuf.toList.take e.point = e.line.take e.point := by
      rw [← edits.line, List.take_take, length, Nat.min_eq_left inside]
    have grown : (e.line.take e.point ++ ch :: e.line.drop e.point).length = e.line.length + 1 := by
      rw [List.length_append, List.length_take, List.length_cons, List.length_drop]
      omega
    rw [front] at kept
    rw [if_pos (show t.shell.cmdLen < 127 by omega), if_pos room]
    simp only [point, length, ran]
    simp only [stored, Option.bind_eq_bind, Option.bind_some]
    have edited : Edits
        { t.shell with cmdBuf := final, cmdPos := e.point + 1, cmdLen := e.line.length + 1 }
        { e with line := e.line.take e.point ++ ch :: e.line.drop e.point, point := e.point + 1 } := by
      refine ⟨?_, grown.symm, ?_, ?_, rfl, ?_, edits.nav, edits.shown, edits.history.congr rfl rfl rfl⟩
      · rw [← length]
        exact kept
      · change (e.line.take e.point ++ ch :: e.line.drop e.point).length ≤ 127
        omega
      · intro member
        rcases List.mem_append.mp member with before | behind
        · exact edits.plain (List.mem_of_mem_take before)
        · rcases List.mem_cons.mp behind with here | later
          · exact nonzero here.symm
          · exact edits.plain (List.mem_of_mem_drop later)
      · change e.point + 1 ≤ (e.line.take e.point ++ ch :: e.line.drop e.point).length
        omega
    have reset := redraw_resetNav
      { t.shell with cmdBuf := final, cmdPos := e.point + 1, cmdLen := e.line.length + 1 } t
    rw [Option.map_eq_bind] at reset
    exact reset ▸ Ends.redrawn _ ⟨edited.resetNav, rfl, rfl, rfl⟩
  · rw [if_neg (show ¬t.shell.cmdLen < 127 by omega), if_neg room]
    exact .still _ ⟨edits.resetNav, rfl, rfl, rfl⟩ rfl rfl

theorem loadLine_ends (object : List Byte) (s : Shell) (t : Terminal) (old e : Editor) (nav : Option Nat)
    (terminated : 0#8 ∈ object) (short : (text object).length ≤ 127) (history : Recalls s e.history)
    (place : s.historyNav = navValue nav) (shown : ∀ k, nav = some k → k < e.history.length)
    (same : s.promptX = t.shell.promptX ∧ s.promptY = t.shell.promptY ∧ s.dispLen = t.shell.dispLen) :
    Ends t old (e.fetch (text object) nav) (loadLine object s t) := by
  obtain ⟨copied, ran, bytes⟩ := copyString_spec 127 object 0 s.cmdBuf terminated (by decide) (by decide)
  have count : 0 + min (text object).length (127 - 0) = (text object).length := by omega
  rw [count] at ran bytes
  unfold loadLine
  simp only [ran, Option.bind_eq_bind, Option.bind_some]
  refine .redrawn _ ⟨?_, same.1, same.2.1, same.2.2⟩
  refine ⟨?_, rfl, short, zero_notMem_text object, rfl, Nat.le_refl _, place, shown,
    history.congr rfl rfl rfl⟩
  have whole : (text object).take (127 - 0) = text object := List.take_of_length_le (by omega)
  change copied.toList.take (text object).length = text object
  rw [bytes, List.take_zero, List.nil_append, whole, List.take_left]

theorem olderEntry_ends (t : Terminal) (e : Editor) (edits : Edits t.shell e) :
    Ends t e e.older (olderEntry t) := by
  have count := edits.history.count
  have nav := edits.nav
  have next : t.shell.historyNav + 1 = e.nextOlder := by
    rw [nav]
    unfold Editor.nextOlder navValue
    cases e.nav <;> simp
  unfold olderEntry Editor.older
  by_cases inside : e.nextOlder < e.history.length
  · rw [if_pos (show t.shell.historyCount > 0 ∧ t.shell.historyNav < t.shell.historyCount - 1 by omega),
      dif_pos inside]
    have kept : Recalls { t.shell with historyNav := (e.nextOlder : Int) } e.history :=
      edits.history.congr rfl rfl rfl
    obtain ⟨object, found, terminated, same⟩ := historyGet_spec _ e.history kept e.nextOlder inside
    have short := edits.history.short _ (List.getElem_mem inside)
    simp only [next, found, Option.bind_eq_bind, Option.bind_some]
    rw [← same]
    apply loadLine_ends object _ t e e (some e.nextOlder) terminated _ kept rfl _ ⟨rfl, rfl, rfl⟩
    · rw [same]
      exact short
    · intro k shown
      rw [← Option.some.inj shown]
      exact inside
  · rw [if_neg (by omega), dif_neg inside]
    exact unchanged_ends t e edits

theorem newerEntry_ends (t : Terminal) (e : Editor) (edits : Edits t.shell e) :
    Ends t e e.newer (newerEntry t) := by
  have nav := edits.nav
  have empty_text : text [0#8] = [] := rfl
  unfold newerEntry Editor.newer
  cases place : e.nav with
  | none =>
    rw [place] at nav
    rw [if_neg (by rw [nav]; decide)]
    exact unchanged_ends t e edits
  | some k =>
    rw [place] at nav
    change t.shell.historyNav = (k : Int) at nav
    rw [if_pos (by omega)]
    cases k with
    | zero =>
      have before : t.shell.historyNav - 1 = -1 := by omega
      simp only [before, show ¬((-1 : Int) ≥ 0) by decide, if_false, Option.bind_eq_bind, Option.bind_some]
      have kept : Recalls { t.shell with historyNav := -1 } e.history := edits.history.congr rfl rfl rfl
      exact loadLine_ends [0#8] _ t e e none (by simp) (by decide) kept rfl
        (fun _ never => (Option.some_ne_none _ never.symm).elim) ⟨rfl, rfl, rfl⟩
    | succ k =>
      have inside : k < e.history.length := by
        have bound := edits.shown (k + 1) place
        omega
      have before : t.shell.historyNav - 1 = (k : Int) := by omega
      have kept : Recalls { t.shell with historyNav := (k : Int) } e.history :=
        edits.history.congr rfl rfl rfl
      obtain ⟨object, found, terminated, same⟩ := historyGet_spec _ e.history kept k inside
      have short := edits.history.short _ (List.getElem_mem inside)
      have value : e.history.getD k [] = text object := by
        rw [same, List.getD_eq_getElem?_getD, List.getElem?_eq_getElem inside]
        rfl
      simp only [before, show (k : Int) ≥ 0 by omega, if_true, found, Option.bind_eq_bind, Option.bind_some]
      rw [value]
      apply loadLine_ends object _ t e e (some k) terminated _ kept rfl _ ⟨rfl, rfl, rfl⟩
      · rw [same]
        exact short
      · intro j shown
        rw [← Option.some.inj shown]
        exact inside

/-- A newline before its command runs: `cmd` is the object that the command gets. -/
structure Entered (t : Terminal) (e : Editor) (cmd : List Byte) (entered : Terminal) : Prop where
  terminated : 0#8 ∈ cmd
  line : text cmd = e.line
  nav : entered.shell.historyNav = -1
  history : Recalls entered.shell e.enter.history
  place : entered.shell.cmdPos = t.shell.cmdPos ∧ entered.shell.cmdLen = t.shell.cmdLen
  printed : entered.con = consolePutc newline (consoleSetCursor
    (BitVec.ofNat 8 (t.shell.promptX.toNat + t.shell.dispLen)) t.shell.promptY t.con)
  panes : entered.panes = t.panes

theorem enterLine_spec (t : Terminal) (e : Editor) (edits : Edits t.shell e) :
    ∃ cmd entered, enterLine t = some (cmd, entered) ∧ Entered t e cmd entered := by
  have length := edits.length
  have short := edits.short
  obtain ⟨d, back, behind⟩ : ∃ d back, t.shell.cmdBuf.toList.drop e.line.length = d :: back :=
    List.exists_cons_of_length_pos (by simp; omega)
  have shape : t.shell.cmdBuf.toList = e.line ++ d :: back := by
    rw [← behind, ← length, ← edits.line, List.take_append_drop]
  have ended := toList_set_append t.shell.cmdBuf e.line back 0#8 d shape (by omega)
  have inside : e.line.length < 128 := by omega
  generalize placed : t.shell.cmdBuf.set e.line.length 0#8 = cmdBuf at ended
  have terminated : 0#8 ∈ cmdBuf.toList := by
    rw [ended]
    simp
  have whole : text cmdBuf.toList = e.line := by
    rw [ended]
    exact text_append_zero e.line back edits.plain
  have stored : store t.shell.cmdBuf t.shell.cmdLen 0#8 = some cmdBuf := by
    rw [length, store_inside _ _ _ inside, placed]
  have kept : Recalls { t.shell with cmdBuf := cmdBuf } e.history := edits.history.congr rfl rfl rfl
  unfold enterLine
  simp only [stored, Option.bind_eq_bind, Option.bind_some]
  by_cases nothing : e.line = []
  · have none_typed : ¬t.shell.cmdLen > 0 := by
      rw [length, nothing]
      decide
    rw [if_neg none_typed]
    refine ⟨_, _, rfl, terminated, whole, rfl, ?_, ⟨rfl, rfl⟩, rfl, rfl⟩
    unfold Editor.enter
    rw [if_pos nothing]
    exact kept.congr rfl rfl rfl
  · have typed : t.shell.cmdLen > 0 := by
      rw [length]
      exact List.length_pos_of_ne_nil nothing
    obtain ⟨history, index, count, added, recalls⟩ :=
      historyAdd_spec cmdBuf.toList { t.shell with cmdBuf := cmdBuf } e.history kept terminated
        (by rw [whole]; exact short)
    rw [whole] at recalls
    rw [if_pos typed, added]
    refine ⟨_, _, rfl, terminated, whole, rfl, ?_, ⟨rfl, rfl⟩, rfl, rfl⟩
    unfold Editor.enter
    rw [if_neg nothing]
    exact recalls.congr rfl rfl rfl

theorem prompted_edits (t : Terminal) (e : Editor) (nav : t.shell.historyNav = navValue e.nav)
    (shown : ∀ k, e.nav = some k → k < e.history.length) (recalls : Recalls t.shell e.history) :
    Edits (shellShowPrompt t).shell e.interrupt :=
  ⟨List.take_zero, rfl, Nat.zero_le 127, List.not_mem_nil, rfl, Nat.le_refl 0, nav, shown,
    recalls.congr rfl rfl rfl⟩

/-- A newline runs the command of the line and prompts again, if that returns. -/
theorem newline_eq (inv : ComputeInventory) (t : Terminal) (e : Editor) (edits : Edits t.shell e) :
    ∃ cmd entered, enterLine t = some (cmd, entered) ∧ Entered t e cmd entered ∧
      shellKey inv newline t = some ((commandOutcome inv e.line entered).thenPrompt) := by
  obtain ⟨cmd, entered, ran, enters⟩ := enterLine_spec t e edits
  have executed := executeCommand_eq inv cmd entered enters.terminated
  rw [enters.line] at executed
  refine ⟨cmd, entered, ran, enters, ?_⟩
  unfold shellKey
  rw [if_pos rfl]
  simp only [ran, Option.bind_eq_bind, Option.bind_some, executed]
  cases commandOutcome inv e.line entered <;> rfl

theorem newline_returns (inv : ComputeInventory) (t : Terminal) (e : Editor) (edits : Edits t.shell e)
    (goes : ¬StopsMachine e.line) :
    ∃ after, shellKey inv newline t = some (.returned after) ∧ Edits after.shell e.enter := by
  obtain ⟨cmd, entered, _, enters, ran⟩ := newline_eq inv t e edits
  obtain ⟨after, outcome⟩ := commandOutcome_returns inv e.line entered goes
  have editing := commandOutcome_editing inv e.line entered after outcome
  refine ⟨shellShowPrompt after, by rw [ran, outcome]; rfl, ?_⟩
  exact prompted_edits after e.enter (editing.historyNav.trans enters.nav)
    (fun _ never => (Option.some_ne_none _ never.symm).elim)
    (enters.history.congr editing.history editing.historyCount editing.historyIndex)

/-- The keys other than newline edit the line and nothing else. -/
theorem shellKey_ends (inv : ComputeInventory) (ch : Byte) (t : Terminal) (e : Editor)
    (nonzero : ch ≠ 0#8) (edits : Edits t.shell e) (stays : ch ≠ newline) :
    Ends t e (e.key ch) (shellKey inv ch t) := by
  unfold shellKey Editor.key
  rw [if_neg stays, if_neg stays]
  by_cases erases : ch = backspace
  · rw [if_pos erases, if_pos erases]
    exact eraseBefore_ends t e edits
  rw [if_neg erases, if_neg erases]
  by_cases goes_left : ch = keyLeft
  · rw [if_pos goes_left, if_pos goes_left]
    exact pointLeft_ends t e edits
  rw [if_neg goes_left, if_neg goes_left]
  by_cases goes_right : ch = keyRight
  · rw [if_pos goes_right, if_pos goes_right]
    exact pointRight_ends t e edits
  rw [if_neg goes_right, if_neg goes_right]
  by_cases goes_up : ch = keyUp
  · rw [if_pos goes_up, if_pos goes_up]
    exact olderEntry_ends t e edits
  rw [if_neg goes_up, if_neg goes_up]
  by_cases goes_down : ch = keyDown
  · rw [if_pos goes_down, if_pos goes_down]
    exact newerEntry_ends t e edits
  rw [if_neg goes_down, if_neg goes_down]
  exact insertChar_ends ch t e edits nonzero

/-- A character that `console_getc` hands to `shell_task`. -/
abbrev Key := {ch : Byte // ch ≠ 0#8}

/-- The zeros are left out, as `console_getc` means that nothing waits by them. -/
def keysOf (bytes : List Byte) : List Key :=
  bytes.filterMap fun ch => if some_key : ch ≠ 0#8 then some ⟨ch, some_key⟩ else none

def edit (ch : Key) : Editor → Editor := Editor.key ch.val

def GoesOn (ch : Key) (e : Editor) : Prop := ch.val = newline → ¬StopsMachine e.line

instance (ch : Key) (e : Editor) : Decidable (GoesOn ch e) := inferInstanceAs (Decidable (_ → _))

theorem shellKey_returns (inv : ComputeInventory) (ch : Key) (t : Terminal) (e : Editor) (edits : Edits t.shell e)
    (goes : GoesOn ch e) : ∃ after, shellKey inv ch.val t = some (.returned after) ∧ Edits after.shell (edit ch e) := by
  by_cases enters : ch.val = newline
  · have entered : edit ch e = e.enter := if_pos enters
    rw [entered, enters]
    exact newline_returns inv t e edits (goes enters)
  · obtain ⟨after, ran, kept, _⟩ := (shellKey_ends inv ch.val t e ch.property edits enters).returns
    exact ⟨after, ran, kept⟩

/-- The shell behind a newline whose command has stopped the machine. -/
structure Stopped (inv : ComputeInventory) (t : Terminal) (e : Editor) (after : Terminal) : Prop where
  stops : StopsMachine e.line
  command : ∃ cmd entered, Entered t e cmd entered ∧
    consoleExecuteCommand inv cmd entered = some (.halted after) ∧ after.shell = entered.shell
  bounds : after.shell.cmdPos ≤ after.shell.cmdLen ∧ after.shell.cmdLen ≤ 127
  nav : after.shell.historyNav = -1
  history : Recalls after.shell e.enter.history

theorem newline_stops (inv : ComputeInventory) (t : Terminal) (e : Editor) (edits : Edits t.shell e)
    (stops : StopsMachine e.line) :
    ∃ after, shellKey inv newline t = some (.halted after) ∧ Stopped inv t e after := by
  have point := edits.point
  have length := edits.length
  have inside := edits.inside
  have short := edits.short
  obtain ⟨cmd, entered, _, enters, ran⟩ := newline_eq inv t e edits
  obtain ⟨after, outcome, shell⟩ := commandOutcome_stops inv e.line entered stops
  have executed := executeCommand_eq inv cmd entered enters.terminated
  rw [enters.line, outcome] at executed
  obtain ⟨pos, len⟩ := enters.place
  refine ⟨after, by rw [ran, outcome]; rfl, stops, ⟨cmd, entered, enters, executed, shell⟩, ?_, ?_, ?_⟩
  · rw [shell, pos, len]
    omega
  · rw [shell]
    exact enters.nav
  · rw [shell]
    exact enters.history

theorem shellKey_reaches (inv : ComputeInventory) (ch : Byte) (t : Terminal) (e : Editor)
    (nonzero : ch ≠ 0#8) (edits : Edits t.shell e) : Reaches (shellKey inv ch t) (e.key ch) := by
  by_cases stops : ch = newline ∧ StopsMachine e.line
  · obtain ⟨after, ran, _⟩ := newline_stops inv t e edits stops.2
    rw [stops.1, ran]
    exact ⟨_, rfl, fun _ never => by cases never⟩
  · obtain ⟨after, ran, kept⟩ := shellKey_returns inv ⟨ch, nonzero⟩ t e edits (not_and.mp stops)
    rw [ran]
    exact returned_reaches after _ kept

def shellRun (inv : ComputeInventory) : List Key → Terminal → Option Outcome
  | [], t => some (.returned t)
  | ch :: keys, t => do
    match ← shellKey inv ch.val t with
    | .returned t => shellRun inv keys t
    | .halted t => return .halted t

theorem shellRun_returns (inv : ComputeInventory) (keys : List Key) (t : Terminal) (e : Editor)
    (edits : Edits t.shell e) (goes : Along edit GoesOn keys e) :
    ∃ after, shellRun inv keys t = some (.returned after) ∧ Edits after.shell (run edit keys e) := by
  induction keys generalizing t e with
  | nil => exact ⟨t, rfl, edits⟩
  | cons ch keys ih =>
    obtain ⟨after, ran, kept⟩ := shellKey_returns inv ch t e edits goes.1
    rw [shellRun, ran]
    exact ih after (edit ch e) kept goes.2

/-- A run that meets a stopping command ends with it, and takes no key behind it. -/
theorem shellRun_stops (inv : ComputeInventory) (keys : List Key) (t : Terminal) (e : Editor)
    (edits : Edits t.shell e) (stops : ¬Along edit GoesOn keys e) :
    ∃ front ch back before after, keys = front ++ ch :: back ∧ ch.val = newline ∧
      Along edit GoesOn front e ∧ shellRun inv front t = some (.returned before) ∧
      shellRun inv keys t = some (.halted after) ∧ Stopped inv before (run edit front e) after := by
  induction keys generalizing t e with
  | nil => exact absurd trivial stops
  | cons ch keys ih =>
    by_cases goes : GoesOn ch e
    · obtain ⟨next, ran, kept⟩ := shellKey_returns inv ch t e edits goes
      obtain ⟨front, last, back, before, after, rfl, enters, along, early, halted, stopped⟩ :=
        ih next (edit ch e) kept (fun later => stops ⟨goes, later⟩)
      refine ⟨ch :: front, last, back, before, after, rfl, enters, ⟨goes, along⟩, ?_, ?_, stopped⟩
      · rw [shellRun, ran]
        exact early
      · rw [shellRun, ran]
        exact halted
    · obtain ⟨enters, line⟩ := Classical.not_imp.mp goes
      obtain ⟨after, ran, stopped⟩ := newline_stops inv t e edits (not_not.mp line)
      refine ⟨[], ch, keys, t, after, rfl, enters, trivial, rfl, ?_, stopped⟩
      rw [shellRun, enters, ran]
      rfl

/-- The initial data of the shell, with its prompt somewhere on the screen. -/
def promptedAt (x y : BitVec 8) : Shell := { Shell.initial with promptX := x, promptY := y }

theorem initial_edits (x y : BitVec 8) : Edits (promptedAt x y) Editor.fresh := by
  refine ⟨rfl, rfl, Nat.zero_le 127, List.not_mem_nil, rfl, Nat.le_refl 0, rfl, ?_, ?_⟩
  · exact fun _ never => (Option.some_ne_none _ never.symm).elim
  · exact ⟨rfl, Nat.zero_le 8, Nat.zero_lt_succ 7, fun _ inside => (Nat.not_lt_zero _ inside).elim,
      fun _ member => (List.not_mem_nil member).elim⟩

/-- The shell beside the editor: what it holds, its bounds, and what a newline does next: the command
gets the line, and a prompt follows if it returns. -/
structure EditorKept (inv : ComputeInventory) (t : Terminal) (e : Editor) : Prop where
  edits : Edits t.shell e
  bounds : t.shell.cmdPos ≤ t.shell.cmdLen ∧ t.shell.cmdLen ≤ 127
  nav : -1 ≤ t.shell.historyNav ∧ t.shell.historyNav < max (t.shell.historyCount : Int) 1
  command : ∃ cmd entered, Entered t e cmd entered ∧
    shellKey inv newline t = (consoleExecuteCommand inv cmd entered).map Outcome.thenPrompt

theorem Edits.kept {t : Terminal} {e : Editor} (inv : ComputeInventory) (edits : Edits t.shell e) :
    EditorKept inv t e := by
  have length := edits.length
  have point := edits.point
  have short := edits.short
  have inside := edits.inside
  have nav := edits.nav
  have count := edits.history.count
  obtain ⟨cmd, entered, _, enters, ran⟩ := newline_eq inv t e edits
  refine ⟨edits, ⟨by omega, by omega⟩, ?_, cmd, entered, enters, ?_⟩
  · cases place : e.nav with
    | none =>
      rw [place] at nav
      change t.shell.historyNav = -1 at nav
      omega
    | some k =>
      have bound := edits.shown k place
      rw [place] at nav
      change t.shell.historyNav = (k : Int) at nav
      omega
  · rw [ran, executeCommand_eq inv cmd entered enters.terminated, enters.line, Option.map_some]

/-- Every run of the shell stays inside its buffers and edits as the reference does; it returns
unless a newline enters a command that stops the machine, and then ends there. -/
theorem shell_edits (inv : ComputeInventory) (t : Terminal) (x y : BitVec 8) (keys : List Key) :
    (Along edit GoesOn keys Editor.fresh →
      ∃ after, shellRun inv keys { t with shell := promptedAt x y } = some (.returned after) ∧
        EditorKept inv after (run edit keys Editor.fresh)) ∧
    (¬Along edit GoesOn keys Editor.fresh →
      ∃ front ch back before after, keys = front ++ ch :: back ∧ ch.val = newline ∧
        Along edit GoesOn front Editor.fresh ∧
        shellRun inv front { t with shell := promptedAt x y } = some (.returned before) ∧
        shellRun inv keys { t with shell := promptedAt x y } = some (.halted after) ∧
        Stopped inv before (run edit front Editor.fresh) after) := by
  have start : Edits ({ t with shell := promptedAt x y } : Terminal).shell Editor.fresh := initial_edits x y
  refine ⟨fun goes => ?_, fun stops => ?_⟩
  · obtain ⟨after, ran, edits⟩ := shellRun_returns inv keys _ Editor.fresh start goes
    exact ⟨after, ran, edits.kept inv⟩
  · exact shellRun_stops inv keys _ Editor.fresh start stops

end LifeOS.Console
