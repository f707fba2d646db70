import LifeOS.Library.Runs
import LifeOS.Console.Frame

/-!
The Ctrl chords over whole histories of scancodes. The flag of `console_poll_input` is set
by a press of Ctrl and cleared by the chord that uses it, so it says that Ctrl is held only
while releases and chords keep step.
-/

namespace LifeOS.Console
open LifeOS.Drivers LifeOS.Hmi LifeOS.Library.Runs LifeOS.Library.Strings

/-- What has happened to Ctrl: a press so far, and since the last press a release and a
chord. -/
structure CtrlUse where
  made : Bool
  released : Bool
  used : Bool

def CtrlUse.held (u : CtrlUse) : Bool := u.made && !u.released

/-- The terminal and the driver, each byte being polled when it arrives. -/
structure Polling where
  terminal : Terminal
  haveE0 : Bool
  use : CtrlUse

namespace Polling

def key (sc : Byte) (w : Polling) : Byte := (keyboardReadChar ⟨[sc], w.haveE0⟩).1

def IsArrow (key : Byte) : Prop := key = keyUp ∨ key = keyDown

instance (key : Byte) : Decidable (IsArrow key) := inferInstanceAs (Decidable (_ ∨ _))

/-- The keys that a held Ctrl gives another meaning, where they have it. -/
def Chord (key : Byte) (w : Polling) : Prop :=
  IsArrow key ∧ (w.use.held = true ∨ w.terminal.con.sbView ≠ 0) ∨ key = keyAltR ∨ key = keyFn

instance (key : Byte) (w : Polling) : Decidable (Chord key w) := inferInstanceAs (Decidable (_ ∨ _))

/-- Ctrl is `0x1D` when pressed and `0x9D` when released, without a prefix. -/
def nextUse (sc : Byte) (w : Polling) : CtrlUse :=
  if w.haveE0 = false ∧ sc = 0x1D#8 then ⟨true, false, false⟩
  else if w.haveE0 = false ∧ sc = 0x9D#8 then { w.use with released := true }
  else if Chord (w.key sc) w then { w.use with used := true }
  else w.use

def step (sc : Byte) (w : Polling) : Polling where
  terminal := consolePollInput (w.key sc) w.terminal
  haveE0 := (keyboardReadChar ⟨[sc], w.haveE0⟩).2.haveE0
  use := w.nextUse sc

def start (t : Terminal) : Polling := ⟨clearCtrl t, false, ⟨false, false, false⟩⟩

structure Obeys (sc : Byte) (w : Polling) : Prop where
  arrow : IsArrow (w.key sc) → clearCtrl (w.step sc).terminal = clearCtrl (w.terminal.onConsole
    (if w.use.held = true ∨ w.terminal.con.sbView > 0 then scrollView (w.key sc) else enqueue (w.key sc)))
  alt : w.key sc = keyAltR → clearCtrl (w.step sc).terminal =
    clearCtrl (if w.use.held = true then paneMoveUp w.terminal else paneMoveLeft w.terminal)
  fn : w.key sc = keyFn → clearCtrl (w.step sc).terminal =
    clearCtrl (if w.use.held = true then paneMoveDown w.terminal else paneMoveRight w.terminal)

/-- At a press that Ctrl may change, a release has come since the last press of Ctrl exactly
if a chord has. -/
def InStep (sc : Byte) (w : Polling) : Prop :=
  IsArrow (w.key sc) ∧ w.terminal.con.sbView = 0 ∨ w.key sc = keyAltR ∨ w.key sc = keyFn →
    w.use.made = true → w.use.released = w.use.used

instance (sc : Byte) (w : Polling) : Decidable (w.InStep sc) := inferInstanceAs (Decidable (_ → _))

/-- The flag is set by a press and cleared by a chord; releases do not reach it. -/
def Latched (w : Polling) : Prop := w.terminal.con.ctrl = (w.use.made && !w.use.used)

theorem latched_eq_held {w : Polling} (latched : w.Latched)
    (even : w.use.made = true → w.use.released = w.use.used) : w.terminal.con.ctrl = w.use.held := by
  rw [latched, CtrlUse.held]
  cases made : w.use.made with
  | false => rfl
  | true => rw [even made]

theorem key_eq_ctrl_iff (sc : Byte) (w : Polling) :
    w.key sc = keyCtrl ↔ w.haveE0 = false ∧ sc = 0x1D#8 := by
  have bytes : ∀ sc : Byte, ∀ e0 : Bool,
      (keyboardReadChar ⟨[sc], e0⟩).1 = keyCtrl ↔ e0 = false ∧ sc = 0x1D#8 := by
    decide +kernel
  exact bytes sc w.haveE0

theorem key_of_release (sc : Byte) (w : Polling) (release : w.haveE0 = false ∧ sc = 0x9D#8) :
    w.key sc = 0#8 := by
  unfold key
  rw [release.1, release.2]
  decide

theorem poll_arrow (key : Byte) (t : Terminal) (arrow : IsArrow key) (still : ¬Scrolls key t.con) :
    consolePollInput key t = t.onConsole (enqueue key) := by
  unfold consolePollInput pollRules
  rcases arrow with rfl | rfl
  · rw [if_neg (by decide), if_neg (by decide), if_neg still, if_neg (by decide), if_neg (by decide),
      if_neg (by decide), if_neg (by decide), if_neg (by decide), if_neg (by decide), if_neg (by decide)]
  · rw [if_neg (by decide), if_neg (by decide), if_neg still, if_neg (by decide), if_neg (by decide),
      if_neg (by decide), if_neg (by decide), if_neg (by decide), if_neg (by decide), if_neg (by decide)]

theorem poll_alt (t : Terminal) :
    consolePollInput keyAltR t = clearCtrl (if t.con.ctrl then paneMoveUp t else paneMoveLeft t) := by
  have still : ¬Scrolls keyAltR t.con := fun scrolls => absurd scrolls.1 (by decide)
  unfold consolePollInput pollRules
  rw [if_neg (by decide), if_neg (by decide), if_neg still, if_pos rfl]

theorem poll_fn (t : Terminal) :
    consolePollInput keyFn t = clearCtrl (if t.con.ctrl then paneMoveDown t else paneMoveRight t) := by
  have still : ¬Scrolls keyFn t.con := fun scrolls => absurd scrolls.1 (by decide)
  unfold consolePollInput pollRules
  rw [if_neg (by decide), if_neg (by decide), if_neg still, if_neg (by decide), if_pos rfl]

theorem obeys (sc : Byte) (w : Polling) (latched : w.Latched) (even : w.InStep sc) : w.Obeys sc := by
  refine ⟨?_, ?_, ?_⟩
  · intro arrow
    change clearCtrl (consolePollInput (w.key sc) w.terminal) = _
    by_cases above : w.terminal.con.sbView > 0
    · have scrolls : Scrolls (w.key sc) w.terminal.con := ⟨arrow, Or.inr (Nat.ne_of_gt above)⟩
      rw [poll_scrolls _ _ scrolls, if_pos (Or.inr above)]
    · have flag := latched_eq_held latched (even (Or.inl ⟨arrow, Nat.eq_zero_of_not_pos above⟩))
      by_cases held : w.use.held = true
      · have scrolls : Scrolls (w.key sc) w.terminal.con := ⟨arrow, Or.inl (flag.trans held)⟩
        rw [poll_scrolls _ _ scrolls, if_pos (Or.inl held)]
      · have still : ¬Scrolls (w.key sc) w.terminal.con := by
          intro scrolls
          rcases scrolls.2 with set | view
          · exact held (flag.symm.trans set)
          · exact above (Nat.pos_of_ne_zero view)
        rw [poll_arrow _ _ arrow still, if_neg (fun either => either.elim held above)]
  · intro alt
    have flag := latched_eq_held latched (even (Or.inr (Or.inl alt)))
    change clearCtrl (consolePollInput (w.key sc) w.terminal) = _
    rw [alt, poll_alt, flag]
    rfl
  · intro fn
    have flag := latched_eq_held latched (even (Or.inr (Or.inr fn)))
    change clearCtrl (consolePollInput (w.key sc) w.terminal) = _
    rw [fn, poll_fn, flag]
    rfl

theorem ctrl_of_input {c d : ConsoleState} (same : inputOf c = inputOf d) : c.ctrl = d.ctrl :=
  congrArg InputState.ctrl same

theorem step_latched (sc : Byte) (w : Polling) (latched : w.Latched) (even : w.InStep sc) :
    (w.step sc).Latched := by
  change (consolePollInput (w.key sc) w.terminal).con.ctrl = ((w.nextUse sc).made && !(w.nextUse sc).used)
  unfold nextUse
  by_cases press : w.haveE0 = false ∧ sc = 0x1D#8
  · rw [if_pos press, (key_eq_ctrl_iff sc w).mpr press]
    rfl
  rw [if_neg press]
  have other : w.key sc ≠ keyCtrl := fun ctrl => press ((key_eq_ctrl_iff sc w).mp ctrl)
  by_cases release : w.haveE0 = false ∧ sc = 0x9D#8
  · rw [if_pos release, key_of_release sc w release]
    exact latched
  rw [if_neg release]
  by_cases chord : Chord (w.key sc) w
  · rw [if_pos chord, Bool.not_true, Bool.and_false]
    rcases chord with ⟨arrow, either⟩ | alt | fn
    · have scrolls : Scrolls (w.key sc) w.terminal.con := by
        refine ⟨arrow, ?_⟩
        by_cases view : w.terminal.con.sbView = 0
        · have held := either.resolve_right (not_not.mpr view)
          exact Or.inl ((latched_eq_held latched (even (Or.inl ⟨arrow, view⟩))).trans held)
        · exact Or.inr view
      rw [poll_scrolls _ _ scrolls]
      exact congrArg InputState.ctrl (inputOf_scrollView (w.key sc) w.terminal.con)
    · rw [alt, poll_alt]
      rfl
    · rw [fn, poll_fn]
      rfl
  rw [if_neg chord, ← latched]
  have polled := pollRules_polled (w.key sc) w.terminal
  unfold consolePollInput
  generalize pollRules (w.key sc) w.terminal = result at polled ⊢
  cases polled with
  | nothing => rfl
  | control ctrl => exact (other ctrl).elim
  | scrolled scrolls =>
    exfalso
    apply chord
    refine Or.inl ⟨scrolls.1, ?_⟩
    by_cases view : w.terminal.con.sbView = 0
    · have set := scrolls.2.resolve_right (not_not.mpr view)
      exact Or.inl ((latched_eq_held latched (even (Or.inl ⟨scrolls.1, view⟩))).symm.trans set)
    · exact Or.inr view
  | moved move => exact (chord (Or.inr move)).elim
  | resized => exact ctrl_of_input (inputOf_paneDraw _)
  | queued =>
    unfold enqueue Terminal.onConsole
    dsimp only
    split <;> rfl

theorem run_obeys (bytes : List Byte) (w : Polling) (latched : w.Latched)
    (even : Along (fun sc w => step sc w) (fun sc w => w.InStep sc) bytes w) :
    Along (fun sc w => step sc w) (fun sc w => w.Obeys sc) bytes w := by
  induction bytes generalizing w with
  | nil => trivial
  | cons sc bytes ih =>
    exact ⟨obeys sc w latched even.1, ih _ (step_latched sc w latched even.1) even.2⟩

end Polling

/-- While releases and chords keep step, every press does what the held keys say. -/
theorem chords_when_in_step (t : Terminal) (bytes : List Byte)
    (even : Along Polling.step (fun sc w => w.InStep sc) bytes (Polling.start t)) :
    Along Polling.step (fun sc w => w.Obeys sc) bytes (Polling.start t) :=
  Polling.run_obeys bytes (Polling.start t) rfl even

/-- Ctrl and Alt pressed together and released. -/
theorem ctrl_alt_obeys :
    Along Polling.step (fun sc w => w.Obeys sc) [0x1D#8, 0x38#8, 0xB8#8, 0x9D#8]
      (Polling.start Terminal.zeroed) :=
  chords_when_in_step Terminal.zeroed [0x1D#8, 0x38#8, 0xB8#8, 0x9D#8]
    ⟨by decide, by decide, by decide, by decide, trivial⟩

/-- Ctrl pressed and released, then Up: the view scrolls and the shell gets no key. -/
theorem released_ctrl_scrolls :
    ¬∀ (t : Terminal) (bytes : List Byte),
      Along Polling.step (fun sc w => w.Obeys sc) bytes (Polling.start t) := by
  intro always
  obtain ⟨_, _, _, last, _⟩ := always Terminal.zeroed [0x1D#8, 0x9D#8, 0xE0#8, 0x48#8]
  have arrow := last.arrow (by decide)
  rw [if_neg (by decide)] at arrow
  have pressed : (((Polling.start Terminal.zeroed).step 0x1D#8).step 0x9D#8).step 0xE0#8 =
      ⟨Terminal.zeroed.onConsole (fun c => { c with ctrl := true }), true, ⟨true, true, false⟩⟩ := rfl
  rw [pressed] at arrow
  generalize chord : Terminal.zeroed.onConsole (fun c => { c with ctrl := true }) = t at arrow
  have ring : inputOf t.con = ⟨fun _ => 0#8, 0, 0, true⟩ := chord ▸ rfl
  have scrolls : Scrolls keyUp t.con := ⟨Or.inl rfl, Or.inl (congrArg InputState.ctrl ring)⟩
  have scrolled : (scrollView keyUp t.con).inputHead = t.con.inputHead :=
    congrArg InputState.head (inputOf_scrollView keyUp t.con)
  have after : (Polling.step 0x48#8 ⟨t, true, ⟨true, true, false⟩⟩).terminal = t.onConsole (scrollView keyUp) :=
    poll_scrolls keyUp t scrolls
  rw [after] at arrow
  have heads : (scrollView keyUp t.con).inputHead = (enqueue keyUp t.con).inputHead :=
    congrArg (fun t : Terminal => t.con.inputHead) arrow
  have empty : t.con.inputHead = 0 ∧ t.con.inputTail = 0 :=
    ⟨congrArg InputState.head ring, congrArg InputState.tail ring⟩
  have queued : (enqueue keyUp t.con).inputHead = 1 := by
    unfold enqueue
    rw [empty.1, empty.2]
    rfl
  rw [scrolled, queued, empty.1] at heads
  exact absurd heads (by decide)

end LifeOS.Console
