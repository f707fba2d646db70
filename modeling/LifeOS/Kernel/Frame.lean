import LifeOS.Kernel.Boot

/-!
The framebuffer as the tasks draw on it behind `kernel_init`: each redraw of the GUI goes to the memory
that the loader's tables lead to.
-/

namespace LifeOS.Kernel
open LifeOS.Boot (framed framed_mapped leftOf)
open LifeOS.Console LifeOS.Gui LifeOS.Library.Runs LifeOS.Library.Strings
open LifeOS.Gui.Machine (Glyphs InputData data rows)
open LifeOS.Gui.Mapped (MappedAt frameBytes frameOf redraw_mapped)
open LifeOS.Library.Memory (Addr Mem SameOutside)

/-- What an event makes of the memory, by the redraw of `gui_handle_key`. -/
def drawStep (font : Glyphs) (event : Event) (s : System) (m : Mem) : Option Mem :=
  if keyRead event s ≠ 0#8 then
    let g := data (guiHandleKey (rows font) (keyRead event s) s.gui)
    Mapped.redraw font g.inputBuf g.inputLen m
  else some m

def drawRun (font : Glyphs) (inv : ComputeInventory) : List Event → System → Mem → Option Mem
  | [], _, m => some m
  | event :: events, s, m =>
      (drawStep font event s m).bind (drawRun font inv events (step (rows font) inv event s))

def InFrame (g : InputLine) (m : Mem) : Prop := ∀ k < fbHeight * fbWidth, frameOf m k = g.fb k

theorem redraw_inFrame (font : Glyphs) (g : InputLine) (legible : Machine.Legible g) (m : Mem) (start : Addr)
    (mapped : MappedAt start m) (shows : Shows (rows font) g.line g.fb) :
    ∃ after, Mapped.redraw font (data g).inputBuf (data g).inputLen m = some after ∧
      SameOutside start.toNat frameBytes m after ∧ InFrame g after := by
  obtain ⟨after, ran, outside, pixels⟩ := redraw_mapped font { g with fb := frameOf m } legible m start mapped rfl
  have drawn := Machine.redraw_shows (rows font) { g with fb := frameOf m }
  exact ⟨after, ran, outside, fun k inside => (pixels k inside).trans (drawn.unique shows k inside)⟩

theorem drawStep_inFrame (font : Glyphs) (inv : ComputeInventory) (event : Event) (s : System) (m : Mem) (start : Addr)
    (quiet : Quiet s) (legible : Machine.Legible s.gui) (mapped : MappedAt start m) (frame : InFrame s.gui m) :
    ∃ after, drawStep font event s m = some after ∧ SameOutside start.toNat frameBytes m after ∧
      InFrame (step (rows font) inv event s).gui after := by
  rw [step_gui (rows font) inv event s quiet]
  unfold drawStep
  by_cases pressed : keyRead event s ≠ 0#8
  · rw [if_pos pressed, if_pos pressed]
    exact redraw_inFrame font _ (Machine.legible_key (rows font) _ s.gui legible) m start mapped
      (Machine.key_shows (rows font) _ s.gui)
  · rw [if_neg pressed, if_neg pressed]
    exact ⟨m, rfl, SameOutside.refl _ _ m, frame⟩

/-- Along a run the memory keeps up with the frame, and changes nowhere else. -/
theorem drawRun_inFrame (font : Glyphs) (inv : ComputeInventory) (events : List Event) (s : System) (m : Mem)
    (start : Addr) (quiet : Quiet s) (legible : Machine.Legible s.gui) (mapped : MappedAt start m)
    (frame : InFrame s.gui m) :
    ∃ after, drawRun font inv events s m = some after ∧ SameOutside start.toNat frameBytes m after ∧
      InFrame (run (step (rows font) inv) events s).gui after := by
  induction events generalizing s m with
  | nil => exact ⟨m, rfl, SameOutside.refl _ _ m, frame⟩
  | cons event events ih =>
    obtain ⟨next, drawn, outside, shown⟩ := drawStep_inFrame font inv event s m start quiet legible mapped frame
    obtain ⟨after, rest, later, final⟩ := ih (step (rows font) inv event s) next
      (step_quiet (rows font) inv event s quiet) (step_legible (rows font) inv event s quiet legible)
      (mapped.kept outside) shown
    exact ⟨after, by rw [drawRun, drawn, Option.bind_some, rest], outside.trans later, final⟩

theorem Started.booted_gui {hw : Hardware} {font : Font} {start : Addr} {next : Driver → Option Driver}
    {before after : Statics} (started : Started hw font start before after) (loaded : Loaded next before) :
    data (booted font after.terminal (frameOf after.sched.mem)).gui = after.input ∧
      InFrame (booted font after.terminal (frameOf after.sched.mem)).gui after.sched.mem := by
  have unchanged := Machine.redraw_again font (InputLine.initial (frameOf after.sched.mem)) started.frame
  have gui : (booted font after.terminal (frameOf after.sched.mem)).gui = InputLine.initial (frameOf after.sched.mem) :=
    congrArg InputLine.initial unchanged
  rw [gui, Statics.input, started.input.1, started.input.2, loaded.inputBuf, loaded.inputLen]
  exact ⟨rfl, fun _ _ => rfl⟩

end LifeOS.Kernel
