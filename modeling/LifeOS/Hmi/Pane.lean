import LifeOS.Terminal

/-!
The text panes of `kernel/hmi/pane.c`. Widths and heights are computed by the same
statements, so one definition serves both directions.
-/

namespace LifeOS.Hmi
open LifeOS.Console LifeOS.Library.Loops LifeOS.Library.Strings

def lineVert : Byte := 0xB3#8
def lineHorz : Byte := 0xC4#8
def lineCross : Byte := 0xC5#8

/-- `pane_resize_width` and `pane_resize_height` before their redraw. -/
def resize (delta : Int) (a : Axis) : Axis :=
  if more : delta > 0 ∧ a.grid < 4 then
    ⟨a.grid + 1, a.active, by omega, by have := a.inside; omega⟩
  else if less : delta < 0 ∧ a.grid > 1 then
    if out : a.active ≥ a.grid - 1 then ⟨a.grid - 1, a.grid - 1 - 1, by have := a.few; omega, by omega⟩
    else ⟨a.grid - 1, a.active, by have := a.few; omega, by omega⟩
  else a

/-- `pane_move_left` and `pane_move_up` before their redraw. -/
def moveBack (a : Axis) : Axis :=
  if a.active > 0 then { a with active := a.active - 1, inside := by have := a.inside; omega } else a

/-- `pane_move_right` and `pane_move_down` before their redraw. -/
def moveOn (a : Axis) : Axis :=
  if next : a.active + 1 < a.grid then { a with active := a.active + 1, inside := next } else a

/-- The index `i` of a loop over the panes in an array of `MAX_GRID` entries. -/
def entry (a : Axis) (i : Fin a.grid) : Fin 4 := ⟨i.val, Nat.lt_of_lt_of_le i.isLt a.few⟩

/-- One half of `compute_layout`; `sizes` is the array as the function finds it. -/
def layoutAxis (total : BitVec 32) (a : Axis) (sizes : Fin 4 → BitVec 32) : Fin 4 → BitVec 32 :=
  let (remaining, sizes) := forFin a.grid (fun i s =>
    if i.val = a.active ∧ a.grid > 1 then
      let sizes := Function.update s.2 (entry a i) (total / 2#32)
      (s.1 - sizes (entry a i), sizes)
    else s) (total, sizes)
  let normal := if a.grid > 1 then remaining / BitVec.ofNat 32 (a.grid - 1) else total
  let sizes := forFin a.grid (fun i sizes =>
    if i.val ≠ a.active then Function.update sizes (entry a i) normal else sizes) sizes
  let sum := forFin a.grid (fun i sum => sum + sizes (entry a i)) 0#32
  let last : Fin 4 := ⟨a.grid - 1, by have := a.few; omega⟩
  Function.update sizes last (sizes last + (total - sum))

theorem entry_injective (a : Axis) : Function.Injective (entry a) :=
  fun _ _ same => Fin.ext (Fin.mk.inj same)

def activeShare (total : BitVec 32) (a : Axis) (i : Fin a.grid) (s : BitVec 32 × (Fin 4 → BitVec 32)) :
    BitVec 32 × (Fin 4 → BitVec 32) :=
  if i.val = a.active ∧ a.grid > 1 then
    let sizes := Function.update s.2 (entry a i) (total / 2#32)
    (s.1 - sizes (entry a i), sizes)
  else s

def normalShare (normal : BitVec 32) (a : Axis) (i : Fin a.grid) (sizes : Fin 4 → BitVec 32) :
    Fin 4 → BitVec 32 :=
  if i.val ≠ a.active then Function.update sizes (entry a i) normal else sizes

theorem activeShare_independent (total : BitVec 32) (a : Axis) (several : a.grid > 1)
    (first second : Fin 4 → BitVec 32) :
    (forFin a.grid (activeShare total a) (total, first)).1 =
        (forFin a.grid (activeShare total a) (total, second)).1 ∧
      (forFin a.grid (activeShare total a) (total, first)).2 (entry a ⟨a.active, a.inside⟩) =
        (forFin a.grid (activeShare total a) (total, second)).2 (entry a ⟨a.active, a.inside⟩) := by
  have shared := forFin_related a.grid (activeShare total a) (activeShare total a)
    (fun k s t => s.1 = t.1 ∧ (a.active < k →
      s.2 (entry a ⟨a.active, a.inside⟩) = t.2 (entry a ⟨a.active, a.inside⟩)))
    (total, first) (total, second) ⟨rfl, fun before => absurd before (Nat.not_lt_zero _)⟩
    (by
      intro i s t ⟨remaining, sizes⟩
      unfold activeShare
      by_cases active : i.val = a.active
      · have here : i = ⟨a.active, a.inside⟩ := Fin.ext active
        simp [here, several, remaining]
      · rw [if_neg (fun both => active both.1), if_neg (fun both => active both.1)]
        exact ⟨remaining, fun before => sizes (by omega)⟩)
  exact ⟨shared.1, shared.2 a.inside⟩

theorem normalShare_independent (normal : BitVec 32) (a : Axis) (first second : Fin 4 → BitVec 32)
    (active : first (entry a ⟨a.active, a.inside⟩) = second (entry a ⟨a.active, a.inside⟩)) (i : Fin a.grid) :
    forFin a.grid (normalShare normal a) first (entry a i) =
      forFin a.grid (normalShare normal a) second (entry a i) := by
  have shared := forFin_related a.grid (normalShare normal a) (normalShare normal a)
    (fun k s t => ∀ j : Fin a.grid, j.val < k ∨ j.val = a.active → s (entry a j) = t (entry a j))
    first second
    (by
      intro j either
      have here : j = ⟨a.active, a.inside⟩ := Fin.ext (either.resolve_left (Nat.not_lt_zero _))
      rw [here]
      exact active)
    (by
      intro k s t held j either
      unfold normalShare
      by_cases kept : k.val = a.active
      · rw [if_neg (not_not.mpr kept), if_neg (not_not.mpr kept)]
        exact held j (by omega)
      · rw [if_pos kept, if_pos kept]
        by_cases here : j = k
        · rw [here, Function.update_self, Function.update_self]
        · have apart : entry a j ≠ entry a k := fun same => here (entry_injective a same)
          have other : j.val ≠ k.val := fun same => here (Fin.ext same)
          rw [Function.update_of_ne apart, Function.update_of_ne apart]
          exact held j (by omega))
  exact shared i (Or.inl i.isLt)

theorem corrected_independent (total : BitVec 32) (a : Axis) (first second : Fin 4 → BitVec 32)
    (same : ∀ i, first (entry a i) = second (entry a i)) (last : Fin a.grid) (i : Fin a.grid) :
    Function.update first (entry a last) (first (entry a last) +
        (total - forFin a.grid (fun i sum => sum + first (entry a i)) 0#32)) (entry a i) =
      Function.update second (entry a last) (second (entry a last) +
        (total - forFin a.grid (fun i sum => sum + second (entry a i)) 0#32)) (entry a i) := by
  simp only [same]
  by_cases here : i = last
  · rw [here, Function.update_self, Function.update_self]
  · have apart : entry a i ≠ entry a last := fun equal => here (entry_injective a equal)
    rw [Function.update_of_ne apart, Function.update_of_ne apart, same]

theorem layoutAxis_independent (total : BitVec 32) (a : Axis) (first second : Fin 4 → BitVec 32)
    (i : Fin a.grid) : layoutAxis total a first (entry a i) = layoutAxis total a second (entry a i) := by
  by_cases several : a.grid > 1
  · obtain ⟨remaining, active⟩ := activeShare_independent total a several first second
    have sizes := normalShare_independent
      ((forFin a.grid (activeShare total a) (total, first)).1 / BitVec.ofNat 32 (a.grid - 1)) a _ _ active
    have layout (s : Fin 4 → BitVec 32) : layoutAxis total a s (entry a i) =
        let shares := forFin a.grid (activeShare total a) (total, s)
        let sizes := forFin a.grid (normalShare (shares.1 / BitVec.ofNat 32 (a.grid - 1)) a) shares.2
        Function.update sizes (entry a ⟨a.grid - 1, by omega⟩) (sizes (entry a ⟨a.grid - 1, by omega⟩) +
          (total - forFin a.grid (fun i sum => sum + sizes (entry a i)) 0#32)) (entry a i) := by
      unfold layoutAxis
      dsimp only
      rw [if_pos several]
      rfl
    rw [layout first, layout second]
    dsimp only
    rw [← remaining]
    exact corrected_independent total a _ _ sizes _ i
  · obtain ⟨grid, active, few, inside⟩ := a
    have one : grid = 1 := by
      change ¬grid > 1 at several
      omega
    subst one
    have only : i = 0 := Subsingleton.elim _ _
    have first_active : active = 0 := by omega
    subst only first_active
    simp [layoutAxis, forFin_succ, entry]

def positions (a : Axis) (sizes : Fin 4 → BitVec 32) : Fin 4 → BitVec 32 :=
  forFin (a.grid - 1) (fun i pos =>
    have bound : i.val + 1 < 4 := by have := a.few; omega
    Function.update pos ⟨i.val + 1, bound⟩ (pos ⟨i.val, by omega⟩ + sizes ⟨i.val, by omega⟩))
    (fun _ => 0#32)

def boundary (a : Axis) (pos : Fin 4 → BitVec 32) (i : Fin (a.grid - 1)) : BitVec 32 :=
  pos ⟨i.val + 1, by have := a.few; omega⟩

/-- The lines of `pane_draw_internal`. The arrays are locals: the only entry that is read
before it is written is `sizes[0]` of a single pane, see `layoutAxis_independent`. -/
def drawLines (p : Panes) (c : ConsoleState) : ConsoleState :=
  let xpos := positions p.width (layoutAxis 80#32 p.width (fun _ => 0#32))
  let ypos := positions p.height (layoutAxis 25#32 p.height (fun _ => 0#32))
  let c := forFin (p.width.grid - 1) (fun i c =>
    forFin 25 (fun y c =>
      consolePutc lineVert
        (consoleSetCursor ((boundary p.width xpos i).setWidth 8) (BitVec.ofNat 8 y.val) c)) c) c
  let c := forFin (p.height.grid - 1) (fun j c =>
    forFin 80 (fun _ c => consolePutc lineHorz c)
      (consoleSetCursor 0#8 ((boundary p.height ypos j).setWidth 8) c)) c
  let c := forFin (p.width.grid - 1) (fun i c =>
    forFin (p.height.grid - 1) (fun j c =>
      consolePutc lineCross
        (consoleSetCursor ((boundary p.width xpos i).setWidth 8)
          ((boundary p.height ypos j).setWidth 8) c)) c) c
  consoleSetCursor ((xpos (entry p.width ⟨p.width.active, p.width.inside⟩) + 1#32).setWidth 8)
    ((ypos (entry p.height ⟨p.height.active, p.height.inside⟩) + 1#32).setWidth 8) c

def paneDrawInternal (showPrompt : Bool) (t : Terminal) : Terminal :=
  let t := t.onConsole (fun c => drawLines t.panes (consoleClear c))
  if showPrompt then shellShowPrompt t else t

def paneDraw (t : Terminal) : Terminal := paneDrawInternal true t

theorem paneDraw_eq (t : Terminal) :
    paneDraw t = shellShowPrompt (t.onConsole (fun c => drawLines t.panes (consoleClear c))) := by
  unfold paneDraw paneDrawInternal
  dsimp only
  rw [if_pos rfl]

def paneDrawNoPrompt (t : Terminal) : Terminal := paneDrawInternal false t

theorem one_few : 1 ≤ 4 := by decide

def single : Axis := ⟨1, 0, one_few, Nat.zero_lt_one⟩

def paneInit (t : Terminal) : Terminal :=
  paneDrawNoPrompt { t with panes := { t.panes with width := single, height := single } }

def paneGuiStart (t : Terminal) : Terminal :=
  if t.panes.guiActive then t
  else paneDraw { t with panes := ⟨⟨2, 0, by decide, by decide⟩, ⟨2, 1, by decide, by decide⟩, true⟩ }

def paneGuiStop (t : Terminal) : Terminal :=
  if t.panes.guiActive then paneDraw { t with panes := ⟨single, single, false⟩ } else t

def paneResizeWidth (delta : Int) (t : Terminal) : Terminal :=
  paneDraw { t with panes := { t.panes with width := resize delta t.panes.width } }

def paneResizeHeight (delta : Int) (t : Terminal) : Terminal :=
  paneDraw { t with panes := { t.panes with height := resize delta t.panes.height } }

def paneMoveLeft (t : Terminal) : Terminal :=
  paneDraw { t with panes := { t.panes with width := moveBack t.panes.width } }

def paneMoveRight (t : Terminal) : Terminal :=
  paneDraw { t with panes := { t.panes with width := moveOn t.panes.width } }

def paneMoveUp (t : Terminal) : Terminal :=
  paneDraw { t with panes := { t.panes with height := moveBack t.panes.height } }

def paneMoveDown (t : Terminal) : Terminal :=
  paneDraw { t with panes := { t.panes with height := moveOn t.panes.height } }

end LifeOS.Hmi
