import LifeOS.Library.Ring
import LifeOS.Library.Runs
import LifeOS.Console.Frame

/-!
The input ring between `console_poll_input` and `console_getc`: what is accepted is
returned, in order and once.
-/

namespace LifeOS.Console
open LifeOS.Drivers LifeOS.Library.Ring LifeOS.Library.Runs LifeOS.Library.Strings

def waitingCount (c : ConsoleState) : Nat := (c.inputHead.val + 128 - c.inputTail.val) % 128

def waiting (c : ConsoleState) : List Byte := contents c.inputBuf c.inputTail.val (waitingCount c)

theorem waiting_length (c : ConsoleState) : (waiting c).length = waitingCount c :=
  contents_length _ _ _

def Room (c : ConsoleState) : Prop := Fin.ofNat 128 (c.inputHead.val + 1) ≠ c.inputTail

instance (c : ConsoleState) : Decidable (Room c) := inferInstanceAs (Decidable (_ ≠ _))

theorem room_iff (c : ConsoleState) : Room c ↔ (waiting c).length ≠ 127 := by
  have head := c.inputHead.isLt
  have tail := c.inputTail.isLt
  have next : Fin.ofNat 128 (c.inputHead.val + 1) = c.inputTail ↔
      (c.inputHead.val + 1) % 128 = c.inputTail.val := Fin.ext_iff
  rw [waiting_length, Room, ne_eq, next]
  unfold waitingCount
  omega

theorem waiting_enqueue (ch : Byte) (c : ConsoleState) (room : Room c) :
    waiting (enqueue ch c) = waiting c ++ [ch] := by
  have head := c.inputHead.isLt
  have tail := c.inputTail.isLt
  have few : waitingCount c + 1 < 128 := by
    have bound := (room_iff c).mp room
    rw [waiting_length] at bound
    unfold waitingCount at bound ⊢
    omega
  have place : slot 128 c.inputTail.val (waitingCount c) = c.inputHead := by
    apply Fin.ext
    rw [slot_val]
    unfold waitingCount
    omega
  have stored : enqueue ch c = { c with inputBuf := Function.update c.inputBuf c.inputHead ch,
                                        inputHead := Fin.ofNat 128 (c.inputHead.val + 1) } :=
    if_pos room
  have count : waitingCount (enqueue ch c) = waitingCount c + 1 := by
    rw [stored]
    change ((c.inputHead.val + 1) % 128 + 128 - c.inputTail.val) % 128 = _
    unfold waitingCount at few ⊢
    omega
  have pushed := contents_push c.inputBuf c.inputTail.val (waitingCount c) ch (by omega)
  rw [place] at pushed
  rw [waiting, count, stored]
  exact pushed

theorem waiting_full (ch : Byte) (c : ConsoleState) (full : ¬Room c) : enqueue ch c = c :=
  if_neg full

theorem getc_empty (c : ConsoleState) (empty : waiting c = []) : consoleGetc c = (0#8, c) := by
  have none_waiting := waiting_length c
  rw [empty, List.length_nil] at none_waiting
  have head := c.inputHead.isLt
  have tail := c.inputTail.isLt
  have same : c.inputHead = c.inputTail := by
    apply Fin.ext
    unfold waitingCount at none_waiting
    omega
  exact if_pos same

theorem getc_cons (c : ConsoleState) (ch : Byte) (rest : List Byte) (next : waiting c = ch :: rest) :
    (consoleGetc c).1 = ch ∧ waiting (consoleGetc c).2 = rest := by
  have head := c.inputHead.isLt
  have tail := c.inputTail.isLt
  have some_waiting := waiting_length c
  rw [next, List.length_cons] at some_waiting
  have apart : c.inputHead ≠ c.inputTail := by
    intro same
    unfold waitingCount at some_waiting
    rw [same] at some_waiting
    omega
  have taken : consoleGetc c =
      (c.inputBuf c.inputTail, { c with inputTail := Fin.ofNat 128 (c.inputTail.val + 1) }) :=
    if_neg apart
  have split := contents_cons c.inputBuf c.inputTail.val rest.length
  have first : slot 128 c.inputTail.val 0 = c.inputTail := by
    apply Fin.ext
    rw [slot_val]
    omega
  rw [waiting, ← some_waiting, split, first] at next
  obtain ⟨value, others⟩ := List.cons.inj next
  have count : waitingCount { c with inputTail := Fin.ofNat 128 (c.inputTail.val + 1) } = rest.length := by
    change (c.inputHead.val + 128 - (c.inputTail.val + 1) % 128) % 128 = rest.length
    unfold waitingCount at some_waiting
    omega
  rw [taken]
  refine ⟨value, ?_⟩
  rw [waiting, count]
  exact (contents_mod c.inputBuf (c.inputTail.val + 1) rest.length).trans others

def acceptedKey (key : Byte) (t : Terminal) : List Byte :=
  match pollRules key t with
  | (_, none) => []
  | (after, some ch) => if Room after.con then [ch] else []

theorem waiting_congr (c d : ConsoleState) (ctrl : Bool)
    (same : inputOf d = { inputOf c with ctrl := ctrl }) : waiting d = waiting c := by
  have buf : d.inputBuf = c.inputBuf := congrArg InputState.buf same
  have head : d.inputHead = c.inputHead := congrArg InputState.head same
  have tail : d.inputTail = c.inputTail := congrArg InputState.tail same
  unfold waiting waitingCount
  rw [buf, head, tail]

theorem waiting_poll (key : Byte) (t : Terminal) :
    waiting (consolePollInput key t).con = waiting t.con ++ acceptedKey key t := by
  obtain ⟨ctrl, ring⟩ := pollRules_ring key t
  have same := waiting_congr t.con _ ctrl ring
  unfold consolePollInput acceptedKey
  generalize pollRules key t = result at same ⊢
  obtain ⟨after, queued⟩ := result
  cases queued with
  | none => exact same.trans (List.append_nil _).symm
  | some ch =>
    dsimp only at same ⊢
    rw [← same]
    by_cases room : Room after.con
    · rw [if_pos room]
      exact waiting_enqueue ch after.con room
    · rw [if_neg room, List.append_nil]
      exact congrArg waiting (waiting_full ch after.con room)

theorem pollRules_queued (key : Byte) (t : Terminal) :
    (pollRules key t).2 = if Queued key t.con then some (if key = 0x7F#8 then backspace else key) else none := by
  have polled := pollRules_polled key t
  generalize pollRules key t = result at polled ⊢
  cases polled with
  | nothing none_read =>
    rw [if_neg]
    exact fun queued => queued.1 none_read
  | scrolled scrolls =>
    rw [if_neg]
    exact fun queued => queued.2.1 scrolls
  | control ctrl =>
    rw [if_neg]
    exact fun queued => queued.2.2 (by simp [ctrl])
  | moved move =>
    rw [if_neg]
    refine fun queued => queued.2.2 ?_
    rcases move with rfl | rfl <;> simp
  | resized resize =>
    rw [if_neg]
    refine fun queued => queued.2.2 ?_
    rcases resize with rfl | rfl | rfl | rfl <;> simp
  | queued queued =>
    rw [if_pos queued]
    by_cases rubout : key = 0x7F#8
    · rw [if_pos (Or.inr rubout), if_pos rubout]
    · rw [if_neg rubout]
      by_cases erase : key = backspace
      · rw [if_pos (Or.inl erase), erase]
      · rw [if_neg (by simp [erase, rubout])]

theorem pollRules_kept (key : Byte) (t : Terminal) (queued : Queued key t.con) : (pollRules key t).1 = t := by
  have joins := pollRules_queued key t
  have polled := pollRules_polled key t
  rw [if_pos queued] at joins
  generalize pollRules key t = result at polled joins
  cases polled with
  | nothing | control | scrolled | moved | resized => cases joins
  | queued => rfl

theorem acceptedKey_eq (key : Byte) (t : Terminal) :
    acceptedKey key t = if Queued key t.con ∧ (waiting t.con).length ≠ 127 then
      [if key = 0x7F#8 then backspace else key] else [] := by
  have joins := pollRules_queued key t
  unfold acceptedKey
  by_cases queued : Queued key t.con
  · have rules : pollRules key t = (t, some (if key = 0x7F#8 then backspace else key)) :=
      Prod.ext (pollRules_kept key t queued) (joins.trans (if_pos queued))
    rw [rules]
    dsimp only
    simp only [queued, true_and, room_iff]
  · rw [if_neg queued] at joins
    rw [if_neg (fun both => queued both.1)]
    generalize pollRules key t = result at joins ⊢
    obtain ⟨after, ch⟩ := result
    subst joins
    rfl

/-- A call of `console_poll_input`, for which the driver returned the key, or of
`console_getc`. -/
inductive InputEvent where
  | poll (key : Byte)
  | getc

/-- The terminal with the characters accepted so far and the ones returned so far. -/
structure Session where
  terminal : Terminal
  accepted : List Byte
  returned : List Byte

namespace Session

def step : InputEvent → Session → Session
  | .poll key, s =>
      { s with terminal := consolePollInput key s.terminal,
               accepted := s.accepted ++ acceptedKey key s.terminal }
  | .getc, s =>
      let (ch, con) := consoleGetc s.terminal.con
      { s with terminal := { s.terminal with con := con },
               returned := if ch ≠ 0#8 then s.returned ++ [ch] else s.returned }

def start (t : Terminal) : Session :=
  ⟨t.onConsole (fun c => { c with inputHead := 0, inputTail := 0 }), [], []⟩

/-- Nothing is lost or duplicated, and no accepted character is zero. -/
def Conserved (s : Session) : Prop :=
  s.returned ++ waiting s.terminal.con = s.accepted ∧ 0#8 ∉ s.accepted

theorem acceptedKey_ne_zero (key : Byte) (t : Terminal) : 0#8 ∉ acceptedKey key t := by
  rw [acceptedKey_eq]
  split
  case isTrue joins =>
    intro member
    have zero := List.mem_singleton.mp member
    by_cases rubout : key = 0x7F#8
    · rw [if_pos rubout] at zero
      exact absurd zero (by decide)
    · rw [if_neg rubout] at zero
      exact joins.1.1 zero.symm
  case isFalse => exact List.not_mem_nil

theorem step_conserved (event : InputEvent) (s : Session) (kept : s.Conserved) :
    (s.step event).Conserved := by
  obtain ⟨order, nonzero⟩ := kept
  cases event with
  | poll key =>
    refine ⟨?_, ?_⟩
    · change s.returned ++ waiting (consolePollInput key s.terminal).con = s.accepted ++ _
      rw [waiting_poll, ← List.append_assoc, order]
    · intro member
      rcases List.mem_append.mp member with old | new
      · exact nonzero old
      · exact acceptedKey_ne_zero key s.terminal new
  | getc =>
    refine ⟨?_, nonzero⟩
    change (if (consoleGetc s.terminal.con).1 ≠ 0#8 then s.returned ++ [(consoleGetc s.terminal.con).1]
      else s.returned) ++ waiting (consoleGetc s.terminal.con).2 = s.accepted
    cases next : waiting s.terminal.con with
    | nil =>
      rw [getc_empty s.terminal.con next, if_neg (not_not.mpr rfl)]
      exact order
    | cons ch rest =>
      obtain ⟨value, others⟩ := getc_cons s.terminal.con ch rest next
      have delivered : ch ≠ 0#8 := by
        intro zero
        apply nonzero
        rw [← order, next, zero]
        simp
      rw [value, others, if_pos delivered, ← order, next, List.append_assoc, List.singleton_append]

end Session

/-- The ring in a reachable state. -/
structure Fifo (s : Session) : Prop where
  order : s.returned ++ waiting s.terminal.con = s.accepted
  accepts : ∀ key, Queued key s.terminal.con →
    (pollRules key s.terminal).2 = some (if key = 0x7F#8 then backspace else key) ∧
      acceptedKey key s.terminal =
        if (waiting s.terminal.con).length = 127 then [] else [if key = 0x7F#8 then backspace else key]
  refuses : ∀ key, ¬Queued key s.terminal.con →
    (pollRules key s.terminal).2 = none ∧ acceptedKey key s.terminal = []
  empty : (consoleGetc s.terminal.con).1 = 0#8 ↔ waiting s.terminal.con = []
  bounds : s.terminal.con.inputHead.val < 128 ∧ s.terminal.con.inputTail.val < 128

theorem Session.Conserved.fifo {s : Session} (kept : s.Conserved) : Fifo s := by
  obtain ⟨order, nonzero⟩ := kept
  refine ⟨order, ?_, ?_, ?_, s.terminal.con.inputHead.isLt, s.terminal.con.inputTail.isLt⟩
  · intro key queued
    refine ⟨(pollRules_queued key s.terminal).trans (if_pos queued), ?_⟩
    rw [acceptedKey_eq]
    by_cases full : (waiting s.terminal.con).length = 127
    · rw [if_neg (fun both => both.2 full), if_pos full]
    · rw [if_pos ⟨queued, full⟩, if_neg full]
  · intro key refused
    refine ⟨(pollRules_queued key s.terminal).trans (if_neg refused), ?_⟩
    rw [acceptedKey_eq, if_neg (fun both => refused both.1)]
  · constructor
    · intro zero
      cases next : waiting s.terminal.con with
      | nil => rfl
      | cons ch rest =>
        exfalso
        apply nonzero
        rw [← order, next, ← (getc_cons s.terminal.con ch rest next).1, zero]
        simp
    · intro empty
      rw [getc_empty s.terminal.con empty]

/-- However polls and reads alternate, the ring hands out what it accepted, in order. -/
theorem input_fifo (t : Terminal) (events : List InputEvent) :
    Fifo (run Session.step events (Session.start t)) := by
  have empty : (waiting (Session.start t).terminal.con).length = (0 + 128 - 0) % 128 :=
    waiting_length _
  have start : (Session.start t).Conserved := ⟨List.length_eq_zero_iff.mp empty, List.not_mem_nil⟩
  exact (run_invariant Session.step Session.Conserved Session.step_conserved events _ start).fifo

end LifeOS.Console
