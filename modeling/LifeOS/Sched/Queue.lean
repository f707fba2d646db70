import Mathlib.Data.List.GetD
import LifeOS.Library.Runs
import LifeOS.Sched.Tasks

/-!
Runs of the scheduler: tasks are created, added to the queue, started and yield in
any order. The invariant ties the links in memory to the list of added tasks.
-/

namespace LifeOS.Sched
open LifeOS.Library.Memory LifeOS.Library.Runs LifeOS.Mm

/-- What the running code asks of the scheduler; `saved` is the outgoing stack pointer. -/
inductive Event where
  | create (entry : Addr)
  | add (t : Addr)
  | start (saved : Addr)
  | yield (saved : Addr)

/-- The scheduler with the tasks made so far, those added in order, and whether
`sched_start` was called. -/
structure World where
  sched : Scheduler
  created : List Addr
  queue : List Addr
  started : Bool

def initial (s : Scheduler) : World := ⟨schedInit s, [], [], false⟩

def step (boot : Addr) : Event → World → World
  | .create entry, w =>
      { w with sched := (schedCreateTask entry w.sched).2,
               created := w.created ++ [(schedCreateTask entry w.sched).1] }
  | .add t, w => { w with sched := schedAddTask t w.sched, queue := w.queue ++ [t] }
  | .start saved, w => { w with sched := schedStart boot saved w.sched, started := true }
  | .yield saved, w => { w with sched := schedYield saved w.sched }

/-- Pages do not wrap, only fresh tasks are added, the start comes once and with a task
queued, and only a started task yields. -/
def Legal : Event → World → Prop
  | .create _, w => w.sched.nextFreePage.toNat + 8192 < 2 ^ 64
  | .add t, w => t ∈ w.created ∧ t ∉ w.queue
  | .start _, w => w.started = false ∧ w.queue ≠ []
  | .yield _, w => w.started = true

instance (event : Event) (w : World) : Decidable (Legal event w) :=
  match event with
  | .create _ => inferInstanceAs (Decidable (_ < _))
  | .add _ => inferInstanceAs (Decidable (_ ∧ _))
  | .start _ => inferInstanceAs (Decidable (_ ∧ _))
  | .yield _ => inferInstanceAs (Decidable (_ = _))

/-- The bootstrap task lies in the kernel image, below every page. -/
def Placed (boot : Addr) (s : Scheduler) : Prop :=
  0 < boot.toNat ∧ boot.toNat + 16 ≤ s.nextFreePage.toNat

theorem placed_mmInit (boot imageEnd : Addr) (s : Scheduler) (positive : 0 < boot.toNat)
    (inside : boot.toNat + 16 ≤ imageEnd.toNat) (room : imageEnd.toNat + 4095 < 2 ^ 64) :
    Placed boot { s with nextFreePage := mmInit imageEnd } := by
  have start := mmInit_toNat imageEnd room
  refine ⟨positive, ?_⟩
  change boot.toNat + 16 ≤ (mmInit imageEnd).toNat
  omega

def following (queue : List Addr) (t : Addr) : Addr := queue.getD (queue.idxOf t + 1) 0#64

theorem following_absent (queue : List Addr) (t : Addr) (absent : t ∉ queue) :
    following queue t = 0#64 := by
  unfold following
  rw [List.idxOf_eq_length absent, List.getD_eq_default]
  omega

theorem following_append (queue : List Addr) (t u : Addr) (distinct : queue.Nodup)
    (away : u ≠ queue.getLastD 0#64) : following (queue ++ [t]) u = following queue u := by
  by_cases member : u ∈ queue
  · obtain ⟨i, inside, place⟩ := List.getElem_of_mem member
    have position : queue.idxOf u = i := by rw [← place, distinct.idxOf_getElem i inside]
    have later : i + 1 < queue.length := by
      by_contra final
      apply away
      have last : queue.length - 1 = i := by omega
      rw [List.getLastD_eq_getLast?, List.getLast?_eq_getElem?, last, List.getElem?_eq_getElem inside,
        place, Option.getD_some]
    unfold following
    rw [List.idxOf_append_of_mem member, position, List.getD_append queue [t] 0#64 (i + 1) later]
  · rw [following_absent queue u member]
    unfold following
    rw [List.idxOf_append_of_notMem member, List.getD_eq_default]
    simp only [List.length_append, List.length_singleton]
    omega

theorem following_last (queue : List Addr) (t : Addr) (distinct : queue.Nodup) (some_task : queue ≠ []) :
    following (queue ++ [t]) (queue.getLastD 0#64) = t := by
  have positive := List.length_pos_iff.mpr some_task
  have inside : queue.length - 1 < queue.length := by omega
  have last : queue.getLastD 0#64 = queue[queue.length - 1] := by
    rw [List.getLastD_eq_getLast?, List.getLast?_eq_getElem?, List.getElem?_eq_getElem inside,
      Option.getD_some]
  unfold following
  rw [last, List.idxOf_append_of_mem (List.getElem_mem inside), distinct.idxOf_getElem _ inside,
    show queue.length - 1 + 1 = queue.length by omega]
  simp

/-- The invariant of a run: tasks lie apart above the bootstrap task and below the next
page, and the pointers in memory and in the statics spell the queue. -/
structure Linked (boot : Addr) (w : World) : Prop where
  bootPlaced : Placed boot w.sched
  high : ∀ t ∈ w.created, boot.toNat + 16 ≤ t.toNat
  low : ∀ t ∈ w.created, t.toNat + 8192 ≤ w.sched.nextFreePage.toNat
  separate : w.created.Pairwise (fun t u => t.toNat + 8192 ≤ u.toNat)
  known : ∀ t ∈ w.queue, t ∈ w.created
  distinct : w.queue.Nodup
  head : w.sched.taskListHead = w.queue.headD 0#64
  tail : w.sched.taskListTail = w.queue.getLastD 0#64
  links : ∀ t ∈ w.created, taskNext w.sched.mem t = following w.queue t
  running : w.started = true → w.sched.currentTask ∈ w.queue

theorem initial_linked (boot : Addr) (s : Scheduler) (placed : Placed boot s) :
    Linked boot (initial s) :=
  ⟨placed, by simp [initial], by simp [initial], List.Pairwise.nil, by simp [initial], List.nodup_nil,
    rfl, rfl, by simp [initial], by simp [initial]⟩

variable {boot : Addr} {w : World}

theorem Linked.nonzero (linked : Linked boot w) (t : Addr) (member : t ∈ w.created) : t ≠ 0#64 := by
  intro zero
  have high := linked.high t member
  rw [zero] at high
  simp at high

theorem Linked.fits (linked : Linked boot w) (t : Addr) (member : t ∈ w.created) :
    t.toNat + 8192 < 2 ^ 64 := by
  have low := linked.low t member
  have bound := w.sched.nextFreePage.isLt
  omega

def SameOrApart (t u : Addr) : Prop :=
  t = u ∨ t.toNat + 8192 ≤ u.toNat ∨ u.toNat + 8192 ≤ t.toNat

theorem Linked.apart (linked : Linked boot w) (t u : Addr) (first : t ∈ w.created)
    (second : u ∈ w.created) : SameOrApart t u := by
  have above : w.created.Pairwise SameOrApart :=
    linked.separate.imp (fun order => Or.inr (Or.inl order))
  have below : w.created.Pairwise (flip SameOrApart) :=
    linked.separate.imp (fun order => Or.inr (Or.inr order))
  have self (v : Addr) (_ : v ∈ w.created) : SameOrApart v v := Or.inl rfl
  exact List.Pairwise.forall_of_forall_of_flip self above below first second

theorem Linked.frame (linked : Linked boot w) (mem : Mem)
    (same : ∀ t ∈ w.created, taskNext mem t = taskNext w.sched.mem t) :
    Linked boot { w with sched := { w.sched with mem := mem } } :=
  { linked with links := fun t member => (same t member).trans (linked.links t member) }

theorem Linked.create (linked : Linked boot w) (entry : Addr)
    (legal : Legal (.create entry) w) : Linked boot (step boot (.create entry) w) := by
  have room : w.sched.nextFreePage.toNat + 8192 < 2 ^ 64 := legal
  have pages := createTask_pages entry w.sched room
  have address := createTask_address entry w.sched
  have unseen : w.sched.nextFreePage ∉ w.created := by
    intro member
    have low := linked.low _ member
    omega
  have entries (t : Addr) (member : t ∈ w.created ++ [(schedCreateTask entry w.sched).1]) :
      t ∈ w.created ∨ t = w.sched.nextFreePage := by
    simpa [address] using member
  refine ⟨⟨linked.bootPlaced.1, ?_⟩, ?_, ?_, ?_, ?_, linked.distinct, linked.head, linked.tail, ?_,
    linked.running⟩
  · change boot.toNat + 16 ≤ (schedCreateTask entry w.sched).2.nextFreePage.toNat
    have placed := linked.bootPlaced.2
    omega
  · intro t member
    rcases entries t member with old | new
    · exact linked.high t old
    · rw [new]
      exact linked.bootPlaced.2
  · intro t member
    change t.toNat + 8192 ≤ (schedCreateTask entry w.sched).2.nextFreePage.toNat
    rcases entries t member with old | new
    · have low := linked.low t old
      omega
    · rw [new]
      omega
  · change (w.created ++ [(schedCreateTask entry w.sched).1]).Pairwise _
    rw [List.pairwise_append]
    refine ⟨linked.separate, List.pairwise_singleton _ _, ?_⟩
    intro t member u single
    rw [List.mem_singleton.mp single, address]
    exact linked.low t member
  · intro t member
    exact List.mem_append_left _ (linked.known t member)
  · intro t member
    change taskNext (schedCreateTask entry w.sched).2.mem t = following w.queue t
    rcases entries t member with old | new
    · have low := linked.low t old
      have offset : (t + 8#64).toNat = t.toNat + 8 := by bv_omega
      rw [← linked.links t old]
      exact (createTask_outside entry w.sched room).read64_eq _ (by omega) (by omega)
    · rw [new, createTask_next, following_absent]
      exact fun member => unseen (linked.known _ member)

theorem Linked.head_eq_zero_iff (linked : Linked boot w) :
    w.sched.taskListHead = 0#64 ↔ w.queue = [] := by
  rw [linked.head]
  cases shape : w.queue with
  | nil => simp
  | cons t rest =>
    have member : t ∈ w.created := linked.known t (by simp [shape])
    simp [linked.nonzero t member]

theorem Linked.tail_mem (linked : Linked boot w) (some_task : w.queue ≠ []) :
    w.sched.taskListTail ∈ w.queue := by
  rw [linked.tail, List.getLastD_eq_getLast?, List.getLast?_eq_getLast_of_ne_nil some_task,
    Option.getD_some]
  exact List.getLast_mem some_task

theorem Linked.links_append (linked : Linked boot w) (t : Addr) (some_task : w.queue ≠ []) (u : Addr)
    (made : u ∈ w.created) :
    taskNext (write64 w.sched.mem (w.sched.taskListTail + 8#64) t) u = following (w.queue ++ [t]) u := by
  have owner := linked.known _ (linked.tail_mem some_task)
  have roomLast := linked.fits _ owner
  have roomU := linked.fits u made
  have offset (v : Addr) (fits : v.toNat + 8192 < 2 ^ 64) : (v + 8#64).toNat = v.toNat + 8 := by
    bv_omega
  have offsetLast := offset _ roomLast
  have offsetU := offset u roomU
  rcases linked.apart _ u owner made with same | far
  · rw [← same, linked.tail, following_last w.queue t linked.distinct some_task, ← linked.tail]
    exact read64_write64_same _ _ _
  · have away : u ≠ w.queue.getLastD 0#64 := by
      rw [← linked.tail]
      intro same
      rw [same] at far
      omega
    rw [following_append w.queue t u linked.distinct away, ← linked.links u made]
    exact read64_write64_apart _ _ _ _ (by omega) (by omega) (by omega)

theorem Linked.add (linked : Linked boot w) (t : Addr) (legal : Legal (.add t) w) :
    Linked boot (step boot (.add t) w) := by
  obtain ⟨made, fresh⟩ := legal
  have known (u : Addr) (member : u ∈ w.queue ++ [t]) : u ∈ w.created := by
    rcases List.mem_append.mp member with old | new
    · exact linked.known u old
    · rwa [List.mem_singleton.mp new]
  have distinct : (w.queue ++ [t]).Nodup := by
    rw [List.nodup_append]
    refine ⟨linked.distinct, List.nodup_singleton t, ?_⟩
    intro u member v single same
    rw [List.mem_singleton.mp single] at same
    exact fresh (same ▸ member)
  have running (begun : w.started = true) : w.sched.currentTask ∈ w.queue ++ [t] :=
    List.mem_append_left _ (linked.running begun)
  by_cases empty : w.queue = []
  · have stepped : schedAddTask t w.sched =
        { w.sched with taskListHead := t, taskListTail := t } := by
      unfold schedAddTask
      rw [if_pos (linked.head_eq_zero_iff.mpr empty)]
    refine ⟨?_, linked.high, ?_, linked.separate, known, distinct, ?_, ?_, ?_, ?_⟩ <;>
      simp only [step, stepped]
    · exact linked.bootPlaced
    · exact linked.low
    · simp [empty]
    · simp [empty]
    · intro u member
      rw [linked.links u member, empty]
      by_cases same : u = t <;> simp [following, same]
    · exact running
  · have stepped : schedAddTask t w.sched =
        { w.sched with mem := write64 w.sched.mem (w.sched.taskListTail + 8#64) t, taskListTail := t } := by
      unfold schedAddTask
      rw [if_neg (fun zero => empty (linked.head_eq_zero_iff.mp zero))]
    refine ⟨?_, linked.high, ?_, linked.separate, known, distinct, ?_, ?_, ?_, ?_⟩ <;>
      simp only [step, stepped]
    · exact linked.bootPlaced
    · exact linked.low
    · rw [linked.head]
      cases shape : w.queue with
      | nil => exact absurd shape empty
      | cons u rest => rfl
    · simp
    · exact linked.links_append t empty
    · exact running

theorem Linked.next_apart (linked : Linked boot w) (a : Addr) (v : BitVec 64)
    (place : (boot.toNat ≤ a.toNat ∧ a.toNat ≤ boot.toNat + 8) ∨ a ∈ w.created) (u : Addr)
    (member : u ∈ w.created) (mem : Mem) : taskNext (write64 mem a v) u = taskNext mem u := by
  have roomU := linked.fits u member
  have high := linked.high u member
  have offset : (u + 8#64).toNat = u.toNat + 8 := by bv_omega
  rcases place with inside | task
  · exact read64_write64_apart _ _ _ _ (by omega) (by omega) (by omega)
  · have room := linked.fits a task
    rcases linked.apart a u task member with same | far
    · rw [same]
      exact read64_write64_apart _ _ _ _ (by omega) (by omega) (by omega)
    · exact read64_write64_apart _ _ _ _ (by omega) (by omega) (by omega)

theorem Linked.switch (linked : Linked boot w) (saved next : Addr) (begun : Bool)
    (outgoing : w.sched.currentTask = boot ∨ w.sched.currentTask ∈ w.created) (member : next ∈ w.queue) :
    Linked boot { w with sched := contextSwitch saved next w.sched, started := begun } := by
  have place : (boot.toNat ≤ w.sched.currentTask.toNat ∧ w.sched.currentTask.toNat ≤ boot.toNat + 8) ∨
      w.sched.currentTask ∈ w.created := by
    rcases outgoing with same | task
    · left
      rw [same]
      omega
    · exact Or.inr task
  have links (u : Addr) (made : u ∈ w.created) :
      taskNext (write64 w.sched.mem w.sched.currentTask saved) u = following w.queue u := by
    rw [linked.next_apart _ saved place u made]
    exact linked.links u made
  exact ⟨linked.bootPlaced, linked.high, linked.low, linked.separate, linked.known, linked.distinct,
    linked.head, linked.tail, links, fun _ => member⟩

theorem Linked.bootstrap (linked : Linked boot w) (waiting : w.started = false) :
    Linked boot { w with sched := bootstrap boot w.sched } := by
  have room := linked.bootPlaced.2
  have bound := w.sched.nextFreePage.isLt
  have offset : (boot + 8#64).toNat = boot.toNat + 8 := by bv_omega
  have links (u : Addr) (made : u ∈ w.created) :
      taskNext (Sched.bootstrap boot w.sched).mem u = following w.queue u := by
    unfold Sched.bootstrap
    rw [linked.next_apart boot 0#64 (Or.inl (by omega)) u made,
      linked.next_apart (boot + 8#64) _ (Or.inl (by omega)) u made]
    exact linked.links u made
  exact ⟨linked.bootPlaced, linked.high, linked.low, linked.separate, linked.known, linked.distinct,
    linked.head, linked.tail, links, fun begun => absurd begun (by simp [waiting])⟩

theorem Linked.head_mem (linked : Linked boot w) (some_task : w.queue ≠ []) :
    w.sched.taskListHead ∈ w.queue := by
  rw [linked.head]
  cases shape : w.queue with
  | nil => exact absurd shape some_task
  | cons t rest => simp

theorem start_switches (linked : Linked boot w) (saved : Addr) (some_task : w.queue ≠ []) :
    schedStart boot saved w.sched =
      contextSwitch saved w.sched.taskListHead (Sched.bootstrap boot w.sched) := by
  unfold schedStart
  rw [if_neg (fun zero => some_task (linked.head_eq_zero_iff.mp zero))]

theorem Linked.start (linked : Linked boot w) (saved : Addr) (legal : Legal (.start saved) w) :
    Linked boot (step boot (.start saved) w) := by
  obtain ⟨waiting, some_task⟩ := legal
  have switched := (linked.bootstrap waiting).switch saved w.sched.taskListHead true (Or.inl rfl)
    (linked.head_mem some_task)
  simp only [step, start_switches linked saved some_task]
  exact switched

end LifeOS.Sched
