import LifeOS.Inventory.Gather
import LifeOS.Library.Runs
import LifeOS.Sched.Tasks

/-!
Where the pages of `page_alloc` and `sched_create_task` lie next to the memory that the
kernel uses at fixed addresses: the stack that `entry.asm` sets up, until the first switch
leaves it, the text buffer, the firmware region and the end of memory.
-/

namespace LifeOS.Sched
open LifeOS.Inventory LifeOS.Library.Memory LifeOS.Library.Runs LifeOS.Mm

inductive Request where
  | page
  | create (entry : Addr)
  | switch (saved next : Addr)

/-- The scheduler with the pages returned so far, and those of them from before the first switch. -/
structure Placement where
  sched : Scheduler
  switched : Bool
  returned : List Addr
  early : List Addr

def Placement.give (pages : List Addr) (sched : Scheduler) (p : Placement) : Placement :=
  { p with sched := sched
           returned := p.returned ++ pages
           early := if p.switched then p.early else p.early ++ pages }

def Request.step : Request → Placement → Placement
  | .page, p =>
      let page := pageAlloc p.sched.nextFreePage
      p.give [page.1] { p.sched with nextFreePage := page.2 }
  | .create entry, p =>
      let made := schedCreateTask entry p.sched
      p.give [made.1, stackPage made.1] made.2
  | .switch saved next, p => { p with sched := contextSwitch saved next p.sched, switched := true }

def initialPlacement (imageEnd : BitVec 64) (s : Scheduler) : Placement :=
  ⟨{ s with nextFreePage := mmInit imageEnd }, false, [], []⟩

def Misses (lo hi : Nat) (page : Addr) : Prop := page.toNat + 4096 ≤ lo ∨ hi ≤ page.toNat

/-- No page lies in memory that is in use. The boot stack holds the return address to
`entry.asm` and `depth` bytes below it. -/
structure Usable (depth : Nat) (p : Placement) : Prop where
  bootStack : ∀ page ∈ p.early, Misses (0x90000 - 8 - depth) 0x90000 page
  vga : ∀ page ∈ p.returned, Misses 0xB8000 (0xB8000 + 80 * 25 * 2) page
  firmware : ∀ page ∈ p.returned, Misses 0xE0000 0x100000 page
  ram : ∀ page ∈ p.returned, page.toNat + 4096 ≤ halMemorySize.toNat

def Request.pages : Request → Nat
  | .page => 1
  | .create _ => 2
  | .switch _ _ => 0

def Request.switches : Request → Bool
  | .switch _ _ => true
  | _ => false

def pagesIn (requests : List Request) : Nat := (requests.map Request.pages).sum

def pagesBefore (requests : List Request) : Nat := pagesIn (requests.takeWhile fun r => !r.switches)

/-- `end` rounded up to a page, and not below `0xB000`. -/
def firstPage (imageEnd : BitVec 64) : Nat := max 0xB000 ((imageEnd.toNat + 4095) % 2 ^ 64 / 4096 * 4096)

def Spares (first count lo hi : Nat) : Prop := count = 0 ∨ first + 4096 * count ≤ lo ∨ hi ≤ first

/-- The blocks of the pages taken before the first switch and of all pages spare the regions. -/
structure Spared (depth first before total : Nat) : Prop where
  bootStack : Spares first before (0x90000 - 8 - depth) 0x90000
  vga : Spares first total 0xB8000 (0xB8000 + 80 * 25 * 2)
  firmware : Spares first total 0xE0000 0x100000
  ram : total = 0 ∨ first + 4096 * total ≤ 64 * 1024 * 1024

def nthPage (start : Addr) (k : Nat) : Addr := start + BitVec.ofNat 64 (4096 * k)

theorem allocated_eq (start : Addr) (n : Nat) : allocated n start = (List.range n).map (nthPage start) := by
  induction n generalizing start with
  | zero => rfl
  | succ n ih =>
    have shifted : nthPage (start + 4096#64) = nthPage start ∘ Nat.succ := by
      funext k
      change start + 4096#64 + BitVec.ofNat 64 (4096 * k) = start + BitVec.ofNat 64 (4096 * (k + 1))
      rw [show 4096 * (k + 1) = 4096 + 4096 * k by omega, BitVec.ofNat_add, BitVec.add_assoc]
    have first : nthPage start 0 = start := BitVec.add_zero start
    rw [List.range_succ_eq_map, List.map_cons, List.map_map, first, ← shifted, ← ih]
    rfl

theorem allocated_snoc (start : Addr) (n : Nat) : allocated (n + 1) start = allocated n start ++ [nthPage start n] := by
  rw [allocated_eq, allocated_eq, List.range_succ, List.map_append]
  rfl

theorem forall_allocated (start : Addr) (n : Nat) (good : Addr → Prop) :
    (∀ page ∈ allocated n start, good page) ↔ ∀ k, k < n → good (nthPage start k) := by
  rw [allocated_eq, List.forall_mem_map]
  simp only [List.mem_range]

structure Handed (start : Addr) (before total : Nat) (p : Placement) : Prop where
  next : p.sched.nextFreePage = nthPage start total
  returned : p.returned = allocated total start
  early : p.early = allocated before start
  same : p.switched = false → before = total

variable {start : Addr} {before total : Nat} {p : Placement}

theorem nthPage_next (start : Addr) (k : Nat) : nthPage start k + 4096#64 = nthPage start (k + 1) := by
  unfold nthPage
  rw [show 4096 * (k + 1) = 4096 * k + 4096 by omega, BitVec.ofNat_add, BitVec.add_assoc]

theorem Handed.snoc (handed : Handed start before total p) (sched : Scheduler)
    (next : sched.nextFreePage = nthPage start (total + 1)) :
    Handed start (if p.switched then before else before + 1) (total + 1) (p.give [nthPage start total] sched) := by
  have returned : p.returned ++ [nthPage start total] = allocated (total + 1) start := by
    rw [handed.returned, allocated_snoc]
  cases moment : p.switched with
  | true =>
    refine ⟨next, returned, ?_, ?_⟩
    · simp [Placement.give, moment, handed.early]
    · simp [Placement.give, moment]
  | false =>
    have equal := handed.same moment
    refine ⟨next, returned, ?_, ?_⟩
    · simp [Placement.give, moment, handed.early, equal, allocated_snoc]
    · simp [equal]

theorem give_pair (first second : Addr) (half sched : Scheduler) (p : Placement) :
    p.give [first, second] sched = (p.give [first] half).give [second] sched := by
  cases moment : p.switched <;> simp [Placement.give, moment]

def grown (switched : Bool) (before pages : Nat) : Nat := if switched then before else before + pages

theorem Handed.request (handed : Handed start before total p) (request : Request) :
    Handed start (grown p.switched before request.pages) (total + request.pages) (request.step p) := by
  cases request with
  | page =>
    have next : p.sched.nextFreePage + 4096#64 = nthPage start (total + 1) := by
      rw [handed.next, nthPage_next]
    have given := handed.snoc { p.sched with nextFreePage := p.sched.nextFreePage + 4096#64 } next
    rw [← handed.next] at given
    exact given
  | create entry =>
    have address : (schedCreateTask entry p.sched).1 = nthPage start total := handed.next
    have second : stackPage (nthPage start total) = nthPage start (total + 1) := nthPage_next start total
    have next : (schedCreateTask entry p.sched).2.nextFreePage = nthPage start (total + 1 + 1) := by
      rw [← nthPage_next, ← nthPage_next, ← handed.next]
      rfl
    have given := (handed.snoc { (schedCreateTask entry p.sched).2 with nextFreePage := nthPage start (total + 1) }
      rfl).snoc _ next
    have step : Request.step (.create entry) p =
        p.give [nthPage start total, nthPage start (total + 1)] (schedCreateTask entry p.sched).2 := by
      rw [← second, ← address]
      rfl
    have count : grown p.switched before (Request.create entry).pages =
        if p.switched then (if p.switched then before else before + 1)
        else (if p.switched then before else before + 1) + 1 := by
      cases p.switched <;> rfl
    rw [step, count, give_pair _ _ { (schedCreateTask entry p.sched).2 with nextFreePage := nthPage start (total + 1) }]
    exact given
  | switch saved next =>
    have moved : (contextSwitch saved next p.sched).nextFreePage = nthPage start total := handed.next
    refine ⟨moved, handed.returned, ?_, nofun⟩
    rw [show grown p.switched before (Request.switch saved next).pages = before by
      cases p.switched <;> rfl]
    exact handed.early

theorem Handed.run (handed : Handed start before total p) (requests : List Request) :
    Handed start (if p.switched then before else before + pagesBefore requests) (total + pagesIn requests)
      (run Request.step requests p) := by
  induction requests generalizing before total p with
  | nil =>
    have none : (if p.switched then before else before + pagesBefore []) = before := by
      cases p.switched <;> rfl
    rw [none]
    exact handed
  | cons request requests ih =>
    have rest := ih (handed.request request)
    have all : pagesIn (request :: requests) = request.pages + pagesIn requests := by
      simp [pagesIn]
    have count : (if (request.step p).switched then grown p.switched before request.pages
        else grown p.switched before request.pages + pagesBefore requests) =
        if p.switched then before else before + pagesBefore (request :: requests) := by
      cases request <;> cases moment : p.switched <;>
        simp [Request.step, Placement.give, grown, moment, pagesBefore, pagesIn, Request.switches, Request.pages,
          Nat.add_assoc]
    rw [count, Nat.add_assoc, ← all] at rest
    exact rest

theorem handed_run (imageEnd : BitVec 64) (s : Scheduler) (requests : List Request) :
    Handed (mmInit imageEnd) (pagesBefore requests) (pagesIn requests)
      (run Request.step requests (initialPlacement imageEnd s)) := by
  have start : Handed (mmInit imageEnd) 0 0 (initialPlacement imageEnd s) :=
    ⟨(BitVec.add_zero _).symm, rfl, rfl, fun _ => rfl⟩
  have handed := start.run requests
  rw [show (initialPlacement imageEnd s).switched = false from rfl] at handed
  simpa using handed

theorem nthPage_toNat (start : Addr) (k : Nat) (low : start.toNat + 4096 * k < 2 ^ 64) :
    (nthPage start k).toNat = start.toNat + 4096 * k := by
  unfold nthPage
  rw [BitVec.toNat_add, BitVec.toNat_ofNat]
  omega

/-- Pages that all end below a limit form a block that does: it never wraps. -/
theorem below_iff (start : Addr) (n limit : Nat) (inside : limit < 2 ^ 64) :
    (∀ k, k < n → (nthPage start k).toNat + 4096 ≤ limit) ↔ n = 0 ∨ start.toNat + 4096 * n ≤ limit := by
  constructor
  · intro below
    by_cases none : n = 0
    · exact Or.inl none
    · right
      induction n with
      | zero => exact absurd rfl none
      | succ n ih =>
        have last := below n (by omega)
        have room : start.toNat + 4096 * n < 2 ^ 64 := by
          by_cases first : n = 0
          · rw [first]
            exact start.isLt
          · have earlier := ih (fun k few => below k (by omega)) first
            omega
        rw [nthPage_toNat start n room, Nat.add_assoc] at last
        exact last
  · rintro (rfl | below) k few
    · omega
    · rw [nthPage_toNat start k (by omega)]
      omega

/-- Pages that do not wrap spare a region exactly if their block does: a page that starts at
or below `lo` and ends above it would lie in both. -/
theorem spares_iff (start : Addr) (n lo hi : Nat) (region : lo < hi) (room : start.toNat + 4096 * n < 2 ^ 64) :
    (∀ k, k < n → Misses lo hi (nthPage start k)) ↔ Spares start.toNat n lo hi := by
  have place (k : Nat) (few : k < n) := nthPage_toNat start k (by omega)
  unfold Misses Spares
  constructor
  · intro missed
    by_contra overlap
    rw [not_or, not_or, not_le, not_le] at overlap
    obtain ⟨some_page, above, below⟩ := overlap
    by_cases early : lo < start.toNat + 4096
    · have first := missed 0 (by omega)
      rw [place 0 (by omega)] at first
      omega
    · have inside : (lo - start.toNat) / 4096 < n := by omega
      have crossing := missed ((lo - start.toNat) / 4096) inside
      rw [place _ inside] at crossing
      omega
  · intro spared k few
    rw [place k few]
    omega

theorem pagesBefore_le (requests : List Request) : pagesBefore requests ≤ pagesIn requests := by
  have halves := List.takeWhile_append_dropWhile (p := fun r : Request => !r.switches) (l := requests)
  have total := congrArg pagesIn halves
  unfold pagesIn at total
  rw [List.map_append, List.sum_append] at total
  unfold pagesBefore pagesIn
  omega

/-- The pages are usable exactly if the block they form spares the regions. -/
theorem pages_usable_iff (imageEnd : BitVec 64) (depth : Nat) (s : Scheduler) (requests : List Request) :
    Usable depth (run Request.step requests (initialPlacement imageEnd s)) ↔
      Spared depth (firstPage imageEnd) (pagesBefore requests) (pagesIn requests) := by
  obtain ⟨_, returned, early, _⟩ := handed_run imageEnd s requests
  generalize run Request.step requests (initialPlacement imageEnd s) = p at returned early
  have first : (mmInit imageEnd).toNat = firstPage imageEnd := mmInit_eq imageEnd
  have ram : (∀ page ∈ p.returned, page.toNat + 4096 ≤ halMemorySize.toNat) ↔
      pagesIn requests = 0 ∨ firstPage imageEnd + 4096 * pagesIn requests ≤ 64 * 1024 * 1024 := by
    rw [returned, forall_allocated, below_iff _ _ _ (by decide), first]
    rfl
  -- Memory ends far below the address space, so the block of usable pages does not wrap.
  have region (bound : pagesIn requests = 0 ∨ firstPage imageEnd + 4096 * pagesIn requests ≤ 64 * 1024 * 1024)
      (n lo hi : Nat) (few : n ≤ pagesIn requests) (proper : lo < hi) :
      (∀ page ∈ allocated n (mmInit imageEnd), Misses lo hi page) ↔ Spares (firstPage imageEnd) n lo hi := by
    have inside := (mmInit imageEnd).isLt
    have room : (mmInit imageEnd).toNat + 4096 * n < 2 ^ 64 := by
      rw [first] at inside ⊢
      omega
    rw [forall_allocated, spares_iff _ _ _ _ proper room, first]
  have fewer := pagesBefore_le requests
  constructor
  · intro usable
    have bound := ram.mp usable.ram
    refine ⟨(region bound _ _ _ fewer (by omega)).mp ?_, (region bound _ _ _ (Nat.le_refl _) (by omega)).mp ?_,
      (region bound _ _ _ (Nat.le_refl _) (by omega)).mp ?_, bound⟩
    · exact early ▸ usable.bootStack
    · exact returned ▸ usable.vga
    · exact returned ▸ usable.firmware
  · intro spared
    have bound := spared.ram
    refine ⟨?_, ?_, ?_, ram.mpr bound⟩
    · rw [early]
      exact (region bound _ _ _ fewer (by omega)).mpr spared.bootStack
    · rw [returned]
      exact (region bound _ _ _ (Nat.le_refl _) (by omega)).mpr spared.vga
    · rw [returned]
      exact (region bound _ _ _ (Nat.le_refl _) (by omega)).mpr spared.firmware

/-- With an image that ends at `0x18000`, the stack of the 60th task created before the start
lies over the boot stack. -/
theorem sixty_tasks_reach_boot_stack :
    ¬Usable 0 (run Request.step (List.replicate 60 (.create 0x1100#64))
      (initialPlacement 0x18000#64 ⟨fun _ => 0#8, 0#64, 0#64, 0#64, 0#64⟩)) := by
  intro usable
  obtain ⟨_, _, early, _⟩ := handed_run 0x18000#64 ⟨fun _ => 0#8, 0#64, 0#64, 0#64, 0#64⟩
    (List.replicate 60 (.create 0x1100#64))
  have before : pagesBefore (List.replicate 60 (.create 0x1100#64)) = 120 := by decide
  rw [before] at early
  have last : nthPage (mmInit 0x18000#64) 119 ∈ allocated 120 (mmInit 0x18000#64) := by
    rw [allocated_snoc]
    exact List.mem_append_right _ List.mem_cons_self
  have missed := usable.bootStack (nthPage (mmInit 0x18000#64) 119) (early ▸ last)
  have place : (nthPage (mmInit 0x18000#64) 119).toNat = 0x8F000 := by decide
  unfold Misses at missed
  omega

end LifeOS.Sched
