import Mathlib.Algebra.Ring.Nat
import Mathlib.Data.Finset.Card

/-!
# The physical memory manager: frames

One bit per 4 KiB frame, set while the frame is in use, and a counter of free frames. The
three allocators search the bitmap from 1 MiB on; `pmm_free` clears one bit. `mark_range`
is the helper the initialisation uses for both directions.

* `Pmm.Counted`: the counter is the number of clear bits.
* `Pmm.Grants`: what an allocation of a run of frames does.
* one `_spec` lemma for each of the four operations.
-/

namespace TinyOS.Mem

open Function

/-- `PMM_PAGE_SIZE`. -/
def pageSize : Nat := 4096

/-- `PMM_MAX_BYTES`: the physical memory the bitmap covers. -/
def maxBytes : Nat := 256 * 1024 * 1024

/-- `PMM_MAX_FRAMES`. -/
def maxFrames : Nat := 65536

/-- `PMM_LOW_FRAMES`: the frames of the identity-mapped first 32 MiB. -/
def lowFrames : Nat := 8192

/-- `PMM_RESERVED_FLOOR`. -/
def reservedFloor : Nat := 0x100000

/-- `PMM_RESERVED_FLOOR / PMM_PAGE_SIZE`. -/
def firstFrame : Nat := 256

example : maxFrames = maxBytes / pageSize ∧ lowFrames = 32 * 1024 * 1024 / pageSize ∧
    firstFrame = reservedFloor / pageSize := by decide

/-- The value of a `uint32_t` expression. -/
def u32 (n : Nat) : Nat := n % 2 ^ 32

theorem u32_of_lt {n : Nat} (h : n < 2 ^ 32) : u32 n = n := Nat.mod_eq_of_lt h

/-- The bitmap and the counter. A bit index from `maxFrames` on names a bit of the memory
behind the bitmap: `bget` and `bset` check no bound. -/
structure Pmm where
  bits : Nat → Bool
  framesFree : Nat

namespace Pmm

variable {m m' : Pmm} {i : Nat}

/-- A set bit is a frame in use. -/
def bget (m : Pmm) (i : Nat) : Bool := m.bits i

def bset (m : Pmm) (i : Nat) : Pmm := { m with bits := update m.bits i true }

def bclr (m : Pmm) (i : Nat) : Pmm := { m with bits := update m.bits i false }

/-- `bset(i); if (frames_free) frames_free--;` -/
def takeFrame (m : Pmm) (i : Nat) : Pmm := { m.bset i with framesFree := m.framesFree - 1 }

/-- `bclr(i); frames_free++;` -/
def giveFrame (m : Pmm) (i : Nat) : Pmm := { m.bclr i with framesFree := m.framesFree + 1 }

/-! ## `mark_range` -/

/-- The body of the loop of `mark_range`. -/
def markFrame (m : Pmm) (i : Nat) : (used : Bool) → Pmm
  | true => if m.bget i then m else m.takeFrame i
  | false => if m.bget i then m.giveFrame i else m

/-- The frame behind the last one of a range, before it is clamped. -/
def rangeEnd (phys size : Nat) : Nat :=
  if size > 0xFFFFFFFF - phys then maxFrames
  else if phys + size > 0xFFFFFFFF - pageSize + 1 then maxFrames
  else (phys + size + pageSize - 1) / pageSize

/-- `if (end > PMM_MAX_FRAMES) end = PMM_MAX_FRAMES;` -/
def clampedEnd (phys size : Nat) : Nat := min (rangeEnd phys size) maxFrames

def markRange (m : Pmm) (phys size : Nat) (used : Bool) : Pmm :=
  let start := phys / pageSize
  if start ≥ maxFrames then m
  else
    (List.range' start (clampedEnd phys size - start)).foldl (fun m i => m.markFrame i used) m

def pmmMarkUsed (m : Pmm) (phys size : Nat) : Pmm := m.markRange phys size true

def pmmMarkFree (m : Pmm) (phys size : Nat) : Pmm := m.markRange phys size false

/-! ## The allocators and `pmm_free` -/

/-- The first `i` with `lo <= i < hi` that passes a test. -/
def firstIn (lo hi : Nat) (test : Nat → Bool) : Option Nat := (List.range' lo (hi - lo)).find? test

/-- A free frame that is not in the reserved low memory. -/
def allocatable (m : Pmm) (i : Nat) : Bool := !m.bget i && !decide (i * pageSize < reservedFloor)

/-- `pmm_alloc`: the first free frame from 1 MiB on, or 0. -/
def pmmAlloc (m : Pmm) : Pmm × Nat :=
  match firstIn 0 maxFrames m.allocatable with
  | some i => (m.takeFrame i, u32 (i * pageSize))
  | none => (m, 0)

/-- `while (run < count && !bget(base + run)) run++;`, with `left` frames still to look at. -/
def freeRun (m : Pmm) (base : Nat) : (left run : Nat) → Nat
  | 0, run => run
  | left + 1, run => if m.bget (u32 (base + run)) then run else m.freeRun base left (run + 1)

/-- The search loop of `pmm_alloc_contiguous`: the base of a free run, if there is one. The
outer `none` is a loop that has not ended when `fuel` turns are over. -/
def findRun (m : Pmm) (count : Nat) : (fuel base : Nat) → Option (Option Nat)
  | 0, _ => none
  | fuel + 1, base =>
    if u32 (base + count) ≤ maxFrames then
      let run := m.freeRun base count 0
      if run = count then some (some base)
      else m.findRun count fuel (u32 (base + run + 1))
    else some none

/-- The loop that claims a run. -/
def takeRun (m : Pmm) (base count : Nat) : Pmm :=
  (List.range count).foldl (fun m k => m.takeFrame (u32 (base + k))) m

/-- `pmm_alloc_contiguous`. Nothing changes during the search and its position is a 32-bit
number, so a search of more than `2 ^ 32` turns never ends. -/
def pmmAllocContiguous (m : Pmm) (count : Nat) : Option (Pmm × Nat) :=
  if count = 0 then some (m, 0)
  else if count = 1 then some m.pmmAlloc
  else
    (m.findRun count (2 ^ 32 + 1) firstFrame).map fun
      | some base => (m.takeRun base count, u32 (base * pageSize))
      | none => (m, 0)

def pmmAllocLow (m : Pmm) : Pmm × Nat :=
  match firstIn firstFrame lowFrames fun i => !m.bget i with
  | some i => (m.takeFrame i, u32 (i * pageSize))
  | none => (m, 0)

/-- `pmm_free`: every check that fails returns without an effect. -/
def pmmFree (m : Pmm) (phys : Nat) : Pmm :=
  if phys = 0 then m
  else if phys % pageSize ≠ 0 then m
  else if phys < reservedFloor then m
  else if phys / pageSize ≥ maxFrames then m
  else if !m.bget (phys / pageSize) then m
  else m.giveFrame (phys / pageSize)

/-! ## Bits and counter -/

@[simp] theorem takeFrame_bits (m : Pmm) (i j : Nat) :
    (m.takeFrame i).bits j = if j = i then true else m.bits j :=
  update_apply m.bits i true j

@[simp] theorem giveFrame_bits (m : Pmm) (i j : Nat) :
    (m.giveFrame i).bits j = if j = i then false else m.bits j :=
  update_apply m.bits i false j

@[simp] theorem markFrame_bits (m : Pmm) (i : Nat) (used : Bool) (j : Nat) :
    (m.markFrame i used).bits j = if j = i then used else m.bits j := by
  by_cases hj : j = i
  · subst hj
    cases used <;> cases hbit : m.bits j <;> simp [markFrame, bget, hbit]
  · cases used <;> simp only [markFrame] <;> split <;> simp [hj]

/-- The frames whose bit is clear. -/
def freeSet (m : Pmm) : Finset Nat := {i ∈ Finset.range maxFrames | m.bits i = false}

theorem mem_freeSet : i ∈ m.freeSet ↔ i < maxFrames ∧ m.bits i = false := by
  simp [freeSet]

/-- The counter is the number of clear bits. -/
def Counted (m : Pmm) : Prop := m.framesFree = m.freeSet.card

theorem Counted.takeFrame (h : m.Counted) (hi : i < maxFrames) (hbit : m.bits i = false) :
    (m.takeFrame i).Counted := by
  have hset : (m.takeFrame i).freeSet = m.freeSet.erase i := by
    ext j
    simp only [mem_freeSet, Finset.mem_erase, takeFrame_bits]
    by_cases hj : j = i <;> simp [hj]
  show m.framesFree - 1 = (m.takeFrame i).freeSet.card
  rw [hset, Finset.card_erase_of_mem (mem_freeSet.mpr ⟨hi, hbit⟩), ← h]

theorem Counted.giveFrame (h : m.Counted) (hi : i < maxFrames) (hbit : m.bits i = true) :
    (m.giveFrame i).Counted := by
  have hset : (m.giveFrame i).freeSet = insert i m.freeSet := by
    ext j
    simp only [mem_freeSet, Finset.mem_insert, giveFrame_bits]
    by_cases hj : j = i <;> simp [hj, hi]
  have hnew : i ∉ m.freeSet := by simp [mem_freeSet, hbit]
  show m.framesFree + 1 = (m.giveFrame i).freeSet.card
  rw [hset, Finset.card_insert_of_notMem hnew, ← h]

theorem Counted.markFrame (h : m.Counted) (hi : i < maxFrames) (used : Bool) :
    (m.markFrame i used).Counted := by
  cases used with
  | true =>
    simp only [Pmm.markFrame]
    split
    · exact h
    · next hbit => exact h.takeFrame hi (by simpa [bget] using hbit)
  | false =>
    simp only [Pmm.markFrame]
    split
    · next hbit => exact h.giveFrame hi hbit
    · exact h

/-! ### The loop of `mark_range` -/

theorem foldl_markFrame_bits (m : Pmm) (used : Bool) (start n j : Nat) :
    ((List.range' start n).foldl (fun m i => m.markFrame i used) m).bits j =
      if start ≤ j ∧ j < start + n then used else m.bits j := by
  induction n generalizing m start with
  | zero => simp
  | succ n ih =>
    rw [List.range'_succ, List.foldl_cons, ih, markFrame_bits]
    -- the first turn marks `start`, the others what lies behind it
    split_ifs <;> first | rfl | omega

theorem clampedEnd_le (phys size : Nat) : clampedEnd phys size ≤ maxFrames := Nat.min_le_right _ _

theorem markRange_bits (m : Pmm) (phys size : Nat) (used : Bool) (j : Nat) :
    (m.markRange phys size used).bits j =
      if phys / pageSize ≤ j ∧ j < clampedEnd phys size then used else m.bits j := by
  have hend := clampedEnd_le phys size
  simp only [markRange]
  split
  · rw [if_neg (by omega)]
  rw [foldl_markFrame_bits]
  congr 1
  exact propext (by omega)

theorem Counted.markRange (h : m.Counted) (phys size : Nat) (used : Bool) :
    (m.markRange phys size used).Counted := by
  simp only [Pmm.markRange]
  split
  · exact h
  refine List.foldlRecOn _ _ h fun m h i hi => h.markFrame ?_ used
  have hend := clampedEnd_le phys size
  rw [List.mem_range'_1] at hi
  omega

/-! ## What an allocation does -/

/-- A run of `n` free frames from `base` on, inside managed memory and above 1 MiB, is
taken. -/
structure Grants (m : Pmm) (base n : Nat) (m' : Pmm) : Prop where
  floor : firstFrame ≤ base
  managed : base + n ≤ maxFrames
  clear : ∀ i, base ≤ i → i < base + n → m.bits i = false
  bits : ∀ i, m'.bits i = if base ≤ i ∧ i < base + n then true else m.bits i
  counted : m.Counted → m'.Counted

theorem Grants.single (hfloor : firstFrame ≤ i) (hi : i < maxFrames) (hbit : m.bits i = false) :
    Grants m i 1 (m.takeFrame i) where
  floor := hfloor
  managed := hi
  clear j h₁ h₂ := by
    obtain rfl : j = i := by omega
    exact hbit
  bits j := by
    rw [takeFrame_bits]
    congr 1
    exact propext (by omega)
  counted h := h.takeFrame hi hbit

/-- An operation that returns `addr` failed, without an effect, or took the run of `n`
frames at `addr`. -/
def Allocates (m : Pmm) (n : Nat) (m' : Pmm) (addr : Nat) : Prop :=
  addr = 0 ∧ m' = m ∨ ∃ base, addr = base * pageSize ∧ Grants m base n m'

theorem u32_frame (hi : i ≤ maxFrames) : u32 (i * pageSize) = i * pageSize := by
  apply u32_of_lt
  simp only [pageSize, maxFrames] at hi ⊢
  omega

theorem firstIn_some {lo hi : Nat} {test : Nat → Bool} (h : firstIn lo hi test = some i) :
    lo ≤ i ∧ i < hi ∧ test i = true := by
  have hmem := List.mem_of_find?_eq_some h
  rw [List.mem_range'_1] at hmem
  exact ⟨hmem.1, by omega, List.find?_some h⟩

theorem pmmAlloc_spec (m : Pmm) : Allocates m 1 m.pmmAlloc.1 m.pmmAlloc.2 := by
  rcases hfind : firstIn 0 maxFrames m.allocatable with _ | i
  · have hreturns : m.pmmAlloc = (m, 0) := by
      simp only [pmmAlloc, hfind]
    rw [hreturns]
    exact Or.inl ⟨rfl, rfl⟩
  · have hreturns : m.pmmAlloc = (m.takeFrame i, u32 (i * pageSize)) := by
      simp only [pmmAlloc, hfind]
    rw [hreturns]
    obtain ⟨-, hi, hfree⟩ := firstIn_some hfind
    rw [allocatable, Bool.and_eq_true, Bool.not_eq_true', Bool.not_eq_true',
      decide_eq_false_iff_not] at hfree
    obtain ⟨hbit, hfloor⟩ := hfree
    refine Or.inr ⟨i, u32_frame hi.le, Grants.single ?_ hi hbit⟩
    simp only [firstFrame, pageSize, reservedFloor] at hfloor ⊢
    omega

theorem pmmAllocLow_spec (m : Pmm) :
    Allocates m 1 m.pmmAllocLow.1 m.pmmAllocLow.2 ∧
      m.pmmAllocLow.2 + pageSize ≤ lowFrames * pageSize := by
  rcases hfind : firstIn firstFrame lowFrames fun i => !m.bget i with _ | i
  · have hreturns : m.pmmAllocLow = (m, 0) := by rw [pmmAllocLow, hfind]
    rw [hreturns]
    exact ⟨Or.inl ⟨rfl, rfl⟩, (by decide : 0 + pageSize ≤ lowFrames * pageSize)⟩
  · have hreturns : m.pmmAllocLow = (m.takeFrame i, u32 (i * pageSize)) := by
      rw [pmmAllocLow, hfind]
    rw [hreturns]
    obtain ⟨hfloor, hi, hfree⟩ := firstIn_some hfind
    rw [Bool.not_eq_true'] at hfree
    have hmanaged : i < maxFrames := by
      simp only [maxFrames, lowFrames] at hi ⊢
      omega
    constructor
    · exact Or.inr ⟨i, u32_frame hmanaged.le, Grants.single hfloor hmanaged hfree⟩
    · rw [u32_frame hmanaged.le]
      simp only [pageSize, lowFrames] at hi ⊢
      omega

/-! ### Contiguous runs -/

section contiguous

variable {base count : Nat}

/-- A search that looks at managed frames only counts the clear bits in front of a set one. -/
theorem freeRun_spec (m : Pmm) (base left run : Nat) (hmanaged : base + run + left ≤ maxFrames) :
    run ≤ m.freeRun base left run ∧ m.freeRun base left run ≤ run + left ∧
      (∀ i, base + run ≤ i → i < base + m.freeRun base left run → m.bits i = false) ∧
      (m.freeRun base left run < run + left → m.bits (base + m.freeRun base left run) = true) := by
  induction left generalizing run with
  | zero =>
    simp only [freeRun]
    exact ⟨le_rfl, le_rfl, fun i h₁ h₂ => absurd h₁ (by omega), fun h => absurd h (by omega)⟩
  | succ left ih =>
    have hbit : u32 (base + run) = base + run := by
      apply u32_of_lt
      simp only [maxFrames] at hmanaged
      omega
    rw [freeRun, hbit]
    split
    · next hused =>
      exact ⟨le_rfl, by omega, fun i h₁ h₂ => absurd h₁ (by omega), fun _ => hused⟩
    next hclear =>
    obtain ⟨hle, hge, hrest, hstop⟩ := ih (run + 1) (by omega)
    refine ⟨by omega, by omega, fun i h₁ h₂ => ?_, fun h => hstop (by omega)⟩
    by_cases hi : i = base + run
    · subst hi
      simpa [bget] using hclear
    · exact hrest i (by omega) h₂

/-- Managed frames in a row, all free. -/
def FreeRun (m : Pmm) (base n : Nat) : Prop :=
  base + n ≤ maxFrames ∧ ∀ i, base ≤ i → i < base + n → m.bits i = false

/-- The search ends, and finds the lowest run from where it began. -/
theorem findRun_spec (m : Pmm) (fuel base : Nat) (hcount : base + count < 2 ^ 32)
    (hbase : base ≤ maxFrames) (hfuel : maxFrames < fuel + base) :
    ∃ found, m.findRun count fuel base = some found ∧
      (∀ b ∈ found, base ≤ b ∧ m.FreeRun b count) ∧
      ∀ b, base ≤ b → m.FreeRun b count → ∃ b' ∈ found, b' ≤ b := by
  induction fuel generalizing base with
  | zero => omega
  | succ fuel ih =>
    rw [findRun, u32_of_lt hcount]
    split
    · next hroom =>
      obtain ⟨-, hle, hclear, hstop⟩ := freeRun_spec m base count 0 hroom
      by_cases hrun : m.freeRun base count 0 = count
      · rw [if_pos hrun]
        refine ⟨some base, rfl, fun b hb => ?_, fun b hb _ => ⟨base, rfl, hb⟩⟩
        obtain rfl := Option.some.inj hb
        rw [hrun] at hclear
        exact ⟨le_rfl, hroom, hclear⟩
      · -- the next turn begins behind the frame in use that broke the run
        rw [if_neg hrun]
        simp only [maxFrames] at hroom hbase hfuel
        rw [u32_of_lt (by omega)]
        obtain ⟨found, hfound, hspec, hfirst⟩ := ih (base + m.freeRun base count 0 + 1)
          (by omega) (by simp only [maxFrames]; omega) (by simp only [maxFrames]; omega)
        refine ⟨found, hfound, fun b hb => ?_, fun b hb hfree => hfirst b ?_ hfree⟩
        · obtain ⟨hge, hrest⟩ := hspec b hb
          exact ⟨by omega, hrest⟩
        · -- a run from an earlier frame would contain that frame
          by_contra hlt
          have hused := hfree.2 (base + m.freeRun base count 0) (by omega) (by omega)
          rw [hstop (by omega)] at hused
          cases hused
    · exact ⟨none, rfl, nofun, fun b hb hfree => absurd hfree.1 (by omega)⟩

theorem takeRun_succ (m : Pmm) (base count : Nat) :
    m.takeRun base (count + 1) = (m.takeRun base count).takeFrame (u32 (base + count)) := by
  simp only [takeRun, List.range_succ, List.foldl_append, List.foldl_cons, List.foldl_nil]

theorem takeRun_grants (hfloor : firstFrame ≤ base) (hmanaged : base + count ≤ maxFrames)
    (hclear : ∀ i, base ≤ i → i < base + count → m.bits i = false) :
    Grants m base count (m.takeRun base count) := by
  induction count with
  | zero =>
    exact ⟨hfloor, hmanaged, hclear, fun i => by rw [if_neg (by omega)]; rfl, fun h => h⟩
  | succ count ih =>
    obtain ⟨-, -, -, hbits, hcounted⟩ :=
      ih (by omega) (fun i h₁ h₂ => hclear i h₁ (by omega))
    have hframe : u32 (base + count) = base + count := by
      apply u32_of_lt
      simp only [maxFrames] at hmanaged
      omega
    refine ⟨hfloor, hmanaged, hclear, fun i => ?_, fun h => ?_⟩
    · rw [takeRun_succ, hframe, takeFrame_bits, hbits]
      split_ifs <;> first | rfl | omega
    · rw [takeRun_succ, hframe]
      apply (hcounted h).takeFrame (by omega)
      rw [hbits, if_neg (by omega)]
      exact hclear _ (by omega) (by omega)

/-- What a request for `n` frames ought to do: take the lowest free run, or fail without an
effect if there is none. -/
def FirstFit (m : Pmm) (n : Nat) (m' : Pmm) (addr : Nat) : Prop :=
  (∃ base, addr = base * pageSize ∧ Grants m base n m' ∧
      ∀ b, firstFrame ≤ b → m.FreeRun b n → base ≤ b) ∨
    (∀ b, firstFrame ≤ b → ¬ m.FreeRun b n) ∧ addr = 0 ∧ m' = m

theorem FirstFit.le_maxFrames {n addr : Nat} (h : FirstFit m n m' addr) (haddr : addr ≠ 0) :
    n ≤ maxFrames := by
  obtain ⟨base, -, hgrants, -⟩ | ⟨-, hzero, -⟩ := h
  · have hmanaged := hgrants.managed
    omega
  · exact absurd hzero haddr

/-- A request whose size added to the first frame does not wrap. -/
theorem pmmAllocContiguous_firstFit (m : Pmm) (htwo : 2 ≤ count)
    (hcount : firstFrame + count < 2 ^ 32) :
    ∃ m' addr, m.pmmAllocContiguous count = some (m', addr) ∧ FirstFit m count m' addr := by
  rw [pmmAllocContiguous, if_neg (by omega), if_neg (by omega)]
  obtain ⟨found, hfound, hspec, hfirst⟩ := findRun_spec m (2 ^ 32 + 1) firstFrame hcount
    (by decide) (by simp only [maxFrames, firstFrame]; omega)
  rw [hfound]
  rcases found with _ | b
  · refine ⟨m, 0, rfl, Or.inr ⟨fun b hb hfree => ?_, rfl, rfl⟩⟩
    obtain ⟨_, hnone, _⟩ := hfirst b hb hfree
    cases hnone
  · obtain ⟨hfloor, hmanaged, hclear⟩ := hspec b rfl
    refine ⟨_, _, rfl, Or.inl ⟨b, u32_frame (by omega), takeRun_grants hfloor hmanaged hclear, ?_⟩⟩
    intro b' hb' hfree
    obtain ⟨_, hb, hle⟩ := hfirst b' hb' hfree
    cases hb
    exact hle

theorem pmmAllocContiguous_spec (m : Pmm) (hcount : firstFrame + count < 2 ^ 32) :
    ∃ m' addr, m.pmmAllocContiguous count = some (m', addr) ∧ Allocates m count m' addr := by
  by_cases htwo : 2 ≤ count
  · obtain ⟨m', addr, hreturns, ⟨base, haddr, hgrants, -⟩ | ⟨-, hnone⟩⟩ :=
      pmmAllocContiguous_firstFit m htwo hcount
    · exact ⟨m', addr, hreturns, Or.inr ⟨base, haddr, hgrants⟩⟩
    · exact ⟨m', addr, hreturns, Or.inl hnone⟩
  unfold pmmAllocContiguous
  split
  · exact ⟨m, 0, rfl, Or.inl ⟨rfl, rfl⟩⟩
  · obtain rfl : count = 1 := by omega
    exact ⟨m.pmmAlloc.1, m.pmmAlloc.2, congrArg some Prod.mk.eta.symm, pmmAlloc_spec m⟩

/-! ### A request that wraps -/

/-- A search over bits that are all clear counts up to the size that is asked for. -/
theorem freeRun_of_clear (left run : Nat)
    (hclear : ∀ k, k < run + left → m.bits (u32 (base + k)) = false) :
    m.freeRun base left run = run + left := by
  induction left generalizing run with
  | zero => rfl
  | succ left ih =>
    have hbit : m.bget (u32 (base + run)) = false := hclear run (by omega)
    rw [freeRun, hbit, if_neg (by decide), ih (run + 1) fun k hk => hclear k (by omega)]
    omega

/-- The sum in the loop's test wraps, and the search goes on behind the bitmap. -/
theorem pmmAllocContiguous_wraps (hcount : count < 2 ^ 32) (hwraps : 2 ^ 32 ≤ firstFrame + count)
    (hclear : ∀ k, k < count → m.bits (u32 (firstFrame + k)) = false) :
    m.pmmAllocContiguous count = some (m.takeRun firstFrame count, 0x100000) := by
  have hroom : u32 (firstFrame + count) ≤ maxFrames := by
    simp only [u32, firstFrame, maxFrames] at hwraps ⊢
    omega
  have hrun : m.freeRun firstFrame count 0 = count := by
    rw [freeRun_of_clear count 0 (by simpa using hclear), Nat.zero_add]
  simp only [firstFrame] at hwraps
  rw [pmmAllocContiguous, if_neg (by omega), if_neg (by omega), findRun, if_pos hroom, if_pos hrun]
  rfl

/-- Every request for two or more frames is met from the lowest free run, but for the 256 largest
numbers: from those on the search may hand out what is not managed. -/
theorem contiguous_requests_are_first_fit_iff (count : UInt32) :
    (2 ≤ count.toNat → ∀ m : Pmm, ∃ m' addr,
        m.pmmAllocContiguous count.toNat = some (m', addr) ∧ FirstFit m count.toNat m' addr) ↔
      firstFrame + count.toNat < 2 ^ 32 := by
  constructor
  · intro h
    by_contra hwraps
    have hlt := count.toNat_lt
    obtain ⟨m', addr, hreturns, hfit⟩ := h (by simp only [firstFrame] at hwraps; omega)
      ⟨fun _ => false, 0⟩
    rw [pmmAllocContiguous_wraps hlt (Nat.le_of_not_lt hwraps) fun _ _ => rfl] at hreturns
    cases hreturns
    have hle := hfit.le_maxFrames (by decide)
    simp only [firstFrame, maxFrames] at hwraps hle
    omega
  · exact fun hcount htwo m => pmmAllocContiguous_firstFit m htwo hcount

/-- All bits are clear. -/
theorem largest_request_takes_unmanaged_memory :
    ∃ m m', Pmm.pmmAllocContiguous m 0xFFFFFFFF = some (m', 0x100000) ∧
      ¬ FirstFit m 0xFFFFFFFF m' 0x100000 := by
  refine ⟨⟨fun _ => false, 0⟩, _, pmmAllocContiguous_wraps (by decide) (by decide) fun _ _ => rfl, ?_⟩
  exact fun hfit => absurd (hfit.le_maxFrames (by decide)) (by decide)

end contiguous

/-! ### `pmm_free` -/

/-- The addresses `pmm_free` turns down: misaligned, below 1 MiB, behind managed memory, or of
a free frame. -/
def Rejected (m : Pmm) (phys : Nat) : Prop :=
  phys % pageSize ≠ 0 ∨ phys < reservedFloor ∨ maxBytes ≤ phys ∨ m.bits (phys / pageSize) = false

theorem pmmFree_of_rejected {phys : Nat} (h : m.Rejected phys) : m.pmmFree phys = m := by
  unfold pmmFree
  split_ifs with hzero halign hfloor hmax hbit <;> try rfl
  -- every check has passed, so no reason to reject is left
  rcases h with h | h | h | h
  · exact absurd h halign
  · exact absurd h hfloor
  · simp only [pageSize, maxFrames, maxBytes] at h hmax
    omega
  · simp [bget, h] at hbit

theorem pmmFree_of_accepted {phys : Nat} (h : ¬ m.Rejected phys) :
    m.pmmFree phys = m.giveFrame (phys / pageSize) := by
  simp only [Rejected, not_or, not_not, Bool.not_eq_false] at h
  obtain ⟨halign, hfloor, hmax, hbit⟩ := h
  have hmanaged : ¬ maxFrames ≤ phys / pageSize := by
    simp only [pageSize, maxFrames, maxBytes] at hmax ⊢
    omega
  have hzero : phys ≠ 0 := by
    simp only [reservedFloor] at hfloor
    omega
  simp [pmmFree, bget, halign, hfloor, hmanaged, hzero, hbit]

theorem Counted.pmmFree (h : m.Counted) (phys : Nat) : (m.pmmFree phys).Counted := by
  by_cases hrej : m.Rejected phys
  · rwa [pmmFree_of_rejected hrej]
  rw [pmmFree_of_accepted hrej]
  simp only [Rejected, not_or, not_not, Bool.not_eq_false] at hrej
  obtain ⟨-, -, hmax, hbit⟩ := hrej
  apply h.giveFrame _ hbit
  simp only [pageSize, maxFrames, maxBytes] at hmax ⊢
  omega

end Pmm

end TinyOS.Mem
