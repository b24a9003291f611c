import TinyOS.Lib.Run
import TinyOS.Mem.Multiboot
import Mathlib.Order.Interval.Finset.Nat

/-!
# Who holds a frame

Any sequence of calls of the four operations after initialisation, with the frames that were
handed out and not freed since. The allocators give out free frames only, as long as a
contiguous request is not so large that the end of its first run wraps around in 32 bits
(`Op.NoWrap`): behind such an end the search looks at memory that is not the bitmap.
-/

namespace TinyOS.Mem

open Lib

/-- A call of the allocator. -/
inductive Op
  | alloc
  | allocContiguous (count : UInt32)
  | allocLow
  | free (phys : UInt32)
deriving DecidableEq, Repr

/-- The allocator, and the frames that were handed out and not freed since. -/
structure Holdings where
  pmm : Pmm
  held : Finset Nat

namespace Holdings

/-- The `n` frames at `addr` are handed out, unless the call failed. -/
def hand (h : Holdings) (m : Pmm) (addr n : Nat) : Holdings where
  pmm := m
  held := if addr = 0 then h.held else h.held ∪ Finset.Ico (addr / pageSize) (addr / pageSize + n)

/-- One call and the address it returns; 0 for `pmm_free`. -/
def step (h : Holdings) : Op → Option (Holdings × Nat)
  | .alloc => some (h.hand h.pmm.pmmAlloc.1 h.pmm.pmmAlloc.2 1, h.pmm.pmmAlloc.2)
  | .allocContiguous count =>
    (h.pmm.pmmAllocContiguous count.toNat).map fun r => (h.hand r.1 r.2 count.toNat, r.2)
  | .allocLow => some (h.hand h.pmm.pmmAllocLow.1 h.pmm.pmmAllocLow.2 1, h.pmm.pmmAllocLow.2)
  | .free phys =>
    some ({ pmm := h.pmm.pmmFree phys.toNat
            held := if phys.toNat % pageSize = 0 then h.held.erase (phys.toNat / pageSize)
              else h.held }, 0)

/-- `addr` is the address of `n` managed frames above 1 MiB, and none of them is held. -/
structure Fresh (h : Holdings) (addr n : Nat) : Prop where
  aligned : addr % pageSize = 0
  floor : reservedFloor ≤ addr
  managed : addr + n * pageSize ≤ maxBytes
  unheld : ∀ k < n, addr / pageSize + k ∉ h.held

/-- What a call promises, whether it succeeds or not. -/
def Sound (h : Holdings) (op : Op) (h' : Holdings) (addr : Nat) : Prop :=
  match op with
  | .alloc => addr ≠ 0 → h.Fresh addr 1
  | .allocContiguous count => addr ≠ 0 → h.Fresh addr count.toNat
  | .allocLow => addr ≠ 0 → h.Fresh addr 1 ∧ addr + pageSize ≤ lowFrames * pageSize
  | .free phys => h.pmm.Rejected phys.toNat → h'.pmm = h.pmm

end Holdings

/-- The end of the first run a contiguous request looks at does not wrap. -/
def Op.NoWrap : Op → Prop
  | .allocContiguous count => firstFrame + count.toNat < 2 ^ 32
  | _ => True

/-- A call that meets the condition. -/
def GuardedCall (h : Holdings) (op : Op) (h' : Holdings) : Prop :=
  op.NoWrap ∧ ∃ addr, h.step op = some (h', addr)

/-! ## What every call keeps -/

/-- The counter is right, and every held frame is a managed frame in use. -/
structure Holdings.Inv (h : Holdings) : Prop where
  counted : h.pmm.Counted
  held : ∀ i ∈ h.held, i < maxFrames ∧ h.pmm.bits i = true

namespace Holdings

variable {h : Holdings}

theorem Inv.hand (hinv : h.Inv) {m : Pmm} {addr n : Nat} (halloc : h.pmm.Allocates n m addr) :
    (h.hand m addr n).Inv ∧ (addr ≠ 0 → h.Fresh addr n) := by
  rcases halloc with ⟨rfl, rfl⟩ | ⟨base, rfl, hgrants⟩
  · exact ⟨⟨hinv.counted, hinv.held⟩, fun hne => absurd rfl hne⟩
  · have hfloor := hgrants.floor
    have hmanaged := hgrants.managed
    have hbase : base * pageSize / pageSize = base := Nat.mul_div_cancel base (by decide)
    have hne : base * pageSize ≠ 0 := by
      simp only [firstFrame, pageSize] at hfloor ⊢
      omega
    refine ⟨⟨hgrants.counted hinv.counted, fun i hi => ?_⟩, fun _ => ⟨?_, ?_, ?_, ?_⟩⟩
    · -- a held frame was held before or belongs to the run that is taken
      simp only [Holdings.hand, hne, if_false, hbase, Finset.mem_union, Finset.mem_Ico] at hi
      show i < maxFrames ∧ m.bits i = true
      rw [hgrants.bits]
      rcases hi with hi | hi
      · obtain ⟨hlt, hbit⟩ := hinv.held i hi
        exact ⟨hlt, by simp [hbit]⟩
      · exact ⟨by omega, if_pos hi⟩
    · exact Nat.mul_mod_left base pageSize
    · simp only [firstFrame, reservedFloor, pageSize] at hfloor ⊢
      omega
    · simp only [maxFrames, maxBytes, pageSize] at hmanaged ⊢
      omega
    · -- the run was free, and held frames are in use
      intro k hk hheld
      rw [hbase] at hheld
      have hclear := hgrants.clear (base + k) (by omega) (by omega)
      rw [(hinv.held _ hheld).2] at hclear
      cases hclear

theorem Inv.free (hinv : h.Inv) (phys : UInt32) :
    ∃ h' addr, h.step (.free phys) = some (h', addr) ∧ h'.Inv ∧ h.Sound (.free phys) h' addr := by
  refine ⟨_, _, rfl, ⟨hinv.counted.pmmFree _, fun i hi => ?_⟩, fun hrej => ?_⟩
  · have hold : i ∈ h.held := by
      split at hi
      · exact Finset.mem_of_mem_erase hi
      · exact hi
    obtain ⟨hlt, hbit⟩ := hinv.held i hold
    refine ⟨hlt, ?_⟩
    by_cases hrej : h.pmm.Rejected phys.toNat
    · rwa [Pmm.pmmFree_of_rejected hrej]
    -- an accepted address is aligned, so its frame is not held any more
    have halign : phys.toNat % pageSize = 0 := by
      by_contra hne
      exact hrej (Or.inl hne)
    simp only [halign, if_true, Finset.mem_erase] at hi
    rw [Pmm.pmmFree_of_accepted hrej, Pmm.giveFrame_bits, if_neg hi.1]
    exact hbit
  · exact Pmm.pmmFree_of_rejected hrej

/-- A call that meets the condition returns, keeps its promise and the invariant. -/
theorem Inv.step (hinv : h.Inv) {op : Op} (hop : op.NoWrap) :
    ∃ h' addr, h.step op = some (h', addr) ∧ h'.Inv ∧ h.Sound op h' addr := by
  cases op with
  | alloc =>
    obtain ⟨hinv', hfresh⟩ := hinv.hand (Pmm.pmmAlloc_spec h.pmm)
    exact ⟨_, _, rfl, hinv', hfresh⟩
  | allocContiguous count =>
    obtain ⟨m, addr, hreturns, halloc⟩ := Pmm.pmmAllocContiguous_spec h.pmm hop
    obtain ⟨hinv', hfresh⟩ := hinv.hand halloc
    refine ⟨_, addr, ?_, hinv', hfresh⟩
    simp only [Holdings.step, hreturns]
    rfl
  | allocLow =>
    obtain ⟨halloc, hlow⟩ := Pmm.pmmAllocLow_spec h.pmm
    obtain ⟨hinv', hfresh⟩ := hinv.hand halloc
    exact ⟨_, _, rfl, hinv', fun hne => ⟨hfresh hne, hlow⟩⟩
  | free phys => exact hinv.free phys

end Holdings

/-- All memory from 1 MiB to the limit is available. -/
def allAvailable : MmapEntry := ⟨0x100000, 0xFF00000, 1⟩

theorem allAvailable_wellFormed :
    WellFormed smallKernel (oneEntry allAvailable) 0x10000 [allAvailable] where
  fits := by decide
  tags := by
    have hmap := @TagsAt.mmap (oneEntry allAvailable) 0x10038 0x10008 1 [] (by decide) (by decide)
      (by decide) (by decide) (by decide) (by decide) (.endTag (by decide) (by decide))
    exact hmap
  apart := by decide

/-- After initialisation from any structure, in every state that calls which meet the condition
can reach: the counter is the number of clear bits, and every further such call returns and
keeps its promise. -/
theorem allocator_hands_out_unheld_frames {lay : Layout} {mem : Buf} {info fuel : Nat}
    {m₀ m : Pmm} (hinit : pmmInitFromMb2 lay mem info fuel m₀ = .ok m) {ops : List Op}
    {h : Holdings} (hrun : Run GuardedCall ⟨m, ∅⟩ ops h) :
    h.pmm.Counted ∧
      ∀ op : Op, op.NoWrap → ∃ h' addr, h.step op = some (h', addr) ∧ h.Sound op h' addr := by
  have hstart : Holdings.Inv ⟨m, ∅⟩ :=
    ⟨pmmInitFromMb2_counted hinit, fun i hi => absurd hi (Finset.notMem_empty i)⟩
  have hinv : h.Inv := by
    refine hrun.invariant ?_ hstart
    rintro h op h' hinv ⟨hop, addr, hstep⟩
    obtain ⟨h₁, addr₁, hstep₁, hinv₁, -⟩ := hinv.step hop
    rw [hstep] at hstep₁
    cases hstep₁
    exact hinv₁
  refine ⟨hinv.counted, fun op hop => ?_⟩
  obtain ⟨h', addr, hstep, -, hsound⟩ := hinv.step hop
  exact ⟨h', addr, hstep, hsound⟩

/-- On a machine with 256 MiB, after one frame has been handed out, there are two in a row that nobody
holds. -/
theorem second_allocation_is_unheld :
    ∃ m h addr h' addr', pmmInitFromMb2 smallKernel (oneEntry allAvailable) 0x10000 56
        ⟨fun _ => true, 0⟩ = .ok m ∧
      Holdings.step ⟨m, ∅⟩ .alloc = some (h, addr) ∧
      h.step (.allocContiguous 2) = some (h', addr') ∧ addr' ≠ 0 ∧ h.Fresh addr' 2 := by
  obtain ⟨m, hinit, -, hbits⟩ := pmmInitFromMb2_spec allAvailable_wellFormed
    (by decide : getLe 4 (oneEntry allAvailable) 0x10000 ≤ 56) ⟨fun _ => true, 0⟩
  have hclear : ∀ i, 0x8000 ≤ i → i < 0x8004 → m.bits i = false := by
    intro i hlo hhi
    obtain rfl | rfl | rfl | rfl : i = 0x8000 ∨ i = 0x8001 ∨ i = 0x8002 ∨ i = 0x8003 := by omega
    all_goals exact (hbits _ (by decide)).mpr (by decide +kernel)
  -- The first call has taken a frame of one of two pairs at most.
  have hrun : ∃ b, firstFrame ≤ b ∧ m.pmmAlloc.1.FreeRun b 2 := by
    rcases m.pmmAlloc_spec with ⟨-, hsame⟩ | ⟨base, -, hgrants⟩
    · rw [hsame]
      exact ⟨0x8000, by decide, by decide, fun i hlo hhi => hclear i hlo (by omega)⟩
    rcases Nat.lt_or_ge base 0x8002 with hbase | hbase
    · refine ⟨0x8002, by decide, by decide, fun i hlo hhi => ?_⟩
      rw [hgrants.bits, if_neg (by omega)]
      exact hclear i (by omega) hhi
    · refine ⟨0x8000, by decide, by decide, fun i hlo hhi => ?_⟩
      rw [hgrants.bits, if_neg (by omega)]
      exact hclear i hlo (by omega)
  have hcall : GuardedCall ⟨m, ∅⟩ .alloc (Holdings.hand ⟨m, ∅⟩ m.pmmAlloc.1 m.pmmAlloc.2 1) :=
    ⟨trivial, _, rfl⟩
  obtain ⟨h', addr', hstep, hsound⟩ :=
    (allocator_hands_out_unheld_frames hinit (.single hcall)).2 (.allocContiguous 2)
      (by decide : firstFrame + 2 < 2 ^ 32)
  have hne : addr' ≠ 0 := by
    obtain ⟨b, hfloor, hfree⟩ := hrun
    obtain ⟨m', addr, hreturns, ⟨base, rfl, hgrants, -⟩ | ⟨hnone, -⟩⟩ :=
      m.pmmAlloc.1.pmmAllocContiguous_firstFit (le_refl 2) (by decide)
    · have hmap : (m.pmmAlloc.1.pmmAllocContiguous 2).map _ = some (h', addr') := hstep
      rw [hreturns] at hmap
      cases hmap
      have hbase := hgrants.floor
      simp only [firstFrame, pageSize] at hbase ⊢
      omega
    · exact absurd hfree (hnone b hfloor)
  exact ⟨m, _, _, h', addr', hinit, rfl, hstep, hne, hsound hne⟩

/-! ## A request that wraps -/

section wraps

theorem Pmm.pmmFree_frame_bits (m : Pmm) {i : Nat} (hfloor : firstFrame ≤ i) (hi : i < maxFrames)
    (j : Nat) : (m.pmmFree (i * pageSize)).bits j = if j = i then false else m.bits j := by
  have hframe : i * pageSize / pageSize = i := Nat.mul_div_cancel i (by decide)
  by_cases hrej : m.Rejected (i * pageSize)
  · -- of the reasons to reject only one is left: the frame is free already
    have hbit : m.bits i = false := by
      rcases hrej with h | h | h | h
      · exact absurd (Nat.mul_mod_left i pageSize) h
      · simp only [pageSize, reservedFloor, firstFrame] at h hfloor
        omega
      · simp only [pageSize, maxBytes, maxFrames] at h hi
        omega
      · rwa [hframe] at h
    rw [Pmm.pmmFree_of_rejected hrej]
    by_cases hj : j = i
    · rw [if_pos hj, hj, hbit]
    · rw [if_neg hj]
  · rw [Pmm.pmmFree_of_accepted hrej, hframe, Pmm.giveFrame_bits]

/-- The call that frees frame `i`. -/
def freeOf (i : Nat) : Op := .free (UInt32.ofNat (i * pageSize))

/-- Freeing one managed frame after the other clears their bits. -/
theorem freeOf_run (is : List Nat) (his : ∀ i ∈ is, firstFrame ≤ i ∧ i < maxFrames)
    (h : Holdings) :
    ∃ h', Run (fun h op h' => ∃ addr, h.step op = some (h', addr)) h (is.map freeOf) h' ∧
      ∀ j, h'.pmm.bits j = if j ∈ is then false else h.pmm.bits j := by
  induction is generalizing h with
  | nil => exact ⟨h, .nil h, fun j => by simp⟩
  | cons i is ih =>
    obtain ⟨hfloor, hi⟩ := his i (.head _)
    have hphys : (UInt32.ofNat (i * pageSize)).toNat = i * pageSize := by
      exact Pmm.u32_frame hi.le
    obtain ⟨h', hrun, hbits⟩ := ih (fun j hj => his j (.tail _ hj))
      { pmm := h.pmm.pmmFree (UInt32.ofNat (i * pageSize)).toNat
        held := if (UInt32.ofNat (i * pageSize)).toNat % pageSize = 0 then
          h.held.erase ((UInt32.ofNat (i * pageSize)).toNat / pageSize) else h.held }
    refine ⟨h', .cons ⟨0, rfl⟩ hrun, fun j => ?_⟩
    rw [hbits]
    rw [hphys, Pmm.pmmFree_frame_bits _ hfloor hi]
    by_cases hj : j = i <;> simp [hj]

end wraps

/-- The memory behind the bitmap is clear, and the frames of the kernel image are freed one by
one. A request for `0xFFFFFF00` frames then wraps: the search passes its bound, counts through
the bitmap and 512 MiB behind it, and hands out memory that is not managed. -/
theorem wrapping_request_leaves_managed_memory :
    ∃ m ops h h', pmmInitFromMb2 smallKernel (oneEntry allAvailable) 0x10000 56 ⟨fun _ => false, 0⟩ =
        .ok m ∧
      Run (fun h op h' => ∃ addr, Holdings.step h op = some (h', addr)) ⟨m, ∅⟩ ops h ∧
      h.step (.allocContiguous 0xFFFFFF00) = some (h', 0x100000) ∧
      ¬ h.Sound (.allocContiguous 0xFFFFFF00) h' 0x100000 := by
  obtain ⟨m, hinit, hbehind, hbits⟩ := pmmInitFromMb2_spec allAvailable_wellFormed
    (by decide : getLe 4 (oneEntry allAvailable) 0x10000 ≤ 56) ⟨fun _ => false, 0⟩
  obtain ⟨h, hrun, hfreed⟩ := freeOf_run (List.range' 256 128) (by
    intro i hi
    rw [List.mem_range'_1] at hi
    simp only [firstFrame, maxFrames]
    omega) ⟨m, ∅⟩
  have hclear : ∀ i, firstFrame ≤ i → i < 2 ^ 32 → h.pmm.bits i = false := by
    intro i hfloor _
    rw [hfreed]
    split
    · rfl
    next hout =>
    rw [List.mem_range'_1] at hout
    by_cases hi : i < maxFrames
    · -- an available frame behind the kernel image
      refine (hbits i hi).mpr ⟨⟨allAvailable, .head _, rfl, by decide, ?_⟩, ?_⟩
      · simp only [Touches, allAvailable, pageSize, maxFrames, firstFrame] at hfloor hi ⊢
        omega
      · have htotal : getLe 4 (oneEntry allAvailable) 0x10000 = 56 := by decide
        simp only [Reserved, htotal, Touches, smallKernel, kernelStart, bitmapSize, pageSize,
          firstFrame] at hfloor ⊢
        omega
    · exact hbehind i (Nat.le_of_not_lt hi)
  have hcount : (0xFFFFFF00 : UInt32).toNat = 2 ^ 32 - 256 := by decide
  have hreturns : h.pmm.pmmAllocContiguous (2 ^ 32 - 256) =
      some (h.pmm.takeRun firstFrame (2 ^ 32 - 256), 0x100000) := by
    refine Pmm.pmmAllocContiguous_wraps (by decide) (by decide) fun k hk => ?_
    rw [u32_of_lt (by simp only [firstFrame]; omega)]
    exact hclear _ (Nat.le_add_right _ _) (by simp only [firstFrame]; omega)
  have hstep : h.step (.allocContiguous 0xFFFFFF00) =
      some (h.hand (h.pmm.takeRun firstFrame (2 ^ 32 - 256)) 0x100000 (2 ^ 32 - 256), 0x100000) := by
    simp only [Holdings.step, hcount, hreturns, Option.map_some]
  refine ⟨m, _, h, _, hinit, hrun, hstep, fun hsound => ?_⟩
  have hmanaged := (hsound (by decide)).managed
  simp only [pageSize, maxBytes] at hmanaged
  omega

end TinyOS.Mem
