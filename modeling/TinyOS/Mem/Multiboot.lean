import TinyOS.Lib.Bytes
import TinyOS.Mem.Frames

/-!
# The physical memory manager: initialisation

`pmm_init_from_mb2` walks the tags of the multiboot2 information structure, frees what its
memory map calls available, and then reserves the first megabyte, the kernel image, the
bitmap and the structure itself.

`pmmInitFromMb2_spec` says which frames are free afterwards, for a structure whose tags
are well formed (`WellFormed`).
-/

namespace TinyOS.Mem

open Lib

/-- `struct mb2_mmap_entry`. -/
structure MmapEntry where
  addr : Nat
  len : Nat
  type : Nat
deriving DecidableEq, Repr

/-- `_kernel_start`, where the linker script puts the image. -/
def kernelStart : Nat := 0x100000

/-- `sizeof(bitmap)`. -/
def bitmapSize : Nat := 8192

/-- The addresses the linker chooses, as far as `linker.ld` constrains them: the boot stack
and the bitmap are part of `.bss`, which ends the image. -/
structure Layout where
  kernelEnd : Nat
  stackBottom : Nat
  stackTop : Nat
  bitmap : Nat
  image_size : kernelEnd < kernelStart + 0x2000000
  stack_in : kernelStart ≤ stackBottom ∧ stackBottom ≤ stackTop ∧ stackTop ≤ kernelEnd
  bitmap_in : kernelStart ≤ bitmap ∧ bitmap + bitmapSize ≤ kernelEnd
  bitmap_aligned : bitmap % pageSize = 0

/-- How `pmm_init_from_mb2` fails to return. -/
inductive InitError
  /-- A tag or entry of size 0 keeps a walk where it is. -/
  | unending
  /-- `kernel_panic("Boot stack outside kernel reservation")` -/
  | bootStack
deriving DecidableEq, Repr

/-- The entry at `q`. -/
def readEntry (mem : Buf) (q : Nat) : MmapEntry where
  addr := getLe 8 mem q
  len := getLe 8 mem (q + 8)
  type := getLe 4 mem (q + 16)

/-- `x & ~0xFFFu` -/
def pageFloor (x : Nat) : Nat := x / pageSize * pageSize

/-- `(x + 0xFFFu) & ~0xFFFu` -/
def pageCeil (x : Nat) : Nat := u32 (x + 0xFFF) / pageSize * pageSize

namespace Pmm

/-- Every frame in use. -/
def pessimistic (m : Pmm) : Pmm where
  bits i := if i < maxFrames then true else m.bits i
  framesFree := 0

/-- The body of the loop over entries: free what is available below the limit. -/
def freeEntry (m : Pmm) (e : MmapEntry) : Pmm :=
  if e.type = 1 then
    if e.addr ≥ maxBytes then m
    else
      let room := maxBytes - e.addr
      let use := if e.len < room then e.len else room
      if use ≠ 0 then m.pmmMarkFree e.addr use else m
  else m

/-- `while (q + mm->entry_size <= qe) …`. `none` is a walk that goes on after `fuel` turns. -/
def walkEntries (mem : Buf) (stride qe : Nat) : (fuel : Nat) → Pmm → (q : Nat) → Option Pmm
  | 0, _, _ => none
  | fuel + 1, m, q =>
    if u32 (q + stride) ≤ qe then
      walkEntries mem stride qe fuel (m.freeEntry (readEntry mem q)) (u32 (q + stride))
    else some m

/-- `while (p + sizeof(struct mb2_tag) <= end) …` -/
def walkTags (mem : Buf) (last : Nat) : (fuel : Nat) → Pmm → (p : Nat) → Option Pmm
  | 0, _, _ => none
  | fuel + 1, m, p =>
    if u32 (p + 8) ≤ last then
      let type := getLe 4 mem p
      let size := getLe 4 mem (p + 4)
      if type = 0 then some m
      else if u32 (p + size) > last then some m
      else do
        let m ← if type = 6 then
            walkEntries mem (getLe 4 mem (p + 8)) (u32 (p + size)) fuel m (u32 (p + 16))
          else some m
        walkTags mem last fuel m (u32 (p + size + 7) / 8 * 8)
    else some m

/-- The reservation of the bitmap, and in the same words of the multiboot structure. -/
def reserveRegion (m : Pmm) (phys size : Nat) : Pmm :=
  let start := pageFloor phys
  let stop := pageCeil (if size > 0xFFFFFFFF - phys then 0xFFFFFFFF else phys + size)
  m.pmmMarkUsed start (u32 (stop + 2 ^ 32 - start))

/-- `RESERVATION 2`: the kernel image. -/
def reserveKernel (m : Pmm) (lay : Layout) : Pmm :=
  let kStart := pageFloor kernelStart
  let kEnd := pageCeil lay.kernelEnd
  if kEnd > kStart then m.pmmMarkUsed kStart (kEnd - kStart) else m

end Pmm

/-- `pmm_init_from_mb2(info)`, where `mem` holds the structure and `m₀` what memory holds
before. -/
def pmmInitFromMb2 (lay : Layout) (mem : Buf) (info fuel : Nat) (m₀ : Pmm) :
    Except InitError Pmm :=
  let total := getLe 4 mem info
  match Pmm.walkTags mem (u32 (info + total)) fuel m₀.pessimistic (u32 (info + 8)) with
  | none => .error .unending
  | some m =>
    let m := m.pmmMarkUsed 0 0x100000
    let m := m.reserveKernel lay
    if lay.stackBottom < pageFloor kernelStart ∨ lay.stackTop > pageCeil lay.kernelEnd then
      .error .bootStack
    else
      let m := m.reserveRegion lay.bitmap bitmapSize
      .ok (m.reserveRegion info total)

/-! ## The counter after initialisation -/

namespace Pmm

variable {m : Pmm}

theorem pessimistic_counted (m : Pmm) : m.pessimistic.Counted := by
  have hempty : m.pessimistic.freeSet = ∅ := by
    ext i
    simp only [mem_freeSet, Finset.notMem_empty, iff_false, not_and]
    intro hi
    simp [pessimistic, hi]
  rw [Counted, hempty]
  rfl

theorem Counted.freeEntry (h : m.Counted) (e : MmapEntry) : (m.freeEntry e).Counted := by
  simp only [Pmm.freeEntry]
  split_ifs <;> first | exact h | exact h.markRange _ _ _

theorem Counted.walkEntries {mem : Buf} {stride qe fuel q : Nat} {m' : Pmm} (h : m.Counted)
    (hwalk : Pmm.walkEntries mem stride qe fuel m q = some m') : m'.Counted := by
  induction fuel generalizing m q with
  | zero => cases hwalk
  | succ fuel ih =>
    rw [Pmm.walkEntries] at hwalk
    split at hwalk
    · exact ih (h.freeEntry _) hwalk
    · cases hwalk
      exact h

theorem Counted.walkTags {mem : Buf} {last fuel p : Nat} {m' : Pmm} (h : m.Counted)
    (hwalk : Pmm.walkTags mem last fuel m p = some m') : m'.Counted := by
  induction fuel generalizing m p with
  | zero => cases hwalk
  | succ fuel ih =>
    simp only [Pmm.walkTags] at hwalk
    split_ifs at hwalk with hroom hend hsize hmmap
    · cases hwalk
      exact h
    · cases hwalk
      exact h
    · obtain ⟨m₁, hentries, hrest⟩ := Option.bind_eq_some_iff.mp hwalk
      exact ih (h.walkEntries hentries) hrest
    · exact ih h hwalk
    · cases hwalk
      exact h

theorem Counted.reserveKernel (h : m.Counted) (lay : Layout) : (m.reserveKernel lay).Counted := by
  simp only [Pmm.reserveKernel]
  split
  · exact h.markRange _ _ _
  · exact h

end Pmm

/-- On any structure, if it returns at all, initialisation leaves a correct counter. -/
theorem pmmInitFromMb2_counted {lay : Layout} {mem : Buf} {info fuel : Nat} {m₀ m : Pmm}
    (h : pmmInitFromMb2 lay mem info fuel m₀ = .ok m) : m.Counted := by
  simp only [pmmInitFromMb2] at h
  split at h
  · cases h
  next m₁ hwalk =>
  split at h
  · cases h
  cases h
  have hwalked := (m₀.pessimistic_counted).walkTags hwalk
  have hkernel := (hwalked.markRange 0 0x100000 true).reserveKernel lay
  exact (hkernel.markRange _ _ _).markRange _ _ _

/-! ## Well-formed structures -/

/-- The `n` entries from `q` on. -/
def entriesAt (mem : Buf) (stride : Nat) : (n q : Nat) → List MmapEntry
  | 0, _ => []
  | n + 1, q => readEntry mem q :: entriesAt mem stride n (q + stride)

/-- From `p` on, up to `last`, there are well-formed tags: each keeps within the structure, the
last one is the end tag, and `es` are the entries of the memory maps among them. Where an entry
behind the last one of a map would end is still an address (`haddress`). -/
inductive TagsAt (mem : Buf) (last : Nat) : (p : Nat) → (es : List MmapEntry) → Prop
  | endTag {p : Nat} (hroom : p + 8 ≤ last) (htype : getLe 4 mem p = 0) : TagsAt mem last p []
  | mmap {p n : Nat} {es : List MmapEntry} (htype : getLe 4 mem p = 6)
      (hstride : 24 ≤ getLe 4 mem (p + 8))
      (hsize : 16 + n * getLe 4 mem (p + 8) ≤ getLe 4 mem (p + 4))
      (hfull : getLe 4 mem (p + 4) < 16 + (n + 1) * getLe 4 mem (p + 8))
      (haddress : p + 16 + (n + 1) * getLe 4 mem (p + 8) < 2 ^ 32)
      (hfits : p + getLe 4 mem (p + 4) ≤ last)
      (hnext : TagsAt mem last ((p + getLe 4 mem (p + 4) + 7) / 8 * 8) es) :
      TagsAt mem last p (entriesAt mem (getLe 4 mem (p + 8)) n (p + 16) ++ es)
  | other {p : Nat} {es : List MmapEntry} (hend : getLe 4 mem p ≠ 0) (hmmap : getLe 4 mem p ≠ 6)
      (hsize : 8 ≤ getLe 4 mem (p + 4)) (hfits : p + getLe 4 mem (p + 4) ≤ last)
      (hnext : TagsAt mem last ((p + getLe 4 mem (p + 4) + 7) / 8 * 8) es) :
      TagsAt mem last p es

/-- A multiboot2 information structure at `info` with the memory-map entries `es`. It lies in the
32-bit address space, and the boot loader did not put it over the kernel image. -/
structure WellFormed (lay : Layout) (mem : Buf) (info : Nat) (es : List MmapEntry) : Prop where
  fits : info + getLe 4 mem info < 2 ^ 32
  tags : TagsAt mem (info + getLe 4 mem info) (info + 8) es
  apart : info + getLe 4 mem info ≤ kernelStart ∨ lay.kernelEnd ≤ info

theorem TagsAt.room {mem : Buf} {last p : Nat} {es : List MmapEntry} (h : TagsAt mem last p es) :
    p + 8 ≤ last := by
  cases h with
  | endTag hroom htype => exact hroom
  | mmap htype hstride hsize hfull haddress hfits hnext => omega
  | other hend hmmap hsize hfits hnext => omega

namespace Pmm

variable {mem : Buf}

/-- The walk over the entries of a map frees each of them, in order. -/
theorem walkEntries_eq {stride qe : Nat} (n fuel q : Nat) (m : Pmm)
    (hin : q + n * stride ≤ qe) (hfull : qe < q + (n + 1) * stride)
    (haddress : q + (n + 1) * stride < 2 ^ 32) (hfuel : n < fuel) :
    walkEntries mem stride qe fuel m q = some ((entriesAt mem stride n q).foldl freeEntry m) := by
  obtain ⟨fuel, rfl⟩ : ∃ k, fuel = k + 1 := ⟨fuel - 1, by omega⟩
  induction n generalizing m q fuel with
  | zero =>
    rw [Nat.zero_add, Nat.one_mul] at hfull haddress
    rw [walkEntries, u32_of_lt haddress, if_neg (by omega)]
    rfl
  | succ n ih =>
    have hstep : q + stride + n * stride = q + (n + 1) * stride := by
      rw [Nat.add_one_mul]
      omega
    have hlast : q + stride + (n + 1) * stride = q + (n + 1 + 1) * stride := by
      rw [Nat.add_one_mul (n + 1)]
      omega
    rw [walkEntries, u32_of_lt (by omega), if_pos (by omega)]
    obtain ⟨fuel, rfl⟩ : ∃ k, fuel = k + 1 := ⟨fuel - 1, by omega⟩
    exact ih (q + stride) _ (by omega) (by omega) (by omega) fuel (by omega)

/-- The walk over well-formed tags ends and frees every entry, in order. -/
theorem walkTags_eq {last p fuel : Nat} {es : List MmapEntry} (h : TagsAt mem last p es)
    (hlast : last < 2 ^ 32) (m : Pmm) (hfuel : last < p + fuel) :
    walkTags mem last fuel m p = some (es.foldl freeEntry m) := by
  induction h generalizing m fuel with
  | @endTag p hroom htype =>
    obtain ⟨fuel, rfl⟩ : ∃ k, fuel = k + 1 := ⟨fuel - 1, by omega⟩
    rw [walkTags, u32_of_lt (by omega), if_pos hroom]
    simp only [htype, if_true]
    rfl
  | @mmap p n es htype hstride hsize hfull haddress hfits hnext ih =>
    obtain ⟨fuel, rfl⟩ : ∃ k, fuel = k + 1 := ⟨fuel - 1, by omega⟩
    have hnextRoom := TagsAt.room hnext
    have hn : n ≤ n * getLe 4 mem (p + 8) := Nat.le_mul_of_pos_right n (by omega)
    rw [walkTags, u32_of_lt (show p + 8 < 2 ^ 32 by omega), if_pos (by omega)]
    simp only [htype, if_true]
    rw [if_neg (by omega), u32_of_lt (show p + getLe 4 mem (p + 4) < 2 ^ 32 by omega),
      if_neg (by omega), u32_of_lt (show p + 16 < 2 ^ 32 by omega),
      walkEntries_eq n fuel (p + 16) m (by omega) (by omega) haddress (by omega),
      u32_of_lt (show p + getLe 4 mem (p + 4) + 7 < 2 ^ 32 by omega), List.foldl_append]
    exact ih _ (by omega)
  | @other p es hend hmmap hsize hfits hnext ih =>
    obtain ⟨fuel, rfl⟩ : ∃ k, fuel = k + 1 := ⟨fuel - 1, by omega⟩
    have hnextRoom := TagsAt.room hnext
    rw [walkTags, u32_of_lt (show p + 8 < 2 ^ 32 by omega), if_pos (by omega)]
    simp only [hend, hmmap, if_false]
    rw [u32_of_lt (show p + getLe 4 mem (p + 4) < 2 ^ 32 by omega), if_neg (by omega),
      u32_of_lt (show p + getLe 4 mem (p + 4) + 7 < 2 ^ 32 by omega)]
    exact ih _ (by omega)

end Pmm

/-! ## Which frames are free -/

/-- Frame `i` shares a byte with the addresses from `lo` to `hi`. -/
def Touches (i lo hi : Nat) : Prop := lo < (i + 1) * pageSize ∧ i * pageSize < hi

instance (i lo hi : Nat) : Decidable (Touches i lo hi) := inferInstanceAs (Decidable (_ ∧ _))

/-- The entry frees frame `i`: it is available, and some byte of the frame lies in it. -/
def MmapEntry.Frees (e : MmapEntry) (i : Nat) : Prop :=
  e.type = 1 ∧ e.len ≠ 0 ∧ Touches i e.addr (e.addr + e.len)

instance (e : MmapEntry) (i : Nat) : Decidable (e.Frees i) :=
  inferInstanceAs (Decidable (_ ∧ _ ∧ _))

/-- Frame `i` is reserved after the memory map has been read. -/
def Reserved (lay : Layout) (mem : Buf) (info i : Nat) : Prop :=
  Touches i 0 0x100000 ∨ Touches i kernelStart lay.kernelEnd ∨
    Touches i lay.bitmap (lay.bitmap + bitmapSize) ∨ Touches i info (info + getLe 4 mem info)

instance (lay : Layout) (mem : Buf) (info i : Nat) : Decidable (Reserved lay mem info i) :=
  inferInstanceAs (Decidable (_ ∨ _ ∨ _ ∨ _))

namespace Pmm

variable {i phys size : Nat}

/-- `mark_range` rounds outward: it marks every frame that shares a byte with the range. -/
theorem inRange_iff (hi : i < maxFrames) (h : phys + size ≤ 0xFFFFF000) :
    (phys / pageSize ≤ i ∧ i < clampedEnd phys size) ↔ Touches i phys (phys + size) := by
  have hend : rangeEnd phys size = (phys + size + pageSize - 1) / pageSize := by
    simp only [rangeEnd]
    rw [if_neg (by omega), if_neg (by simp only [pageSize]; omega)]
  simp only [clampedEnd, hend, Touches, pageSize, maxFrames] at hi ⊢
  omega

theorem pmmMarkUsed_bits (m : Pmm) (hi : i < maxFrames) (h : phys + size ≤ 0xFFFFF000) :
    (m.pmmMarkUsed phys size).bits i = false ↔
      m.bits i = false ∧ ¬ Touches i phys (phys + size) := by
  rw [pmmMarkUsed, markRange_bits]
  simp only [inRange_iff hi h]
  split
  · next ht => simp [ht]
  · next ht => simp [ht]

theorem pmmMarkFree_bits (m : Pmm) (hi : i < maxFrames) (h : phys + size ≤ 0xFFFFF000) :
    (m.pmmMarkFree phys size).bits i = false ↔
      m.bits i = false ∨ Touches i phys (phys + size) := by
  rw [pmmMarkFree, markRange_bits]
  simp only [inRange_iff hi h]
  split
  · next ht => simp [ht]
  · next ht => simp [ht]

theorem freeEntry_bits (m : Pmm) (e : MmapEntry) (hi : i < maxFrames) :
    (m.freeEntry e).bits i = false ↔ m.bits i = false ∨ e.Frees i := by
  simp only [freeEntry]
  split
  · split
    · next hbeyond =>
      -- the entry begins behind every managed frame
      have hnot : ¬ e.Frees i := by
        simp only [MmapEntry.Frees, Touches, pageSize, maxFrames, maxBytes] at hi hbeyond ⊢
        omega
      simp [hnot]
    · next hbelow =>
      have huse : (if e.len < maxBytes - e.addr then e.len else maxBytes - e.addr) =
          min e.len (maxBytes - e.addr) := by
        split <;> omega
      rw [huse]
      split
      · next hnonempty =>
        have htouch : Touches i e.addr (e.addr + min e.len (maxBytes - e.addr)) ↔ e.Frees i := by
          simp only [MmapEntry.Frees, Touches, pageSize, maxFrames, maxBytes] at hi hbelow hnonempty ⊢
          omega
        rw [pmmMarkFree_bits m hi (by simp only [maxBytes] at hbelow ⊢; omega), htouch]
      · next hempty =>
        have hnot : ¬ e.Frees i := by
          simp only [MmapEntry.Frees, maxBytes] at hbelow hempty ⊢
          omega
        simp [hnot]
  · next htype =>
    have hnot : ¬ e.Frees i := fun h => htype h.1
    simp [hnot]

theorem foldl_freeEntry_bits (hi : i < maxFrames) (es : List MmapEntry) (m : Pmm) :
    (es.foldl freeEntry m).bits i = false ↔ m.bits i = false ∨ ∃ e ∈ es, e.Frees i := by
  induction es generalizing m with
  | nil => simp
  | cons e es ih =>
    rw [List.foldl_cons, ih, freeEntry_bits m e hi, or_assoc]
    simp

theorem reserveRegion_bits (m : Pmm) (hi : i < maxFrames)
    (hfits : phys + size < 2 ^ 32) (hstart : phys < pageSize → phys + size ≤ 0xFFFFF000) :
    (m.reserveRegion phys size).bits i = false ↔
      m.bits i = false ∧ ¬ Touches i phys (phys + size) := by
  simp only [reserveRegion]
  rw [if_neg (by omega)]
  by_cases hwrap : phys + size ≤ 0xFFFFF000
  · have hceil : u32 (phys + size + 0xFFF) = phys + size + 0xFFF := u32_of_lt (by omega)
    have hsize : u32 (pageCeil (phys + size) + 2 ^ 32 - pageFloor phys) =
        pageCeil (phys + size) - pageFloor phys := by
      simp only [pageCeil, pageFloor, u32, pageSize]
      omega
    rw [hsize, pmmMarkUsed_bits m hi (by
      simp only [pageCeil, pageFloor, hceil, pageSize]; omega)]
    simp only [pageCeil, pageFloor, hceil, Touches, pageSize]
    exact and_congr_right fun _ => not_congr (by omega)
  · -- the end rounds up to the end of the address space, and the size wraps accordingly
    have hceil : pageCeil (phys + size) = 0 := by
      simp only [pageCeil, u32, pageSize]
      omega
    have hpos : pageSize ≤ phys := Nat.le_of_not_lt fun h => hwrap (hstart h)
    have hsize : u32 (0 + 2 ^ 32 - pageFloor phys) = 2 ^ 32 - pageFloor phys := by
      apply u32_of_lt
      simp only [pageFloor, pageSize] at hpos ⊢
      omega
    have hend : clampedEnd (pageFloor phys) (2 ^ 32 - pageFloor phys) = maxFrames := by
      simp only [clampedEnd, rangeEnd]
      rw [if_pos (by simp only [pageFloor, pageSize]; omega), Nat.min_self]
    rw [hceil, hsize, pmmMarkUsed, markRange_bits, hend]
    have htouch : (pageFloor phys / pageSize ≤ i ∧ i < maxFrames) ↔
        Touches i phys (phys + size) := by
      simp only [Touches, pageFloor, pageSize, maxFrames] at hi ⊢
      omega
    simp only [htouch]
    by_cases ht : Touches i phys (phys + size) <;> simp [ht]

theorem reserveKernel_bits (m : Pmm) (lay : Layout) (hi : i < maxFrames) :
    (m.reserveKernel lay).bits i = false ↔
      m.bits i = false ∧ ¬ Touches i kernelStart lay.kernelEnd := by
  have himage := lay.image_size
  have hbitmap := lay.bitmap_in
  simp only [kernelStart, bitmapSize] at himage hbitmap
  have hceil : u32 (lay.kernelEnd + 0xFFF) = lay.kernelEnd + 0xFFF := u32_of_lt (by omega)
  simp only [reserveKernel, pageFloor, pageCeil, hceil, kernelStart]
  rw [if_pos (by simp only [pageSize]; omega),
    pmmMarkUsed_bits m hi (by simp only [pageSize]; omega)]
  simp only [Touches, pageSize]
  exact and_congr_right fun _ => not_congr (by omega)

/-! ### Behind the bitmap -/

/-- The bits behind the bitmap are as they were. -/
def KeepsBehind (m m' : Pmm) : Prop := ∀ i, maxFrames ≤ i → m'.bits i = m.bits i

theorem KeepsBehind.markRange {m m' : Pmm} (h : KeepsBehind m m') (phys size : Nat) (used : Bool) :
    KeepsBehind m (m'.markRange phys size used) := by
  intro i hi
  have hend := clampedEnd_le phys size
  rw [markRange_bits, if_neg (by omega)]
  exact h i hi

theorem KeepsBehind.foldl_freeEntry {m m' : Pmm} (h : KeepsBehind m m') (es : List MmapEntry) :
    KeepsBehind m (es.foldl freeEntry m') := by
  refine List.foldlRecOn es _ h fun m₁ h e _ => ?_
  simp only [freeEntry]
  split_ifs <;> first | exact h | exact h.markRange _ _ _

theorem KeepsBehind.reserveKernel {m m' : Pmm} (h : KeepsBehind m m') (lay : Layout) :
    KeepsBehind m (m'.reserveKernel lay) := by
  simp only [Pmm.reserveKernel]
  split
  · exact h.markRange _ _ _
  · exact h

end Pmm

/-- Initialisation from a well-formed structure returns. A frame is free afterwards if an
available entry shares a byte with it, whatever else does, unless it is reserved. -/
theorem pmmInitFromMb2_spec {lay : Layout} {mem : Buf} {info fuel : Nat} {es : List MmapEntry}
    (h : WellFormed lay mem info es) (hfuel : getLe 4 mem info ≤ fuel) (m₀ : Pmm) :
    ∃ m, pmmInitFromMb2 lay mem info fuel m₀ = .ok m ∧ Pmm.KeepsBehind m₀ m ∧
      ∀ i < maxFrames,
        (m.bits i = false ↔ (∃ e ∈ es, e.Frees i) ∧ ¬ Reserved lay mem info i) := by
  have hfits := h.fits
  have hroom := TagsAt.room h.tags
  have hstack := lay.stack_in
  have himage := lay.image_size
  have hbitmap := lay.bitmap_in
  have hapart := h.apart
  have hceil : u32 (lay.kernelEnd + 0xFFF) = lay.kernelEnd + 0xFFF := by
    apply u32_of_lt
    simp only [kernelStart] at himage
    omega
  have hwalk := Pmm.walkTags_eq h.tags hfits m₀.pessimistic (by omega : _ < info + 8 + fuel)
  -- the boot stack lies in the image, so there is no panic
  have hpanic : ¬ (lay.stackBottom < pageFloor kernelStart ∨ lay.stackTop > pageCeil lay.kernelEnd) := by
    simp only [pageFloor, pageCeil, hceil, pageSize, kernelStart] at hstack ⊢
    omega
  refine ⟨((((es.foldl Pmm.freeEntry m₀.pessimistic).pmmMarkUsed 0 0x100000).reserveKernel
    lay).reserveRegion lay.bitmap bitmapSize).reserveRegion info (getLe 4 mem info), ?_, ?_, ?_⟩
  · simp only [pmmInitFromMb2]
    rw [u32_of_lt hfits, u32_of_lt (by omega), hwalk]
    exact if_neg hpanic
  · have hstart : Pmm.KeepsBehind m₀ m₀.pessimistic := by
      intro i hi
      exact if_neg (Nat.not_lt.mpr hi)
    exact ((((hstart.foldl_freeEntry es).markRange _ _ _).reserveKernel lay).markRange _ _ _).markRange
      _ _ _
  · intro i hi
    simp only [kernelStart, bitmapSize] at himage hbitmap hapart
    rw [Pmm.reserveRegion_bits _ hi hfits (by simp only [pageSize]; omega),
      Pmm.reserveRegion_bits _ hi (by simp only [bitmapSize]; omega)
        (by simp only [pageSize, bitmapSize]; omega),
      Pmm.reserveKernel_bits _ lay hi, Pmm.pmmMarkUsed_bits _ hi (by omega),
      Pmm.foldl_freeEntry_bits hi]
    have hused : m₀.pessimistic.bits i = true := if_pos hi
    simp only [hused, Reserved, not_or, Bool.true_eq_false, false_or, and_assoc, Nat.zero_add]

/-! ## A small structure -/

/-- A structure at 64 KiB with a memory map of one entry. -/
def oneEntry (e : MmapEntry) : Buf := fun a =>
  let words := [56, 0, 6, 40, 24, 0, e.addr % 2 ^ 32, e.addr / 2 ^ 32, e.len % 2 ^ 32,
    e.len / 2 ^ 32, e.type, 0, 0, 8]
  UInt8.ofNat (words.getD ((a - 0x10000) / 4) 0 / 256 ^ ((a - 0x10000) % 4))

/-- A kernel of half a megabyte that ends with the bitmap. -/
def smallKernel : Layout where
  kernelEnd := 0x180000
  stackBottom := 0x110000
  stackTop := 0x150000
  bitmap := 0x17E000
  image_size := by decide
  stack_in := by decide
  bitmap_in := by decide
  bitmap_aligned := by decide

end TinyOS.Mem
