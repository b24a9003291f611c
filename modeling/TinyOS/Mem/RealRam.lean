import TinyOS.Mem.Multiboot

/-!
# What initialisation frees

`mark_range` rounds a range outward in both directions of its use. When it reserves that is
the safe side; when it frees, a frame that an available range only touches becomes free
as a whole. Entries of other types are not looked at. So the free frames are real memory exactly if
other available ranges fill up the frames that an available range cuts, and no range of another type
reaches into a frame of an available one.
-/

namespace TinyOS.Mem

open Lib

/-- The address lies in the range of the entry. -/
def MmapEntry.Has (e : MmapEntry) (a : Nat) : Prop := e.addr ≤ a ∧ a < e.addr + e.len

/-- Every byte of frame `i` is available memory that nothing else claims. -/
def RealRam (lay : Layout) (mem : Buf) (info : Nat) (es : List MmapEntry) (i : Nat) : Prop :=
  ∀ a, i * pageSize ≤ a → a < (i + 1) * pageSize →
    (∃ e ∈ es, e.type = 1 ∧ e.Has a) ∧ (∀ e ∈ es, e.type ≠ 1 → ¬ e.Has a) ∧
      0x100000 ≤ a ∧ ¬ (kernelStart ≤ a ∧ a < lay.kernelEnd) ∧
      ¬ (lay.bitmap ≤ a ∧ a < lay.bitmap + bitmapSize) ∧
      ¬ (info ≤ a ∧ a < info + getLe 4 mem info)

/-- The range of an available entry begins or ends inside frame `i`. -/
def MmapEntry.Cuts (e : MmapEntry) (i : Nat) : Prop :=
  e.Frees i ∧ (i * pageSize < e.addr ∨ e.addr + e.len < (i + 1) * pageSize)

/-- Some byte of frame `i` lies in the range of an entry of another type. -/
def MmapEntry.Occupies (e : MmapEntry) (i : Nat) : Prop :=
  e.type ≠ 1 ∧ e.len ≠ 0 ∧ Touches i e.addr (e.addr + e.len)

/-- A frame of the map that is not reserved anyway: if an available range cuts it, available ranges
cover it together, and a range of another type keeps away from it if an available one does not. -/
structure CleanFrame (es : List MmapEntry) (i : Nat) : Prop where
  filled : ∀ e ∈ es, e.Cuts i → ∀ a, i * pageSize ≤ a → a < (i + 1) * pageSize →
    ∃ e' ∈ es, e'.type = 1 ∧ e'.Has a
  apart : ∀ e ∈ es, e.Frees i → ∀ e' ∈ es, ¬ e'.Occupies i

/-- Every frame below the limit is clean, or reserved for another reason. -/
def CleanMap (lay : Layout) (mem : Buf) (info : Nat) (es : List MmapEntry) : Prop :=
  ∀ i < maxFrames, ¬ Reserved lay mem info i → CleanFrame es i

theorem touches_of_mem {i a lo hi : Nat} (hlo : i * pageSize ≤ a) (hhi : a < (i + 1) * pageSize)
    (h : lo ≤ a ∧ a < hi) : Touches i lo hi := by
  constructor
  · omega
  · omega

/-- A range that touches a frame has a byte in it. -/
theorem MmapEntry.exists_has {e : MmapEntry} {i : Nat} (hlen : e.len ≠ 0)
    (h : Touches i e.addr (e.addr + e.len)) :
    ∃ a, i * pageSize ≤ a ∧ a < (i + 1) * pageSize ∧ e.Has a := by
  simp only [Touches, Has, pageSize] at *
  exact ⟨max (i * 4096) e.addr, by omega, by omega, by omega, by omega⟩

/-- A reserved frame apart, nothing that initialisation reserves has a byte in the frame. -/
theorem outside_of_not_reserved {lay : Layout} {mem : Buf} {info i a : Nat}
    (h : ¬ Reserved lay mem info i) (hlo : i * pageSize ≤ a) (hhi : a < (i + 1) * pageSize) :
    0x100000 ≤ a ∧ ¬ (kernelStart ≤ a ∧ a < lay.kernelEnd) ∧
      ¬ (lay.bitmap ≤ a ∧ a < lay.bitmap + bitmapSize) ∧
      ¬ (info ≤ a ∧ a < info + getLe 4 mem info) := by
  simp only [Reserved, not_or] at h
  obtain ⟨hfloor, hkernel, hbitmap, hinfo⟩ := h
  refine ⟨?_, fun hmem => hkernel (touches_of_mem hlo hhi hmem),
    fun hmem => hbitmap (touches_of_mem hlo hhi hmem),
    fun hmem => hinfo (touches_of_mem hlo hhi hmem)⟩
  by_contra hlt
  exact hfloor (touches_of_mem hlo hhi ⟨Nat.zero_le a, by omega⟩)

theorem CleanFrame.realRam {lay : Layout} {mem : Buf} {info i : Nat} {es : List MmapEntry}
    {e : MmapEntry} (h : CleanFrame es i) (he : e ∈ es) (hfrees : e.Frees i)
    (hreserved : ¬ Reserved lay mem info i) : RealRam lay mem info es i := by
  intro a hlo hhi
  refine ⟨?_, fun e' he' htype hhas => ?_, outside_of_not_reserved hreserved hlo hhi⟩
  · -- either the range of the entry is the frame and more, or it cuts the frame
    by_cases hcuts : e.Cuts i
    · exact h.filled e he hcuts a hlo hhi
    · simp only [MmapEntry.Cuts, hfrees, true_and, not_or, not_lt] at hcuts
      exact ⟨e, he, hfrees.1, by omega, by omega⟩
  · have hlen : e'.len ≠ 0 := by
      have := hhas.1
      have := hhas.2
      omega
    exact h.apart e he hfrees e' he' ⟨htype, hlen, touches_of_mem hlo hhi hhas⟩

theorem RealRam.cleanFrame {lay : Layout} {mem : Buf} {info i : Nat} {es : List MmapEntry}
    (h : (∃ e ∈ es, e.Frees i) → RealRam lay mem info es i) : CleanFrame es i where
  filled e he hcuts a hlo hhi := (h ⟨e, he, hcuts.1⟩ a hlo hhi).1
  apart e he hfrees e' he' hoccupies := by
    obtain ⟨htype, hlen, htouch⟩ := hoccupies
    obtain ⟨a, hlo, hhi, hhas⟩ := MmapEntry.exists_has hlen htouch
    exact (h ⟨e, he, hfrees⟩ a hlo hhi).2.1 e' he' htype hhas

/-- After initialisation from any well-formed structure, every free frame is real memory exactly if
the memory map is clean. -/
theorem free_frames_are_available_memory_iff {lay : Layout} {mem : Buf} {info fuel : Nat}
    {es : List MmapEntry} (h : WellFormed lay mem info es) (hfuel : getLe 4 mem info ≤ fuel)
    (m₀ : Pmm) :
    ∃ m, pmmInitFromMb2 lay mem info fuel m₀ = .ok m ∧
      ((∀ i < maxFrames, m.bits i = false → RealRam lay mem info es i) ↔
        CleanMap lay mem info es) := by
  obtain ⟨m, hinit, -, hbits⟩ := pmmInitFromMb2_spec h hfuel m₀
  refine ⟨m, hinit, fun hram i hi hreserved => ?_, fun hclean i hi hfree => ?_⟩
  · exact RealRam.cleanFrame fun hfrees => hram i hi ((hbits i hi).mpr ⟨hfrees, hreserved⟩)
  · obtain ⟨⟨e, he, hfrees⟩, hreserved⟩ := (hbits i hi).mp hfree
    exact (hclean i hi hreserved).realRam he hfrees hreserved

/-- Sixteen megabytes from 2 MiB on are available. -/
def wholeFrames : MmapEntry := ⟨0x200000, 0x1000000, 1⟩

theorem wholeFrames_wellFormed :
    WellFormed smallKernel (oneEntry wholeFrames) 0x10000 [wholeFrames] where
  fits := by decide
  tags := @TagsAt.mmap (oneEntry wholeFrames) 0x10038 0x10008 1 [] (by decide) (by decide)
    (by decide) (by decide) (by decide) (by decide) (.endTag (by decide) (by decide))
  apart := by decide

/-- On a map of one range of whole frames, frame 512 is free, and real memory. -/
theorem frame_512_is_available_memory :
    ∃ m, pmmInitFromMb2 smallKernel (oneEntry wholeFrames) 0x10000 56 ⟨fun _ => true, 0⟩ = .ok m ∧
      m.bits 512 = false ∧
      RealRam smallKernel (oneEntry wholeFrames) 0x10000 [wholeFrames] 512 := by
  have hclean : CleanMap smallKernel (oneEntry wholeFrames) 0x10000 [wholeFrames] := by
    refine fun i _ _ => ⟨fun e he hcuts => ?_, fun _ _ _ e' he' hoccupies => ?_⟩
    · obtain rfl := List.mem_singleton.mp he
      simp only [MmapEntry.Cuts, MmapEntry.Frees, Touches, wholeFrames, pageSize] at hcuts
      omega
    · obtain rfl := List.mem_singleton.mp he'
      exact absurd rfl hoccupies.1
  have hfuel : getLe 4 (oneEntry wholeFrames) 0x10000 ≤ 56 := by decide
  obtain ⟨m, hinit, hram⟩ :=
    free_frames_are_available_memory_iff wholeFrames_wellFormed hfuel ⟨fun _ => true, 0⟩
  obtain ⟨m', hinit', -, hbits⟩ :=
    pmmInitFromMb2_spec wholeFrames_wellFormed hfuel ⟨fun _ => true, 0⟩
  obtain rfl : m = m' := Except.ok.inj (hinit.symm.trans hinit')
  have hfree : m.bits 512 = false := (hbits 512 (by decide)).mpr (by decide)
  exact ⟨m, hinit, hfree, hram.mpr hclean 512 (by decide) hfree⟩

/-! ## A range that is not made of whole frames -/

/-- A page of available memory that begins in the middle of a frame. -/
def halfFrames : MmapEntry := ⟨0x200800, 0x1000, 1⟩

theorem halfFrames_wellFormed :
    WellFormed smallKernel (oneEntry halfFrames) 0x10000 [halfFrames] where
  fits := by decide
  tags := @TagsAt.mmap (oneEntry halfFrames) 0x10038 0x10008 1 [] (by decide) (by decide)
    (by decide) (by decide) (by decide) (by decide) (.endTag (by decide) (by decide))
  apart := by decide

/-- The frame in whose middle the range begins is freed, though its first half is in no
available range. -/
theorem half_available_frame_is_freed :
    ∃ m, pmmInitFromMb2 smallKernel (oneEntry halfFrames) 0x10000 56 ⟨fun _ => true, 0⟩ = .ok m ∧
      m.bits 512 = false ∧
      ¬ RealRam smallKernel (oneEntry halfFrames) 0x10000 [halfFrames] 512 := by
  obtain ⟨m, hinit, -, hbits⟩ := pmmInitFromMb2_spec halfFrames_wellFormed
    (by decide : getLe 4 (oneEntry halfFrames) 0x10000 ≤ 56) ⟨fun _ => true, 0⟩
  refine ⟨m, hinit, (hbits 512 (by decide)).mpr (by decide), fun hram => ?_⟩
  obtain ⟨⟨e, he, -, hhas⟩, -⟩ := hram 0x200000 (by decide) (by decide)
  obtain rfl := List.mem_singleton.mp he
  exact absurd hhas.1 (by decide)

end TinyOS.Mem
