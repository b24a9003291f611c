import Mathlib.Data.UInt

/-!
# A file as a sequence of elements

The abstract meaning of a file: the list of its elements, with positional reads
and writes. A write past the end fills the gap with zero; a write of nothing
changes nothing, wherever it is aimed.

An implementation keeps a length and some way to fetch an element by its
position; `tabulate len f` is the file such a pair stands for, and
`tabulate_writeAt` and `tabulate_readAt` say what has to be shown of the new
fetch function for a write, and of the bytes copied out for a read.
-/

namespace TinyOS.Lib

variable {α : Type*} {f f' : Nat → α} {len pos count : Nat} {data : List α}

/-- The elements from position `pos` on, at most `count`. -/
def readAt (b : List α) (pos count : Nat) : List α := (b.drop pos).take count

/-- The file of length `len` whose element at `i` is `f i`. -/
def tabulate (len : Nat) (f : Nat → α) : List α := (List.range len).map f

@[simp] theorem length_tabulate : (tabulate len f).length = len := by
  simp [tabulate]

theorem tabulate_congr (h : ∀ i < len, f' i = f i) : tabulate len f' = tabulate len f := by
  refine List.map_congr_left fun i hi => h i ?_
  simpa using hi

theorem tabulate_readAt (h : pos + count ≤ len) :
    readAt (tabulate len f) pos count = tabulate count fun i => f (pos + i) := by
  refine List.ext_getElem? fun i => ?_
  simp only [readAt, tabulate, List.getElem?_take, List.getElem?_drop, List.getElem?_map]
  by_cases hi : i < count
  · rw [if_pos hi, List.getElem?_range (by omega), List.getElem?_range hi]
    rfl
  · rw [if_neg hi, List.getElem?_eq_none (by simpa using hi)]
    rfl

/-! ## Writing -/

variable [Zero α]

/-- Store `data` from position `pos` on. -/
def writeAt (b : List α) (pos : Nat) (data : List α) : List α :=
  if data = [] then b
  else tabulate (max b.length (pos + data.length)) fun i =>
    if pos ≤ i ∧ i < pos + data.length then data.getD (i - pos) 0 else b.getD i 0

@[simp] theorem writeAt_nil (b : List α) (pos : Nat) : writeAt b pos [] = b := by
  simp [writeAt]

theorem tabulate_getD {i : Nat} (hi : i < len) : (tabulate len f).getD i 0 = f i := by
  simp [tabulate, hi]

/-- The new fetch function holds the data in the window, what was there outside
it, and zero in the gap. -/
theorem tabulate_writeAt (hne : data ≠ [])
    (hin : ∀ i < data.length, f' (pos + i) = data.getD i 0)
    (hout : ∀ i < len, ¬ (pos ≤ i ∧ i < pos + data.length) → f' i = f i)
    (hgap : ∀ i, len ≤ i → i < pos → f' i = 0) :
    tabulate (max len (pos + data.length)) f' = writeAt (tabulate len f) pos data := by
  rw [writeAt, if_neg hne, length_tabulate]
  refine tabulate_congr fun i hi => ?_
  split
  · rename_i hwin
    have := hin (i - pos) (by omega)
    rwa [Nat.add_sub_cancel' hwin.1] at this
  rename_i hwin
  by_cases hlen : i < len
  · rw [hout i hlen hwin, tabulate_getD hlen]
  · rw [hgap i (by omega) (by omega)]
    simp [tabulate, hlen]

end TinyOS.Lib
