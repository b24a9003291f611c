import Mathlib.Data.List.Basic
import Mathlib.Data.Nat.ModEq

/-!
# Ring buffers

A ring of `N` cells with a write index `head` and a read index `tail`. The
indices alone tell how much is stored, so a full ring would look like an empty
one: a writer has to leave one cell unused.

`Ring.contents` is the queue a ring stands for. `Ring.push` and `Ring.popN` are
the loops over it, one cell at a time, and they append to the queue
(`Ring.contents_pushAll`) and take from its front (`Ring.popN_fst`,
`Ring.contents_popN`) as long as the unused cell stays unused.
-/

namespace TinyOS.Lib

open List

variable {α : Type*} {N : Nat}

/-- How far the index `head` is ahead of the index `tail` around a ring of `N`. -/
def gap (N head tail : Nat) : Nat := if tail ≤ head then head - tail else N - tail + head

theorem succ_mod {i : Nat} (hi : i < N) : (i + 1) % N = if i + 1 = N then 0 else i + 1 := by
  split
  · next hwrap => rw [hwrap, Nat.mod_self]
  · exact Nat.mod_eq_of_lt (by omega)

theorem gap_succ_head {head tail : Nat} (hh : head < N) (ht : tail < N)
    (h : gap N head tail + 1 < N) : gap N ((head + 1) % N) tail = gap N head tail + 1 := by
  rw [succ_mod hh]
  unfold gap at h ⊢
  split at h <;> split <;> split <;> omega

theorem gap_succ_tail {head tail : Nat} (hh : head < N) (ht : tail < N)
    (h : 0 < gap N head tail) : gap N head ((tail + 1) % N) = gap N head tail - 1 := by
  rw [succ_mod ht]
  unfold gap at h ⊢
  split at h <;> split <;> split <;> omega

/-- Cells and two indices into them. -/
structure Ring (α : Type*) (N : Nat) where
  cells : Nat → α
  head : Nat
  tail : Nat
  head_lt : head < N
  tail_lt : tail < N

namespace Ring

variable (r : Ring α N)

/-- How many cells are in use. -/
def available : Nat := gap N r.head r.tail

/-- The queue the ring stands for. -/
def contents : List α := (List.range r.available).map fun k => r.cells ((r.tail + k) % N)

/-- Store one element. -/
def push (a : α) : Ring α N where
  cells := Function.update r.cells r.head a
  head := (r.head + 1) % N
  tail := r.tail
  head_lt := Nat.mod_lt _ (Nat.zero_lt_of_lt r.head_lt)
  tail_lt := r.tail_lt

/-- Store a list of elements. -/
def pushAll : List α → Ring α N → Ring α N
  | [], r => r
  | a :: l, r => pushAll l (r.push a)

/-- Step over the oldest element. -/
def advance : Ring α N where
  cells := r.cells
  head := r.head
  tail := (r.tail + 1) % N
  head_lt := r.head_lt
  tail_lt := Nat.mod_lt _ (Nat.zero_lt_of_lt r.tail_lt)

/-- Take `k` elements out. -/
def popN : Nat → Ring α N → List α × Ring α N
  | 0, r => ([], r)
  | k + 1, r =>
    let (l, r') := popN k r.advance
    (r.cells r.tail :: l, r')

/-- A ring with nothing in it. -/
def empty (a : α) (h : 0 < N) : Ring α N := ⟨fun _ => a, 0, 0, h, h⟩

variable {r}

@[simp] theorem length_contents : r.contents.length = r.available := by
  simp [contents]

theorem available_lt : r.available < N := by
  have hh := r.head_lt
  rw [available, gap]
  split <;> omega

/-- The write index stands behind the stored elements. -/
theorem tail_add_available : (r.tail + r.available) % N = r.head := by
  have hh := r.head_lt
  have ht := r.tail_lt
  rw [available, gap]
  split
  · rw [Nat.add_sub_cancel' (by assumption), Nat.mod_eq_of_lt hh]
  · rw [show r.tail + (N - r.tail + r.head) = r.head + N by omega, Nat.add_mod_right,
      Nat.mod_eq_of_lt hh]

theorem contents_eq_nil_iff : r.contents = [] ↔ r.available = 0 := by
  rw [← length_eq_zero_iff, length_contents]

/-! ## Storing -/

theorem available_push (a : α) (h : r.available + 1 < N) :
    (r.push a).available = r.available + 1 := gap_succ_head r.head_lt r.tail_lt h

/-- Two cells less than `N` apart are different. -/
theorem mod_ne_mod {a b c : Nat} (hab : a < b) (hb : b < a + N) : (c + a) % N ≠ (c + b) % N := by
  intro heq
  have hdvd : N ∣ c + b - (c + a) := (Nat.modEq_iff_dvd' (by omega)).mp heq
  have := Nat.le_of_dvd (by omega) hdvd
  omega

theorem contents_push (a : α) (h : r.available + 1 < N) :
    (r.push a).contents = r.contents ++ [a] := by
  have hav := available_push a h
  rw [contents, hav, range_succ, map_append, contents]
  congr 1
  · apply map_congr_left
    intro k hk
    rw [mem_range] at hk
    -- the new cell is not one of those in use
    refine Function.update_of_ne ?_ _ _
    rw [← tail_add_available]
    exact mod_ne_mod hk (by omega)
  · have hcell : (r.push a).cells ((r.tail + r.available) % N) = a := by
      rw [tail_add_available]
      exact Function.update_self _ _ _
    exact congrArg (fun x => [x]) hcell

theorem contents_pushAll {l : List α} (h : r.available + l.length < N) :
    (pushAll l r).contents = r.contents ++ l := by
  induction l generalizing r with
  | nil => simp [pushAll]
  | cons a l ih =>
    rw [length_cons] at h
    have hav := available_push (r := r) a (by omega)
    rw [pushAll, ih (by omega), contents_push a (by omega), append_assoc]
    rfl

/-! ## Taking -/

theorem available_advance (h : 0 < r.available) : r.advance.available = r.available - 1 :=
  gap_succ_tail r.head_lt r.tail_lt h

theorem contents_advance (h : 0 < r.available) :
    r.contents = r.cells r.tail :: r.advance.contents := by
  have hav := available_advance h
  rw [contents, contents, hav, show r.available = (r.available - 1) + 1 by omega,
    range_succ_eq_map, map_cons, map_map]
  congr 1
  · rw [Nat.add_zero, Nat.mod_eq_of_lt r.tail_lt]
  · apply map_congr_left
    intro k _
    show r.cells ((r.tail + (k + 1)) % N) = r.cells (((r.tail + 1) % N + k) % N)
    rw [Nat.mod_add_mod, Nat.add_assoc, Nat.add_comm 1 k]

theorem popN_spec {k : Nat} (h : k ≤ r.available) :
    (popN k r).1 = r.contents.take k ∧ (popN k r).2.contents = r.contents.drop k := by
  induction k generalizing r with
  | zero => simp [popN]
  | succ k ih =>
    have hav := available_advance (r := r) (by omega)
    have hrest := ih (r := r.advance) (by omega)
    rw [contents_advance (r := r) (by omega)]
    simp only [popN, take_succ_cons, drop_succ_cons]
    exact ⟨by rw [hrest.1], hrest.2⟩

/-- What is taken out is the front of the queue. -/
theorem popN_fst {k : Nat} (h : k ≤ r.available) : (popN k r).1 = r.contents.take k :=
  (popN_spec h).1

theorem contents_popN {k : Nat} (h : k ≤ r.available) :
    (popN k r).2.contents = r.contents.drop k := (popN_spec h).2

end Ring

end TinyOS.Lib
