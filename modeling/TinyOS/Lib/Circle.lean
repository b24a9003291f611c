import Mathlib.Data.List.Nodup

/-!
# Circular singly linked lists

A circular list is threaded through a successor function: `Circle next l` says that
the cells of `l` are distinct, that each links to the one behind it, and that the last
links back to the first. Where the list starts is not part of the structure
(`Circle.rotate`), so a cursor may move round it.

* `Circle.insert`: a new cell behind any given one;
* `Circle.remove`: taking out a cell through the one before it;
* `Circle.remove_first`: taking out the first cell, through the last;
* `Circle.follow`: what following `next` visits.
-/

namespace TinyOS.Lib

open Function List

variable {α : Type*}

/-- Follow `next` for a number of steps. -/
def follow (next : α → Option α) : Nat → α → Option α
  | 0, a => some a
  | n + 1, a => (next a).bind (follow next n)

/-- Each cell of the list links to the one behind it, and the last to `e`. -/
def Links (next : α → Option α) : List α → Option α → Prop
  | [], _ => True
  | a :: l, e => next a = l.head?.or e ∧ Links next l e

namespace Links

variable {next next' : α → Option α} {l l' : List α} {a : α} {e : Option α}

theorem append_iff : Links next (l ++ l') e ↔ Links next l (l'.head?.or e) ∧ Links next l' e := by
  induction l with
  | nil => simp [Links]
  | cons a l ih => simp [Links, ih, head?_append, Option.or_assoc, and_assoc]

/-- Only the successors of the cells matter. -/
theorem congr (h : Links next l e) (heq : ∀ x ∈ l, next' x = next x) : Links next' l e := by
  induction l with
  | nil => trivial
  | cons a l ih =>
    constructor
    · rw [heq a mem_cons_self]
      exact h.1
    · exact ih h.2 fun x hx => heq x (mem_cons_of_mem a hx)

theorem follow {b : α} (h : Links next (a :: l) (some b)) (i : Nat) (hi : i ≤ l.length + 1) :
    follow next i a = (a :: l ++ [b])[i]? := by
  induction i generalizing a l with
  | zero => rfl
  | succ i ih =>
    rcases l with _ | ⟨c, l⟩
    · -- a single cell, which links to `b`
      have hzero : i = 0 := by simpa using hi
      subst hzero
      simp [Lib.follow, h.1]
    · have hc : next a = some c := h.1
      rw [Lib.follow, hc]
      exact ih h.2 (by simpa using hi)

end Links

/-- The cells of `l`, in this order, form a circle. -/
structure Circle (next : α → Option α) (l : List α) : Prop where
  nodup : l.Nodup
  links : Links next l l.head?

namespace Circle

variable {next : α → Option α} {l l₁ l₂ : List α} {a x p : α}

theorem nil : Circle next [] := ⟨nodup_nil, trivial⟩

theorem single (h : next a = some a) : Circle next [a] := ⟨nodup_singleton a, by simpa using h, trivial⟩

/-- The successor of the first cell is the next cell, or itself if it is alone. -/
theorem next_first (h : Circle next (a :: l)) : next a = l.head?.or (some a) := h.links.1

theorem rotate (h : Circle next (a :: l)) : Circle next (l ++ [a]) := by
  constructor
  · exact (perm_append_singleton a l).nodup_iff.2 h.nodup
  · rw [Links.append_iff]
    constructor
    · exact h.links.2
    · refine ⟨?_, trivial⟩
      rw [h.next_first, head?_append]
      rfl

theorem perm_behind : (l₁ ++ p :: x :: l₂).Perm (x :: (l₁ ++ p :: l₂)) := by
  have hmiddle : (l₁ ++ [p] ++ x :: l₂).Perm (x :: (l₁ ++ [p] ++ l₂)) := perm_middle
  simpa using hmiddle

theorem head_behind : (l₁ ++ p :: x :: l₂).head? = (l₁ ++ p :: l₂).head? := by
  simp [head?_append]

section update

variable [DecidableEq α]

/-- A new cell `x` behind `p`. -/
theorem insert (h : Circle next (l₁ ++ p :: l₂)) (hx : x ∉ l₁ ++ p :: l₂) :
    Circle (update (update next p (some x)) x (next p)) (l₁ ++ p :: x :: l₂) := by
  have hnodup := perm_behind.nodup_iff.2 (nodup_cons.2 ⟨hx, h.nodup⟩)
  obtain ⟨hl₁, hp, hl₂⟩ := Links.append_iff.1 h.links
  -- the cells other than `p` and `x` keep their links
  have hkeep : ∀ y, y ≠ p → y ≠ x →
      update (update next p (some x)) x (next p) y = next y := by
    intro y hyp hyx
    rw [update_of_ne hyx, update_of_ne hyp]
  have hpx : p ≠ x := by
    rintro rfl
    exact hx (by simp)
  refine ⟨hnodup, ?_⟩
  rw [head_behind, Links.append_iff]
  have hdis := nodup_append.1 h.nodup
  constructor
  · apply Links.congr hl₁
    intro y hy
    apply hkeep
    · exact hdis.2.2 y hy p (by simp)
    · rintro rfl
      exact hx (by simp [hy])
  · refine ⟨by simp [update_of_ne hpx], ?_, ?_⟩
    · rw [update_self]
      exact hp
    · apply Links.congr hl₂
      intro y hy
      apply hkeep
      · rintro rfl
        exact (nodup_cons.1 hdis.2.1).1 hy
      · rintro rfl
        exact hx (by simp [hy])

/-- The cell `x` behind `p` is taken out. -/
theorem remove (h : Circle next (l₁ ++ p :: x :: l₂)) :
    Circle (update (update next p (next x)) x none) (l₁ ++ p :: l₂) := by
  have hnodup := nodup_cons.1 (perm_behind.nodup_iff.1 h.nodup)
  obtain ⟨hl₁, hp, hx, hl₂⟩ := Links.append_iff.1 h.links
  have hkeep : ∀ y, y ≠ p → y ∈ l₁ ++ p :: l₂ →
      update (update next p (next x)) x none y = next y := by
    intro y hyp hy
    have hyx : y ≠ x := by
      rintro rfl
      exact hnodup.1 hy
    rw [update_of_ne hyx, update_of_ne hyp]
  have hpx : p ≠ x := by
    rintro rfl
    exact hnodup.1 (by simp)
  have hdis := nodup_append.1 hnodup.2
  refine ⟨hnodup.2, ?_⟩
  rw [← head_behind, Links.append_iff]
  constructor
  · apply Links.congr hl₁
    intro y hy
    exact hkeep y (hdis.2.2 y hy p (by simp)) (by simp [hy])
  · refine ⟨?_, ?_⟩
    · rw [update_of_ne hpx, update_self]
      exact hx
    · apply Links.congr hl₂
      intro y hy
      apply hkeep y
      · rintro rfl
        exact (nodup_cons.1 hdis.2.1).1 hy
      · simp [hy]

/-- The first cell is taken out through the last. -/
theorem remove_first (h : Circle next (x :: (l ++ [p]))) :
    Circle (update (update next p (next x)) x none) (l ++ [p]) := by
  -- seen from the last cell, the first is the one behind it
  have hrot : Circle next (p :: x :: l) := by
    have hnodup : (p :: x :: l).Nodup := by
      have hperm : (x :: (l ++ [p])).Perm (p :: x :: l) := by
        have := perm_append_singleton p (x :: l)
        simpa using this
      exact hperm.nodup_iff.1 h.nodup
    obtain ⟨hl, hp, -⟩ := (Links.append_iff (l := x :: l)).1 h.links
    refine ⟨hnodup, ?_, hl⟩
    simpa using hp
  have hcut : Circle _ ([] ++ p :: l) := remove hrot
  exact hcut.rotate

end update

/-- Following the links from the first cell visits the cells in order, and then the
first again. -/
theorem follow (h : Circle next (a :: l)) {i : Nat} (hi : i ≤ l.length + 1) :
    follow next i a = (a :: l ++ [a])[i]? :=
  Links.follow h.links i hi

end Circle

end TinyOS.Lib
