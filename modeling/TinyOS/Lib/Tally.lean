import Mathlib.Algebra.BigOperators.Fin

/-!
# Counting the entries of a table

`tally p` is how many entries of a table of `n` satisfy `p`, counted as a loop over the table counts
them. The lemmas say how the count follows a change: it follows inclusion, it rises by at most one when
one entry changes, and by what one more turn of the loop adds.
-/

namespace TinyOS.Lib

variable {n : Nat} {p q : Fin n → Bool}

/-- How many entries satisfy `p`. -/
def tally (p : Fin n → Bool) : Nat := (List.finRange n).countP p

theorem tally_eq_card (p : Fin n → Bool) : tally p = (Finset.univ.filter fun i => p i = true).card := by
  simp [tally, List.countP_eq_length_filter, Fin.univ_def, Finset.card, Finset.filter]

theorem tally_mono (h : ∀ i, p i = true → q i = true) : tally p ≤ tally q :=
  List.countP_mono_left fun i _ => h i

theorem tally_congr (h : ∀ i, p i = q i) : tally p = tally q := by
  rw [show p = q from funext h]

theorem tally_not (p : Fin n → Bool) : (tally fun i => !p i) + tally p = n := by
  have h := List.length_eq_countP_add_countP p (l := List.finRange n)
  rw [List.length_finRange] at h
  have hnot : (List.finRange n).countP (fun i => decide ¬p i = true) = tally fun i => !p i := by
    apply tally_congr
    intro i
    cases p i <;> rfl
  rw [hnot] at h
  unfold tally at h ⊢
  omega

/-- Only the entry `k` may have come in. -/
theorem tally_le_succ (k : Fin n) (h : ∀ i, i ≠ k → p i = true → q i = true) :
    tally p ≤ tally q + 1 := by
  rw [tally_eq_card, tally_eq_card]
  refine (Finset.card_le_card ?_).trans (Finset.card_insert_le k _)
  intro i hi
  rw [Finset.mem_insert]
  by_cases hik : i = k
  · exact .inl hik
  · exact .inr (by simpa using h i hik (by simpa using hi))

/-! ## A loop that has come to entry `i` -/

theorem tally_below_zero (p : Fin n → Bool) : (tally fun j => decide (j.val < 0) && p j) = 0 := by
  simp [tally]

theorem tally_below_all {i : Nat} (hi : n ≤ i) (p : Fin n → Bool) :
    (tally fun j => decide (j.val < i) && p j) = tally p := by
  apply tally_congr
  intro j
  rw [decide_eq_true (by omega), Bool.true_and]

/-- One more turn of the loop. -/
theorem tally_below_succ {i : Nat} (hi : i < n) (p : Fin n → Bool) :
    (tally fun j => decide (j.val < i + 1) && p j) =
      (tally fun j => decide (j.val < i) && p j) + if p ⟨i, hi⟩ = true then 1 else 0 := by
  have hturn : ∀ j : Fin n, (if (decide (j.val < i + 1) && p j) = true then 1 else 0) =
      (if (decide (j.val < i) && p j) = true then 1 else 0) +
        if ⟨i, hi⟩ = j then if p j = true then 1 else 0 else 0 := by
    intro j
    by_cases h : ⟨i, hi⟩ = j
    · subst h
      simp
    · have hbelow : j.val < i + 1 ↔ j.val < i :=
        Nat.lt_succ_iff_lt_or_eq.trans (or_iff_left fun hval => h (Fin.ext hval.symm))
      simp [h, hbelow]
  rw [tally_eq_card, tally_eq_card, Finset.card_filter, Finset.card_filter]
  simp only [hturn]
  rw [Finset.sum_add_distrib, Finset.sum_ite_eq, if_pos (Finset.mem_univ _)]

theorem countP_range (n : Nat) (p : Nat → Bool) :
    (List.range n).countP p = tally fun i : Fin n => p i.val := by
  rw [tally, ← List.map_coe_finRange_eq_range, List.countP_map]
  rfl

/-! ## Entries with an owner -/

section owner

variable {ω : Type*} {held held' : Fin n → Option ω}

/-- How many entries are held by an owner with the property. -/
def heldBy (held : Fin n → Option ω) (P : ω → Bool) : Nat := tally fun i => (held i).any P

/-- Entries are only given up. -/
theorem heldBy_mono (P : ω → Bool) (h : ∀ i, held' i = held i ∨ held' i = none) :
    heldBy held' P ≤ heldBy held P := by
  apply tally_mono
  intro i hi
  rcases h i with heq | heq
  · rwa [heq] at hi
  · rw [heq] at hi
    cases hi

/-- An entry is taken by an owner who may have one more, or is not counted. -/
theorem heldBy_claim {P : ω → Bool} {c : Nat} (k : Fin n) (h : ∀ i, i ≠ k → held' i = held i)
    (hroom : ∀ o, held' k = some o → P o = true → heldBy held P < c) (hc : heldBy held P ≤ c) :
    heldBy held' P ≤ c := by
  by_cases hk : (held' k).any P = true
  · obtain ⟨o, ho, hP⟩ := Option.any_eq_true _ _ |>.mp hk
    refine (tally_le_succ k ?_).trans (hroom o ho hP)
    intro i hi hany
    rwa [h i hi] at hany
  · refine (tally_mono ?_).trans hc
    intro i hany
    by_cases hik : i = k
    · rw [hik] at hany
      exact absurd hany hk
    · rwa [h i hik] at hany

end owner

/-! ## At most one -/

/-- Each value still has at most one index after a step that changes what the index `k` has. -/
theorem once_step {ι κ : Type*} {f g : ι → Option κ} {k : ι}
    (h : ∀ i j x, f i = some x → f j = some x → i = j) (hother : ∀ i, i ≠ k → g i = f i)
    (hself : ∀ x, g k = some x → ∀ i, i ≠ k → f i ≠ some x) (i j : ι) (x : κ)
    (hi : g i = some x) (hj : g j = some x) : i = j := by
  by_cases hik : i = k
  · by_cases hjk : j = k
    · exact hik.trans hjk.symm
    rw [hik] at hi
    rw [hother j hjk] at hj
    exact absurd hj (hself x hi j hjk)
  · rw [hother i hik] at hi
    by_cases hjk : j = k
    · rw [hjk] at hj
      exact absurd hi (hself x hj i hik)
    · rw [hother j hjk] at hj
      exact h i j x hi hj

end TinyOS.Lib
