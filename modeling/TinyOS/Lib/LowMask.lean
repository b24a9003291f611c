import Mathlib.Data.Nat.Bitwise

/-!
# Masks of low bits

A word `m` with `m + 1 = 2 ^ j` selects the `j` low bits of another, and its complement the other bits:
the first is taking the remainder by `2 ^ j`, the second decides the quotient.
-/

namespace LowMask

/-- A number that shares no bit with its successor has only low bits. -/
theorem exists_two_pow {n : Nat} (h : n &&& (n + 1) = 0) : ∃ j, n + 1 = 2 ^ j := by
  induction n using Nat.strong_induction_on with
  | _ n ih =>
    rcases Nat.even_or_odd' n with ⟨k, rfl | rfl⟩
    · -- An even number shares all its bits with its successor.
      have hand : 2 * k &&& (2 * k + 1) = 2 * (k &&& k) := Nat.land_bit false k true k
      rw [hand, Nat.and_self] at h
      exact ⟨0, by omega⟩
    · have hand : 2 * k + 1 &&& (2 * k + 1 + 1) = 2 * (k &&& (k + 1)) :=
        Nat.land_bit true k false (k + 1)
      obtain ⟨j, hj⟩ := ih k (by omega) (by omega)
      exact ⟨j + 1, by rw [Nat.pow_succ, ← hj]; omega⟩

variable {m : UInt32} {j : Nat}

theorem toNat_and (hm : m.toNat + 1 = 2 ^ j) (a : UInt32) : (a &&& m).toNat = a.toNat % 2 ^ j := by
  rw [UInt32.toNat_and, show m.toNat = 2 ^ j - 1 by omega, Nat.and_two_pow_sub_one_eq_mod]

theorem testBit_and_not (hm : m.toNat + 1 = 2 ^ j) (a : UInt32) (i : Nat) :
    (a &&& ~~~m).toNat.testBit i = (a.toNat.testBit i && (decide (i < 32) && !decide (i < j))) := by
  have hlt := m.toNat_lt
  have hnot : (~~~m).toNat = 2 ^ 32 - (m.toNat + 1) := by
    rw [UInt32.toNat_not, show UInt32.size = 2 ^ 32 from rfl]
    omega
  rw [UInt32.toNat_and, Nat.testBit_and, hnot, Nat.testBit_two_pow_sub_succ hlt,
    show m.toNat = 2 ^ j - 1 by omega, Nat.testBit_two_pow_sub_one]

theorem div_eq_of_and_not_eq (hm : m.toNat + 1 = 2 ^ j) {a b : UInt32}
    (h : a &&& ~~~m = b &&& ~~~m) : a.toNat / 2 ^ j = b.toNat / 2 ^ j := by
  apply Nat.eq_of_testBit_eq
  intro i
  rw [Nat.testBit_div_two_pow, Nat.testBit_div_two_pow]
  by_cases hi : i + j < 32
  · have hbit := congrArg (fun w : UInt32 => w.toNat.testBit (i + j)) h
    simp only [testBit_and_not hm] at hbit
    simpa [hi, show ¬i + j < j by omega] using hbit
  · -- Words have no bits here.
    have hhigh : ∀ w : UInt32, w.toNat.testBit (i + j) = false := by
      intro w
      exact Nat.testBit_lt_two_pow (Nat.lt_of_lt_of_le w.toNat_lt (Nat.pow_le_pow_right (by omega)
        (by omega)))
    rw [hhigh, hhigh]

end LowMask
