import Mathlib.Data.UInt

/-!
# Serial numbers

Numbers that count around a space of 2^32. `ahead a b` is how far `a` is in front
of `b`. Distances add up around the space (`ahead_add`), and as sums that stay
below its size they are exact.
-/

namespace TinyOS.Lib

/-- How far `a` is ahead of `b`. -/
def ahead (a b : UInt32) : Nat := (a - b).toNat

theorem ahead_lt (a b : UInt32) : ahead a b < 2 ^ 32 := (a - b).toNat_lt

@[simp] theorem ahead_self (a : UInt32) : ahead a a = 0 := by simp [ahead]

theorem eq_of_ahead_eq_zero {a b : UInt32} (h : ahead a b = 0) : a = b := by
  apply UInt32.toNat_inj.1
  have ha := a.toNat_lt
  have hb := b.toNat_lt
  rw [ahead, UInt32.toNat_sub] at h
  omega

/-- Distances add up around the space. -/
theorem ahead_add (a b c : UInt32) : ahead a c = (ahead a b + ahead b c) % 2 ^ 32 := by
  have hb := b.toNat_lt
  simp only [ahead, UInt32.toNat_sub]
  omega

theorem ahead_add_ofNat (a b : UInt32) {n : Nat} (h : ahead a b + n < 2 ^ 32) :
    ahead (a + UInt32.ofNat n) b = ahead a b + n := by
  have hn : ahead (a + UInt32.ofNat n) a = n := by
    have ha := a.toNat_lt
    simp only [ahead, UInt32.toNat_sub, UInt32.toNat_add, UInt32.toNat_ofNat']
    omega
  rw [ahead_add _ a b, hn, Nat.add_comm, Nat.mod_eq_of_lt h]

/-- A number between two others splits their distance. -/
theorem ahead_split {a b c : UInt32} (h : ahead b c ≤ ahead a c) :
    ahead a b = ahead a c - ahead b c := by
  have hadd := ahead_add a b c
  have hab := ahead_lt a b
  omega

end TinyOS.Lib
