import Mathlib.Data.UInt

/-!
# Bytes in a buffer

A buffer is a function from offsets to bytes. `blit` overwrites a range of it,
`getLe` and `putLe` read and store little-endian numbers of a given width.
A number depends on its own bytes only (`getLe_congr`).
-/

namespace TinyOS.Lib

/-- Bytes by offset. -/
abbrev Buf := Nat → UInt8

/-- `memcpy(b + start, src, len)`. -/
def blit (b : Buf) (start len : Nat) (src : Buf) : Buf := fun k =>
  if start ≤ k ∧ k < start + len then src (k - start) else b k

/-- The little-endian number of `w` bytes at offset `o`. -/
def getLe : Nat → Buf → Nat → Nat
  | 0, _, _ => 0
  | w + 1, b, o => (b o).toNat + 256 * getLe w b (o + 1)

/-- Store the `w` low bytes of `n` at offset `o`. -/
def putLe (w : Nat) (b : Buf) (o n : Nat) : Buf := fun k =>
  if o ≤ k ∧ k < o + w then UInt8.ofNat (n / 256 ^ (k - o)) else b k

theorem getLe_lt (w : Nat) (b : Buf) (o : Nat) : getLe w b o < 256 ^ w := by
  induction w generalizing o with
  | zero => simp [getLe]
  | succ w ih =>
    have hbyte := (b o).toNat_lt
    have hrest := ih (o + 1)
    rw [getLe, Nat.pow_succ]
    omega

theorem getLe_congr {w : Nat} {b b' : Buf} {o o' : Nat} (h : ∀ j < w, b (o + j) = b' (o' + j)) :
    getLe w b o = getLe w b' o' := by
  induction w generalizing o o' with
  | zero => rfl
  | succ w ih =>
    have hhead : b o = b' o' := h 0 (Nat.succ_pos w)
    have htail : getLe w b (o + 1) = getLe w b' (o' + 1) := by
      apply ih
      intro j hj
      have := h (j + 1) (Nat.succ_lt_succ hj)
      rwa [show o + (j + 1) = o + 1 + j by omega, show o' + (j + 1) = o' + 1 + j by omega] at this
    rw [getLe, getLe, hhead, htail]

end TinyOS.Lib
