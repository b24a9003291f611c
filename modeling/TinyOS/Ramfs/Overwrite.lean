import TinyOS.Ramfs.Contents

/-!
# RAMFS: writes that store nothing, and the overwrite pass

`secure_delete_overwrite_pass` adds up what `vfs_write` returns until it has the
size of the file. A write of at least one byte returns 0 exactly when the page at
the cursor is missing and `pmm_alloc` fails (`ramfsWrite_zero_iff`); a pass in
which this never happens ends.
-/

namespace TinyOS.Ramfs

open List

def overwriteBufferSize : Nat := 4096

/-- A call of `secure_delete_overwrite_pass`. -/
structure Overwrite where
  fd : Int
  size : Nat
  /-- `overwrite_buffer`, with the pattern in it. -/
  buffer : Nat → UInt8
  /-- The outcomes of `pmm_alloc` during the `k`-th write. -/
  allocs : Nat → Nat → Bool

/-- Where its loop is. -/
structure Pass where
  /-- The calls of `vfs_write` so far. -/
  writes : Nat
  bytesWritten : Nat
  fs : State

namespace Overwrite

variable (o : Overwrite)

def chunk (p : Pass) : List UInt8 :=
  (List.range (min (o.size - p.bytesWritten) overwriteBufferSize)).map o.buffer

/-- The next `vfs_write`; which negative result it has does not matter here. -/
def write (p : Pass) : Int × State := ramfsWrite o.fd (o.chunk p) (o.allocs p.writes) p.fs

def after (p : Pass) : Pass :=
  ⟨p.writes + 1, p.bytesWritten + (o.write p).1.toNat, (o.write p).2⟩

/-- One round of the loop, or what the function returns. -/
def next (p : Pass) : Except Int Pass :=
  if p.bytesWritten < o.size then
    if (o.write p).1 < 0 then .error (-3) else .ok (o.after p)
  else .error 0

def rounds : Nat → Pass → Except Int Pass
  | 0, p => .ok p
  | n + 1, p =>
    match o.next p with
    | .error code => .error code
    | .ok p => rounds n p

/-- The call returns. -/
def Ends (p : Pass) : Prop := ∃ n code, o.rounds n p = .error code

end Overwrite

/-- The descriptor may write, and the page at its cursor is missing. -/
def Pageless (s : State) (fd : Int) : Prop :=
  ∃ i n, target s fd flagWrite = some (i, n) ∧ (s.fds i).pos < maxData ∧
    (s.node n).dataPages ((s.fds i).pos / pageSize) = none

section Write

variable {s : State} {fd : Int} {allocs : Nat → Bool} {buf : List UInt8}

theorem ramfsWrite_zero_iff (hbuf : buf ≠ []) :
    (ramfsWrite fd buf allocs s).1 = 0 ↔ Pageless s fd ∧ allocs 0 = false := by
  cases htarget : target s fd flagWrite with
  | none =>
    obtain ⟨e, he, hwrite⟩ := ramfsWrite_none buf allocs htarget
    rw [hwrite]
    refine iff_of_false (ne_of_lt he) ?_
    rintro ⟨⟨i, n, hsome, -⟩, -⟩
    rw [htarget] at hsome
    cases hsome
  | some t =>
    obtain ⟨i, n⟩ := t
    have hpageless : Pageless s fd ↔ (s.fds i).pos < maxData ∧
        (s.node n).dataPages ((s.fds i).pos / pageSize) = none := by
      simp only [Pageless, htarget, Option.some.injEq, Prod.mk.injEq]
      exact ⟨fun ⟨_, _, ⟨hi, hn⟩, h⟩ => hi ▸ hn ▸ h, fun h => ⟨i, n, ⟨rfl, rfl⟩, h⟩⟩
    rw [ramfsWrite_some _ _ htarget, hpageless]
    by_cases hfull : maxData ≤ (s.fds i).pos
    · rw [if_pos hfull, if_pos (length_pos_iff.mpr hbuf)]
      exact iff_of_false (show writeEfbig ≠ 0 by decide) fun h => absurd h.1.1 (Nat.not_lt.mpr hfull)
    rw [if_neg hfull]
    have hlt : (s.fds i).pos < maxData := Nat.not_le.mp hfull
    have hfit : (s.fds i).pos + (buf.take (maxData - (s.fds i).pos)).length ≤ maxData := by
      rw [length_take]
      omega
    have hne : buf.take (maxData - (s.fds i).pos) ≠ [] := by
      rw [Ne, take_eq_nil_iff, not_or]
      exact ⟨by omega, hbuf⟩
    simp only [writeNode, Nat.cast_eq_zero, writeLoop_count_eq_zero allocs (s.node n) hfit,
      NoFirstByte, hne, false_or, hlt, true_and]

/-- A write that finds no page leaves the next one where it was. -/
theorem Pageless.write (h : Pageless s fd) (ha : allocs 0 = false) :
    Pageless (ramfsWrite fd buf allocs s).2 fd := by
  obtain ⟨i, n, htarget, hpos, hpage⟩ := h
  have hloop : ∀ src, writeLoop allocs src (s.fds i).pos 0 (s.node n) = (s.node n, 0) := by
    intro src
    cases src with
    | nil => rfl
    | cons b src => simp [writeLoop, hpage, ha]
  have hfds : (ramfsWrite fd buf allocs s).2.fds = s.fds := by
    rw [ramfsWrite_some _ _ htarget, if_neg (Nat.not_le.mpr hpos)]
    simp only [writeNode, hloop, Nat.add_zero]
    exact Function.update_eq_self i s.fds
  have hpages : ((ramfsWrite fd buf allocs s).2.node n).dataPages = (s.node n).dataPages := by
    rw [ramfsWrite_some _ _ htarget, if_neg (Nat.not_le.mpr hpos)]
    simp [writeNode, hloop]
  refine ⟨i, n, ?_, ?_, ?_⟩
  · rw [← htarget]
    unfold target fdSlot
    rw [hfds]
  · rwa [hfds]
  · rwa [hfds, hpages]

end Write

namespace Overwrite

variable {o : Overwrite} {p : Pass}

theorem chunk_ne_nil (h : p.bytesWritten < o.size) : o.chunk p ≠ [] := by
  rw [chunk, Ne, map_eq_nil_iff, range_eq_nil, overwriteBufferSize]
  omega

/-- A pass whose writes all store something ends: each leaves less to do. -/
theorem ends_or_pageless (d : Nat) (hd : o.size - p.bytesWritten ≤ d) :
    o.Ends p ∨ ∃ n q, o.rounds n p = .ok q ∧ q.bytesWritten < o.size ∧
      Pageless q.fs o.fd ∧ o.allocs q.writes 0 = false := by
  induction d generalizing p with
  | zero => exact .inl ⟨1, 0, by rw [rounds, next, if_neg (by omega)]⟩
  | succ d ih =>
    by_cases hlt : p.bytesWritten < o.size
    swap
    · exact .inl ⟨1, 0, by rw [rounds, next, if_neg hlt]⟩
    by_cases hstarved : Pageless p.fs o.fd ∧ o.allocs p.writes 0 = false
    · exact .inr ⟨0, p, rfl, hlt, hstarved⟩
    have hwrote : (o.write p).1 ≠ 0 := mt (ramfsWrite_zero_iff (chunk_ne_nil hlt)).mp hstarved
    by_cases hneg : (o.write p).1 < 0
    · exact .inl ⟨1, -3, by rw [rounds, next, if_pos hlt, if_pos hneg]⟩
    have hless : o.size - (o.after p).bytesWritten ≤ d := by
      simp only [after]
      omega
    have hround : ∀ n, o.rounds (n + 1) p = o.rounds n (o.after p) := by
      intro n
      rw [rounds, next, if_pos hlt, if_neg hneg]
    rcases ih hless with ⟨n, code, hend⟩ | ⟨n, q, hq, hstuck⟩
    · exact .inl ⟨n + 1, code, (hround n).trans hend⟩
    · exact .inr ⟨n + 1, q, (hround n).trans hq, hstuck⟩

/-- Without a page to be had, a pass that meets a missing one does not end. -/
theorem not_ends (hp : Pageless p.fs o.fd) (hlt : p.bytesWritten < o.size)
    (hnone : ∀ k, o.allocs k 0 = false) : ¬o.Ends p := by
  rintro ⟨n, code, hend⟩
  induction n generalizing p with
  | zero => cases hend
  | succ n ih =>
    have hzero : (o.write p).1 = 0 :=
      (ramfsWrite_zero_iff (chunk_ne_nil hlt)).mpr ⟨hp, hnone _⟩
    rw [rounds, next, if_pos hlt, if_neg (by omega)] at hend
    refine ih (hp.write (hnone _)) ?_ hend
    rwa [after, hzero]

end Overwrite

/-- A write of some bytes returns 0 exactly when the page at the cursor is missing and cannot be
allocated, and the overwrite pass ends unless it comes to such a write. -/
theorem write_progress (s : State) (o : Overwrite) (p : Pass) :
    (∀ fd b src allocs,
      (ramfsWrite fd (b :: src) allocs s).1 = 0 ↔ Pageless s fd ∧ allocs 0 = false) ∧
    (o.Ends p ∨ ∃ n q, o.rounds n p = .ok q ∧ q.bytesWritten < o.size ∧
      Pageless q.fs o.fd ∧ o.allocs q.writes 0 = false) :=
  ⟨fun _ _ _ _ => ramfsWrite_zero_iff (cons_ne_nil _ _),
    Overwrite.ends_or_pageless _ (Nat.le_refl _)⟩

/-- A new file, open for writing. -/
def emptyFile : State :=
  runCalls (ramfsInit true) [⟨none, .open (some [slash, 102]) (flagRead ||| flagWrite) true⟩]

/-- Without a free page its first write returns 0, and the pass goes on for ever. -/
theorem write_returns_zero :
    (ramfsWrite 0 [0] (fun _ => false) emptyFile).1 = 0 ∧
      ¬Overwrite.Ends ⟨0, 1, fun _ => 0, fun _ _ => false⟩ ⟨0, 0, emptyFile⟩ := by
  have hzero : (ramfsWrite 0 [0] (fun _ => false) emptyFile).1 = 0 := by decide +kernel
  have hpageless := ((ramfsWrite_zero_iff (cons_ne_nil _ _)).mp hzero).1
  exact ⟨hzero, Overwrite.not_ends hpageless Nat.one_pos fun _ => rfl⟩

end TinyOS.Ramfs
