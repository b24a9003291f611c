import TinyOS.Ramfs.Path

/-!
# Wildcards of the shell

`wildcard_match` goes back to the latest `*` only, and gives up after 10000 turns. Neither shows in its
answer: the part of the pattern before the latest `*` has already taken as little of the text as it can,
and a turn lowers `|t_backup| * (|pattern| + 1) + |p|`.
-/

namespace TinyOS.Shell

open Ramfs (Str)

def star : UInt8 := 42
def question : UInt8 := 63

def maxPatternIterations : Nat := 10000

/-- The loop, with the turns that are left. A pointer is the string from there on, and `back` holds
`star + 1` and `t_backup`. -/
def wildcardLoop : Nat → (t p : Str) → (back : Option (Str × Str)) → Bool
  | _, [], p, _ => p.dropWhile (· == star) == []
  | 0, _ :: _, _, _ => false
  | n + 1, c :: t, p, back =>
    let retry := back.any fun (p, tBackup) =>
      wildcardLoop n tBackup.tail p (some (p, tBackup.tail))
    match p with
    | [] => retry
    | q :: p =>
      if q = star then wildcardLoop n (c :: t) p (some (p, c :: t))
      else if q = c ∨ q = question then wildcardLoop n t p back
      else retry

def wildcardMatch (text pattern : Str) : Bool :=
  wildcardLoop maxPatternIterations text pattern none

/-- The text matches the pattern. -/
def Matches : (pattern text : Str) → Prop
  | [], t => t = []
  | q :: p, t =>
    if q = star then ∃ v, v <:+ t ∧ Matches p v
    else ∃ c u, t = c :: u ∧ (q = c ∨ q = question) ∧ Matches p u

variable {p t : Str}

theorem matches_nil_iff : ∀ p : Str, Matches p [] ↔ p.dropWhile (· == star) = []
  | [] => by simp [Matches]
  | q :: p => by
    by_cases hq : q = star
    · simp [Matches, hq, matches_nil_iff p]
    · simp [Matches, hq]

theorem matches_star_iff : Matches (star :: p) t ↔ ∃ v, v <:+ t ∧ Matches p v := by
  rw [Matches, if_pos rfl]

/-- What has no star takes as many characters as it has. -/
theorem matches_append {r v : Str} (hr : star ∉ r) (h : Matches (r ++ p) v) :
    ∃ w u, v = w ++ u ∧ w.length = r.length ∧ Matches p u := by
  induction r generalizing v with
  | nil => exact ⟨[], v, rfl, rfl, h⟩
  | cons q r ih =>
    rw [List.mem_cons, not_or] at hr
    rw [List.cons_append, Matches, if_neg (Ne.symm hr.1)] at h
    obtain ⟨c, v, rfl, -, h⟩ := h
    obtain ⟨w, u, rfl, hw, h⟩ := ih hr.2 h
    exact ⟨c :: w, u, rfl, congrArg (· + 1) hw, h⟩

/-- The pattern and the text have moved on together since `p'` and `tb`, the latest star or the start,
and `n` turns are enough for a pattern of at most `m` characters. -/
structure Enough (n m : Nat) (t p p' tb : Str) : Prop where
  behind : ∃ r w, p' = r ++ p ∧ tb = w ++ t ∧ r.length = w.length ∧ star ∉ r
  length_le : p'.length ≤ m
  turns : tb.length * (m + 1) + p.length < n

/-- A later match from the star behind. -/
def Later (back : Option (Str × Str)) : Prop := ∃ b ∈ back, ∃ v, v <:+ b.2.tail ∧ Matches b.1 v

variable {n m : Nat} {c q : UInt8} {p' tb : Str} {back : Option (Str × Str)}

theorem Enough.restart (hp : p.length ≤ m) (h : t.length * (m + 1) + p.length < n) :
    Enough n m t p p t :=
  ⟨⟨[], [], rfl, rfl, rfl, List.not_mem_nil⟩, hp, h⟩

theorem Enough.star (h : Enough (n + 1) m t (q :: p) p' tb) : Enough n m t p p t := by
  obtain ⟨⟨r, w, rfl, rfl, -⟩, hm, h⟩ := h
  have hle := Nat.mul_le_mul_right (m + 1) (show t.length ≤ (w ++ t).length by simp)
  rw [List.length_append, List.length_cons] at hm
  rw [List.length_cons] at h
  exact .restart (by omega) (by omega)

theorem Enough.next (hq : q ≠ Shell.star) (h : Enough (n + 1) m (c :: t) (q :: p) p' tb) :
    Enough n m t p p' tb := by
  obtain ⟨⟨r, w, rfl, rfl, hlen, hr⟩, hm, h⟩ := h
  refine ⟨⟨r ++ [q], w ++ [c], by simp, by simp, by simp [hlen], by simp [hr, hq.symm]⟩, hm, ?_⟩
  rw [List.length_cons] at h
  omega

theorem Enough.retry (h : Enough (n + 1) m (c :: t) p p' tb) : Enough n m tb.tail p' p' tb.tail := by
  obtain ⟨⟨r, w, -, htb, -⟩, hm, h⟩ := h
  cases tb with
  | nil => simp at htb
  | cons x tb =>
    rw [List.length_cons, Nat.succ_mul] at h
    exact .restart hm (by rw [List.tail_cons]; omega)

/-- A match further on leaves the rest of the pattern a part of the text that is left. -/
theorem Enough.later (h : Enough n m t p p' tb) (hback : ∀ b ∈ back, b = (p', tb)) (hl : Later back) :
    ∃ u, u <:+ t ∧ Matches p u := by
  obtain ⟨b, hb, v, hv, hm⟩ := hl
  obtain rfl := hback b hb
  obtain ⟨⟨r, w, rfl, rfl, hlen, hr⟩, -⟩ := h
  obtain ⟨w', u, rfl, hw', hm⟩ := matches_append hr hm
  have hv := hv.trans (List.tail_suffix _)
  refine ⟨u, List.suffix_of_suffix_length_le ((List.suffix_append w' u).trans hv)
    (List.suffix_append w t) ?_, hm⟩
  have hle := hv.length_le
  rw [List.length_append, List.length_append] at hle
  omega

theorem matches_or_later_iff : Matches p t ∨ Later (some (p, t)) ↔ Matches (star :: p) t := by
  rw [matches_star_iff]
  cases t with
  | nil => simp [Later]
  | cons c t => simp [Later, List.suffix_cons_iff, or_and_right, exists_or]

/-- The text matches from here, or later from the latest star. -/
theorem wildcardLoop_iff (h : Enough n m t p p' tb) (hback : ∀ b ∈ back, b = (p', tb)) :
    wildcardLoop n t p back = true ↔ Matches p t ∨ Later back := by
  induction n generalizing t p p' tb back with
  | zero => exact absurd h.turns (Nat.not_lt_zero _)
  | succ n ih =>
    cases t with
    | nil =>
      rw [wildcardLoop, beq_iff_eq, ← matches_nil_iff]
      refine ⟨.inl, fun hm => hm.elim id fun hl => ?_⟩
      obtain ⟨u, hu, hm⟩ := h.later hback hl
      rwa [List.suffix_nil.mp hu] at hm
    | cons c t =>
      have hretry (hno : ¬ Matches p (c :: t)) :
          back.any (fun (p, tb) => wildcardLoop n tb.tail p (some (p, tb.tail))) = true ↔
            Matches p (c :: t) ∨ Later back := by
        rw [or_iff_right hno]
        cases back with
        | none => simp [Later]
        | some b =>
          obtain rfl := hback b rfl
          rw [Option.any_some, ih h.retry (by simp), matches_or_later_iff, matches_star_iff]
          simp [Later]
      cases p with
      | nil => exact hretry (by simp [Matches])
      | cons q p =>
        rw [wildcardLoop]
        split_ifs with hq hc
        · -- a match from an earlier star is one from this star
          subst hq
          rw [ih h.star (by simp), matches_or_later_iff]
          refine ⟨.inl, fun hm => hm.elim id fun hl => ?_⟩
          obtain ⟨u, hu, hm⟩ := h.later hback hl
          obtain ⟨v, hv, hm⟩ := hm
          exact ⟨v, hv.trans hu, hm⟩
        · rw [ih (h.next hq) hback, Matches, if_neg hq]
          simp [hc]
        · exact hretry (by simp [Matches, hq, hc])

theorem wildcard_match_is_glob_matching (text pattern : Str)
    (h : (text.length + 1) * (pattern.length + 1) ≤ 10000) :
    (wildcardMatch text pattern = true ↔ Matches pattern text) ∧
      ∀ n, maxPatternIterations ≤ n →
        wildcardLoop n text pattern none = wildcardMatch text pattern := by
  have hloop : ∀ n, maxPatternIterations ≤ n →
      (wildcardLoop n text pattern none = true ↔ Matches pattern text) := by
    intro n hn
    rw [Nat.succ_mul] at h
    have henough : Enough n pattern.length text pattern pattern text :=
      .restart (Nat.le_refl _) (by unfold maxPatternIterations at hn; omega)
    rw [wildcardLoop_iff henough (by simp)]
    simp [Later]
  refine ⟨hloop _ (Nat.le_refl _), fun n hn => ?_⟩
  rw [Bool.eq_iff_iff, hloop n hn, wildcardMatch, hloop _ (Nat.le_refl _)]

/-- `a*b` and `axb`. -/
theorem star_between_two_letters :
    wildcardMatch [97, 120, 98] [97, 42, 98] = true ∧ Matches [97, 42, 98] [97, 120, 98] := by
  have hmatch : wildcardMatch [97, 120, 98] [97, 42, 98] = true := by decide +kernel
  exact ⟨hmatch, (wildcard_match_is_glob_matching _ _ (by decide)).1.mp hmatch⟩

end TinyOS.Shell
