import TinyOS.Shell.Redirect

/-!
# The canonical paths of the kernel shell

`canonicalize_path` gives the normal form of `working_path`, which is the path itself or the join of
the current directory and the path. What of the join does not fit into the buffer is dropped, and the
rest is accepted, unless it has too many components or they are too long for the output.
-/

namespace TinyOS.Shell

open Lib List
open Ramfs (Str slash)

/-- `canonicalize_path`, with its test of the output size. -/
def canonicalizeInto (currentDir path : Str) (size : Nat) : Option Str :=
  if size < 2 then none else canonicalizePath currentDir path size

/-- The path that is meant, as long as it is. -/
def wholePath (currentDir path : Str) : Str :=
  if isAbsolute path then path else joined currentDir path

/-- An absolute path is used where it stands; a join goes through the buffer. -/
def Fits (currentDir path : Str) : Prop :=
  isAbsolute path = true ∨ (joined currentDir path).length ≤ maxPath - 1

/-- So many components can be written, with a slash behind each of them. -/
def Room (size : Nat) (comps : List Str) : Prop :=
  comps.length ≤ maxDepth ∧ (comps.map (·.length + 1)).sum + 2 ≤ size

/-- At some component the working path goes too deep or gets too long. -/
def Overflows (size : Nat) (working : Str) : Prop :=
  ∃ pre, pre <+: tokens slash working ∧ ¬Room size (Vfs.live pre)

variable {currentDir path : Str} {size : Nat} {out : Str}

theorem Room.dropLast {comps : List Str} (h : Room size comps) : Room size comps.dropLast := by
  rcases eq_nil_or_concat comps with rfl | ⟨front, last, rfl⟩
  · exact h
  · simp only [Room, concat_eq_append, dropLast_concat, length_append, length_singleton, map_append,
      map_singleton, sum_append, sum_singleton] at h ⊢
    omega

theorem Room.pushComponent_eq {comps : List Str} (h : Room size comps) (comp : Str) :
    (Room size (Vfs.descend comps comp) →
      pushComponent size comps comp = some (Vfs.descend comps comp)) ∧
    (¬Room size (Vfs.descend comps comp) → pushComponent size comps comp = none) := by
  have hdescend : Vfs.descend comps comp = if comp = [Ramfs.dot] then comps
    else if comp = [Ramfs.dot, Ramfs.dot] then comps.dropLast else comps ++ [comp] := rfl
  rw [hdescend, pushComponent]
  split
  · exact ⟨fun _ => rfl, fun hfull => absurd h hfull⟩
  split
  · exact ⟨fun _ => rfl, fun hfull => absurd h.dropLast hfull⟩
  · have hroom : Room size (comps ++ [comp]) ↔
        comps.length + 1 ≤ maxDepth ∧ outPos comps + comp.length + 1 ≤ size - 1 := by
      obtain ⟨hdepth, hlen⟩ := h
      simp only [Room, outPos, length_append, length_singleton, map_append, map_singleton, sum_append,
        sum_singleton]
      omega
    rw [hroom]
    constructor
    · rintro ⟨hdepth, hlen⟩
      rw [if_neg (by omega), if_neg (by omega)]
    · intro hfull
      split
      · rfl
      · rw [if_pos (by omega)]

/-- The loop gives up at the first component for which there is no room. -/
theorem foldComponents_eq_none {comps stack : List Str} (h : Room size stack) :
    foldComponents size comps stack = none ↔
      ∃ pre, pre <+: comps ∧ ¬Room size (pre.foldl Vfs.descend stack) := by
  induction comps generalizing stack with
  | nil =>
    refine iff_of_false nofun ?_
    rintro ⟨pre, hpre, hfull⟩
    rw [prefix_nil.mp hpre] at hfull
    exact hfull h
  | cons comp comps ih =>
    rw [foldComponents]
    by_cases hroom : Room size (Vfs.descend stack comp)
    · rw [(h.pushComponent_eq comp).1 hroom]
      simp only [ih hroom]
      constructor
      · rintro ⟨pre, hpre, hfull⟩
        exact ⟨comp :: pre, cons_prefix_cons.mpr ⟨rfl, hpre⟩, hfull⟩
      · rintro ⟨pre, hpre, hfull⟩
        rcases prefix_cons_iff.mp hpre with rfl | ⟨rest, rfl, hrest⟩
        · exact absurd h hfull
        · exact ⟨rest, hrest, hfull⟩
    · rw [(h.pushComponent_eq comp).2 hroom]
      exact iff_of_true rfl ⟨[comp], ⟨comps, rfl⟩, hroom⟩

theorem canonicalizeInto_eq_none :
    canonicalizeInto currentDir path size = none ↔
      size < 2 ∨ Overflows size (workingPath currentDir path) := by
  unfold canonicalizeInto
  split
  · rename_i hsize
    exact iff_of_true rfl (.inl hsize)
  · rename_i hsize
    have hempty : Room size [] := ⟨Nat.zero_le _, by simpa using Nat.le_of_not_lt hsize⟩
    rw [canonicalizePath, Option.map_eq_none_iff, canonicalComponents, foldComponents_eq_none hempty]
    exact (or_iff_right hsize).symm

theorem tokens_workingPath_of_fits (h : Fits currentDir path) :
    tokens slash (workingPath currentDir path) = tokens slash (wholePath currentDir path) := by
  cases habs : isAbsolute path with
  | true => rw [workingPath, wholePath, if_pos habs, if_pos habs]
  | false =>
    have hshort := h.resolve_left (by rw [habs]; exact Bool.noConfusion)
    rw [tokens_workingPath habs hshort, wholePath, if_neg (by rw [habs]; exact Bool.noConfusion),
      tokens_joined]

/-- What is returned is the normal form of the working path. -/
theorem canonicalizeInto_eq (h : canonicalizeInto currentDir path size = some out) :
    out = Vfs.normalForm (workingPath currentDir path) := by
  unfold canonicalizeInto at h
  split at h
  · cases h
  obtain ⟨stack, hstack, rfl⟩ := Option.map_eq_some_iff.mp h
  rw [foldComponents_eq hstack]
  rfl

/-- The shell's canonical path is the normal form of the whole path, and a join that does not fit is
refused, exactly if the join fits, or what is left of it does not go into the output. -/
theorem shell_path_is_normal_form (currentDir path : Str) (size : Nat) :
    ((∀ out, canonicalizeInto currentDir path size = some out →
        out = Vfs.normalForm (wholePath currentDir path)) ∧
      (¬Fits currentDir path → canonicalizeInto currentDir path size = none)) ↔
    Fits currentDir path ∨ size < 2 ∨ Overflows size (workingPath currentDir path) := by
  rw [← canonicalizeInto_eq_none]
  constructor
  · rintro ⟨-, hrefused⟩
    exact or_iff_not_imp_left.mpr hrefused
  · rintro (hfits | hnone)
    · refine ⟨fun out hout => ?_, fun hnot => absurd hfits hnot⟩
      rw [canonicalizeInto_eq hout, Vfs.normalForm, Vfs.normalForm]
      exact congrArg (fun comps => Vfs.rooted (Vfs.live comps)) (tokens_workingPath_of_fits hfits)
    · refine ⟨fun out hout => ?_, fun _ => hnone⟩
      rw [hnone] at hout
      cases hout

/-- In a directory with a name of 200 letters, of `b…b/c` with 52 of them only `b…b` is left. The join
does not fit and is not refused, and what comes out is not its normal form. -/
theorem join_is_cut :
    let dir := slash :: List.replicate 200 97
    let target := List.replicate 52 98 ++ [slash, 99]
    let out := slash :: (List.replicate 200 97 ++ slash :: List.replicate 52 98)
    canonicalizeInto dir target 256 = some out ∧ ¬Fits dir target ∧
      out ≠ Vfs.normalForm (wholePath dir target) := by
  unfold Fits
  decide +kernel

end TinyOS.Shell
