import TinyOS.Lib.Tokens

/-!
# VFS: canonical paths and the protected prefixes

`vfs_canonicalize_path` and `vfs_path_is_protected` of `vfs.c`.

* `vfsCanonicalizePath_ok`: an accepted path is one slash in front of each of
  its components, none of them `"."` or `".."`.
* `vfsPathIsProtected_join`: on such a path the prefix test reads the first
  component only, and folds its case.
-/

namespace TinyOS.Vfs

open Lib List

/-- A C string: the bytes before the terminating NUL. -/
abbrev Str := List UInt8

def slash : UInt8 := 47
def dot : UInt8 := 46

/-- `VFS_MAX_PATH`. -/
def maxPath : Nat := 256
def maxPathComponents : Nat := 32

/-- `VFS_EINVAL`. -/
def einval : Int := -22

/-! ## `vfs_canonicalize_path` -/

/-- What one component does to the component stack; `none` is a full stack. -/
def pushComponent (stack : List Str) (token : Str) : Option (List Str) :=
  if token = [dot] then some stack
  else if token = [dot, dot] then some stack.dropLast
  else if maxPathComponents ≤ stack.length then none
  else some (stack ++ [token])

/-- The component loop. -/
def componentStack : List Str → List Str → Option (List Str)
  | [], stack => some stack
  | token :: rest, stack =>
    match pushComponent stack token with
    | none => none
    | some stack => componentStack rest stack

/-- The loop that writes the components behind the leading slash. `out` is what
stands in `canonical` so far; `first` skips the separator. -/
def buildCanonical (maxLen : Nat) : List Str → Bool → Str → Option Str
  | [], _, out => if maxLen ≤ out.length then none else some out
  | comp :: rest, first, out =>
    if !first && maxLen ≤ out.length + 1 then none
    else
      let out := if first then out else out ++ [slash]
      if maxLen ≤ out.length + comp.length then none
      else buildCanonical maxLen rest false (out ++ comp)

def vfsCanonicalizePath (path : Str) (maxLen : Nat) : Except Int Str :=
  if maxLen = 0 then .error einval
  else if maxPath ≤ path.length then .error einval
  else
    match componentStack (tokens slash path) [] with
    | none => .error einval
    | some comps =>
      if maxLen ≤ 1 then .error einval
      else
        match buildCanonical maxLen comps true [slash] with
        | none => .error einval
        | some out => .ok out

/-- A component of a canonical path. -/
def Component (c : Str) : Prop := IsToken slash c ∧ c ≠ [dot] ∧ c ≠ [dot, dot]

/-- What a component does to the path so far: `"."` nothing, `".."` takes the last one off. -/
def descend (stack : List Str) (comp : Str) : List Str :=
  if comp = [dot] then stack
  else if comp = [dot, dot] then stack.dropLast
  else stack ++ [comp]

/-- The components that are left of a path. -/
def live (comps : List Str) : List Str := comps.foldl descend []

def rooted (comps : List Str) : Str := if comps = [] then [slash] else join slash comps

/-- The reference that `vfs_canonicalize_path` is compared with. -/
def normalForm (path : Str) : Str := rooted (live (tokens slash path))

section Reference

variable {stack comps : List Str} {maxLen : Nat}

theorem descend_component {comp : Str} (hstack : ∀ c ∈ stack, Component c)
    (hcomp : IsToken slash comp) : ∀ c ∈ descend stack comp, Component c := by
  unfold descend
  split
  · exact hstack
  rename_i hdot
  split
  · exact fun c hc => hstack c (dropLast_subset _ hc)
  rename_i hdots
  exact forall_mem_append.mpr ⟨hstack, forall_mem_singleton.mpr ⟨hcomp, hdot, hdots⟩⟩

theorem foldl_descend_component (hcomps : ∀ c ∈ comps, IsToken slash c)
    (hstack : ∀ c ∈ stack, Component c) : ∀ c ∈ comps.foldl descend stack, Component c := by
  refine foldlRecOn (motive := (∀ c ∈ ·, Component c)) comps descend hstack
    fun stack hstack comp hcomp => ?_
  exact descend_component hstack (hcomps comp hcomp)

theorem live_component (path : Str) : ∀ c ∈ live (tokens slash path), Component c :=
  foldl_descend_component tokens_isToken fun _ hc => absurd hc not_mem_nil

theorem foldl_descend_of_component (hcomps : ∀ c ∈ comps, Component c) :
    comps.foldl descend stack = stack ++ comps := by
  induction comps generalizing stack with
  | nil => exact (append_nil stack).symm
  | cons comp comps ih =>
    obtain ⟨⟨-, hdot, hdots⟩, hcomps⟩ := forall_mem_cons.mp hcomps
    rw [foldl_cons, ih hcomps, descend, if_neg hdot, if_neg hdots, append_assoc]
    rfl

theorem tokens_rooted (hcomps : ∀ c ∈ comps, Component c) : tokens slash (rooted comps) = comps := by
  unfold rooted
  split
  · rename_i hnil
    rw [hnil]
    rfl
  · exact tokens_join fun c hc => (hcomps c hc).1

theorem normalForm_idem (path : Str) : normalForm (normalForm path) = normalForm path := by
  have hcomps := live_component path
  rw [normalForm, normalForm, tokens_rooted hcomps, live, foldl_descend_of_component hcomps,
    nil_append]

/-- The component stack is the reference's, as long as that has at most 32 components. -/
theorem componentStack_eq_some {ts : List Str} (hstack : stack.length ≤ maxPathComponents) :
    componentStack ts stack = some comps ↔ comps = ts.foldl descend stack ∧
      ∀ pre, pre <+: ts → (pre.foldl descend stack).length ≤ maxPathComponents := by
  induction ts generalizing stack with
  | nil => simp [componentStack, hstack, eq_comm]
  | cons t ts ih =>
    have hpush : pushComponent stack t =
        if (descend stack t).length ≤ maxPathComponents then some (descend stack t) else none := by
      unfold pushComponent descend
      split_ifs <;> simp_all <;> omega
    rw [componentStack, hpush]
    by_cases hfits : (descend stack t).length ≤ maxPathComponents
    · simp only [if_pos hfits, ih hfits, foldl_cons]
      refine and_congr_right fun _ => ⟨fun h pre hpre => ?_, fun h pre hpre => ?_⟩
      · rcases prefix_cons_iff.mp hpre with rfl | ⟨rest, rfl, hrest⟩
        · exact hstack
        · exact h rest hrest
      · exact h (t :: pre) (cons_prefix_cons.mpr ⟨rfl, hpre⟩)
    · rw [if_neg hfits]
      exact iff_of_false (by simp) fun h => hfits (h.2 [t] ⟨ts, rfl⟩)

theorem buildCanonical_eq_some {out canonical : Str} :
    buildCanonical maxLen comps false out = some canonical ↔
      canonical = out ++ join slash comps ∧ canonical.length < maxLen := by
  induction comps generalizing out with
  | nil =>
    rw [buildCanonical, show out ++ join slash [] = out from append_nil out]
    split
    · refine iff_of_false nofun ?_
      rintro ⟨rfl, hlen⟩
      omega
    rename_i hroom
    rw [Option.some.injEq, eq_comm]
    exact ⟨fun h => ⟨h, h ▸ Nat.not_le.mp hroom⟩, And.left⟩
  | cons comp comps ih =>
    have hjoin : out ++ join slash (comp :: comps) = out ++ [slash] ++ comp ++ join slash comps := by
      simp [join]
    simp only [buildCanonical, Bool.not_false, Bool.true_and, decide_eq_true_eq,
      Bool.false_eq_true, if_false, hjoin]
    split
    · refine iff_of_false nofun ?_
      rintro ⟨rfl, hlen⟩
      simp only [length_append, length_singleton] at hlen
      omega
    split
    · refine iff_of_false nofun ?_
      rintro ⟨rfl, hlen⟩
      simp only [length_append, length_singleton] at hlen
      simp_all
      omega
    · exact ih

theorem buildCanonical_rooted {canonical : Str} :
    (if maxLen ≤ 1 then none else buildCanonical maxLen comps true [slash]) = some canonical ↔
      canonical = rooted comps ∧ canonical.length < maxLen := by
  cases comps with
  | nil =>
    have hroot : (if maxLen ≤ 1 then none else buildCanonical maxLen [] true [slash]) =
        buildCanonical maxLen [] false [slash] := by
      simp [buildCanonical]
    rw [hroot, buildCanonical_eq_some]
    rfl
  | cons comp comps =>
    have hfirst : (if maxLen ≤ 1 then none else buildCanonical maxLen (comp :: comps) true [slash]) =
        buildCanonical maxLen (comp :: comps) false [] := by
      simp [buildCanonical]
    rw [hfirst, buildCanonical_eq_some]
    rfl

/-- `vfs_canonicalize_path` gives the reference's path, within its limits. -/
theorem vfsCanonicalizePath_eq_ok {path canonical : Str} :
    vfsCanonicalizePath path maxLen = .ok canonical ↔ path.length < maxPath ∧
      (∀ pre, pre <+: tokens slash path → (live pre).length ≤ maxPathComponents) ∧
      canonical = normalForm path ∧ canonical.length < maxLen := by
  have hstack : ∀ comps, componentStack (tokens slash path) [] = some comps ↔ _ :=
    fun comps => componentStack_eq_some (Nat.zero_le _)
  unfold vfsCanonicalizePath
  split
  · refine iff_of_false nofun ?_
    rintro ⟨-, -, -, hlen⟩
    omega
  split
  · exact iff_of_false nofun fun h => absurd h.1 (by omega)
  rename_i hshort
  split
  · rename_i hnone
    refine iff_of_false nofun ?_
    rintro ⟨-, hdepth, -⟩
    rw [(hstack _).mpr ⟨rfl, hdepth⟩] at hnone
    cases hnone
  · rename_i comps hcomps
    obtain ⟨rfl, hdepth⟩ := (hstack comps).mp hcomps
    rw [normalForm, ← buildCanonical_rooted]
    simp only [Nat.not_le.mp hshort, true_and]
    refine Iff.trans ?_ (and_iff_right hdepth).symm
    split
    · exact iff_of_false nofun nofun
    split
    · rename_i hnone
      exact iff_of_false nofun fun h => nomatch hnone.symm.trans h
    · rename_i out hout
      rw [live, hout, Except.ok.injEq, Option.some.injEq]

end Reference

/-- An accepted path is `"/"` or its components with a slash in front of each. -/
theorem vfsCanonicalizePath_ok {path canonical : Str} {maxLen : Nat}
    (h : vfsCanonicalizePath path maxLen = .ok canonical) :
    canonical = [slash] ∨
      ∃ first rest, (∀ c ∈ first :: rest, Component c) ∧ canonical = join slash (first :: rest) := by
  obtain ⟨-, -, rfl, -⟩ := vfsCanonicalizePath_eq_ok.mp h
  have hcomps := live_component path
  rw [normalForm]
  cases hlive : live (tokens slash path) with
  | nil => exact .inl rfl
  | cons first rest => exact .inr ⟨first, rest, hlive ▸ hcomps, rfl⟩

/-- What `vfs_canonicalize_path` accepts and returns, and that it returns it again unless it is too
long to be given once more. -/
theorem canonical_path_is_normal_form (path : Str) (maxLen : Nat) :
    (∀ out, vfsCanonicalizePath path maxLen = .ok out ↔ path.length < maxPath ∧
      (∀ pre, pre <+: tokens slash path → (live pre).length ≤ maxPathComponents) ∧
      out = normalForm path ∧ out.length < maxLen) ∧
    (∃ comps, normalForm path = rooted comps ∧ ∀ c ∈ comps, Component c) ∧
    ∀ out, vfsCanonicalizePath path maxLen = .ok out →
      (vfsCanonicalizePath out maxLen = .ok out ↔ out.length < maxPath) := by
  refine ⟨fun out => vfsCanonicalizePath_eq_ok, ⟨_, rfl, live_component path⟩, ?_⟩
  intro out hout
  obtain ⟨-, hdepth, rfl, hlen⟩ := vfsCanonicalizePath_eq_ok.mp hout
  have hcomps := live_component path
  rw [vfsCanonicalizePath_eq_ok]
  refine ⟨And.left, fun hshort => ⟨hshort, ?_, (normalForm_idem path).symm, hlen⟩⟩
  rw [normalForm, tokens_rooted hcomps]
  intro pre hpre
  have hpre' : live pre = pre := by
    rw [live, foldl_descend_of_component fun c hc => hcomps c (hpre.subset hc), nil_append]
  rw [hpre']
  exact Nat.le_trans hpre.length_le (hdepth _ (prefix_refl _))

/-- A name of 255 letters without a slash in front gets one, and is then too long. -/
theorem canonical_path_is_refused :
    vfsCanonicalizePath (List.replicate 255 97) 300 = .ok (slash :: List.replicate 255 97) ∧
      vfsCanonicalizePath (slash :: List.replicate 255 97) 300 = .error einval := by
  decide +kernel

/-! ## `vfs_path_is_protected` -/

/-- The names of `protected_paths`: bin, sbin, etc, boot, kernel. -/
def protectedNames : List Str :=
  [[98, 105, 110], [115, 98, 105, 110], [101, 116, 99], [98, 111, 111, 116],
    [107, 101, 114, 110, 101, 108]]

/-- `protected_paths`: each name behind a slash. -/
def protectedPaths : List Str := protectedNames.map (slash :: ·)

/-- The ASCII fold inside the comparison loop. -/
def downcase (c : UInt8) : UInt8 := if 65 ≤ c && c ≤ 90 then c + 32 else c

/-- One round of the outer loop: the whole entry matches and is followed by the
end of the path or a slash. -/
def matchesEntry (canonical entry : Str) : Bool :=
  (canonical.take entry.length).map downcase = entry &&
    (match canonical[entry.length]? with
     | none => true
     | some c => c = slash)

def vfsPathIsProtected (canonical : Str) : Bool := protectedPaths.any (matchesEntry canonical)

theorem slash_notMem_protectedNames {w : Str} (hw : w ∈ protectedNames) : slash ∉ w := by
  revert w
  decide

/-- A slash-free name followed by the rest of the path matches exactly the entry
it folds to. -/
theorem matchesEntry_append_iff {n tail w : Str} (hn : slash ∉ n) (hw : slash ∉ w)
    (htail : tail = [] ∨ ∃ t, tail = slash :: t) :
    matchesEntry (slash :: (n ++ tail)) (slash :: w) = true ↔ n.map downcase = w := by
  simp only [matchesEntry, length_cons, take_succ_cons, map_cons,
    getElem?_cons_succ, Bool.and_eq_true, decide_eq_true_eq, List.cons.injEq]
  constructor
  · rintro ⟨⟨-, htake⟩, hnext⟩
    rcases Nat.lt_trichotomy n.length w.length with hlt | heq | hgt
    · -- the path ends or meets a slash inside the entry, and the entry has none
      exfalso
      rcases htail with rfl | ⟨t, rfl⟩
      · have := congrArg List.length htake
        simp at this
        omega
      · apply hw
        rw [← htake]
        have hmem : slash ∈ (n ++ slash :: t).take w.length := by
          rw [take_append, take_of_length_le (by omega),
            show w.length - n.length = (w.length - n.length - 1) + 1 by omega, take_succ_cons]
          simp
        exact mem_map.mpr ⟨slash, hmem, by decide⟩
    · rw [← heq, take_left] at htake
      exact htake
    · -- the byte behind the match belongs to the name, so it is no slash
      exfalso
      rw [getElem?_append_left hgt, getElem?_eq_getElem hgt] at hnext
      simp only [decide_eq_true_eq] at hnext
      exact hn (hnext ▸ getElem_mem hgt)
  · rintro rfl
    simp only [length_map, take_left, and_true]
    refine ⟨by decide, ?_⟩
    rcases htail with rfl | ⟨t, rfl⟩
    · simp
    · simp

/-- On a canonical path the gate asks whether the first component folds to a
protected name. -/
theorem vfsPathIsProtected_join {first : Str} {rest : List Str} (hfirst : slash ∉ first) :
    vfsPathIsProtected (join slash (first :: rest)) = true ↔
      first.map downcase ∈ protectedNames := by
  have htail : join slash rest = [] ∨ ∃ t, join slash rest = slash :: t := by
    cases rest with
    | nil => exact .inl rfl
    | cons r rs => exact .inr ⟨_, rfl⟩
  have hpath : join slash (first :: rest) = slash :: (first ++ join slash rest) := by
    simp [join]
  rw [hpath, vfsPathIsProtected, protectedPaths, any_map, any_eq_true]
  constructor
  · rintro ⟨w, hw, hmatch⟩
    have hfold := (matchesEntry_append_iff hfirst (slash_notMem_protectedNames hw) htail).mp hmatch
    rw [hfold]
    exact hw
  · intro hmem
    refine ⟨_, hmem, ?_⟩
    exact (matchesEntry_append_iff hfirst (slash_notMem_protectedNames hmem) htail).mpr rfl

end TinyOS.Vfs
