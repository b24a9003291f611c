import TinyOS.Lib.Chain
import TinyOS.Ramfs.Ops

/-!
# RAMFS: the tree behind the pointers

`Tree s r kids` connects the pointer heap to the directory tree it stands for:
`kids p` is the list of children of `p`, the sibling chain hanging off
`(s.node p).children` visits exactly that list, and the counters agree with it.
Parents are older than their children (`parent_lt`), so following parent
pointers ends at the root.

The walks are then described on the tree: `findChild_eq` turns a pointer walk
into a search of `kids p`, `lookupLoop_some` and `walkLoop_ok` say what a
successful walk has seen, and `lookup_after_walk` ties the two lookups that
creation and renaming make on one path.
-/

namespace TinyOS.Ramfs

open TinyOS.Lib List

/-- `b` is the directory holding `a`. -/
def ParentOf (s : State) (a b : NodeId) : Prop := (s.node a).parent = some b

/-- The pointer heap is the tree with root `r` and children `kids`. -/
structure Tree (s : State) (r : NodeId) (kids : NodeId → List NodeId) : Prop where
  root_eq : s.root = some r
  root_live : r ∈ s.live
  root_dir : (s.node r).type = .dir
  root_parent : (s.node r).parent = none
  /-- Every other node hangs under a directory. -/
  orphan : ∀ c ∈ s.live, (s.node c).parent = none → c = r
  parent_live : ∀ c ∈ s.live, ∀ p, ParentOf s c p → p ∈ s.live
  parent_lt : ∀ c ∈ s.live, ∀ p, ParentOf s c p → p < c
  /-- The sibling chain of a node visits its children. -/
  chain : ∀ p ∈ s.live, Chain (fun q => (s.node q).next) (s.node p).children (kids p)
  mem_kids : ∀ p ∈ s.live, ∀ c, c ∈ kids p ↔ c ∈ s.live ∧ ParentOf s c p
  leaf : ∀ p ∈ s.live, (s.node p).type ≠ .dir → kids p = []
  names : ∀ c ∈ s.live, c ≠ r → ValidName (s.node c).name
  distinct : ∀ p ∈ s.live, ∀ a ∈ kids p, ∀ b ∈ kids p,
    (s.node a).name = (s.node b).name → a = b
  count : ∀ p ∈ s.live, (s.node p).childCount = (kids p).length
  total : s.totalNodes = s.live.card
  bound : s.live.card ≤ maxFiles
  fresh : ∀ p ∈ s.live, p < s.nextId

/-- Every directory above `n` grants the caller search. -/
def AllSearchable (cur : Caller) (s : State) (n : NodeId) : Prop :=
  ∀ d, Relation.TransGen (ParentOf s) n d → maySearch cur s d = true

theorem AllSearchable.child {cur : Caller} {s : State} {p c : NodeId}
    (hp : AllSearchable cur s p) (hs : maySearch cur s p = true) (hc : ParentOf s c p) :
    AllSearchable cur s c := by
  intro d hd
  rcases Relation.TransGen.head'_iff.mp hd with ⟨q, hcq, hqd⟩
  have hqp : q = p := by
    have h : some q = some p := hcq.symm.trans hc
    exact Option.some.inj h
  subst hqp
  rcases Relation.reflTransGen_iff_eq_or_transGen.mp hqd with rfl | htd
  · exact hs
  · exact hp d htd

namespace Tree

variable {s : State} {r : NodeId} {kids : NodeId → List NodeId} {cur : Caller}
  {p q c : NodeId} {name : Str}
variable (ht : Tree s r kids)

include ht

theorem kid_live (hp : p ∈ s.live) (hc : c ∈ kids p) : c ∈ s.live :=
  ((ht.mem_kids p hp c).mp hc).1

theorem kid_parent (hp : p ∈ s.live) (hc : c ∈ kids p) : ParentOf s c p :=
  ((ht.mem_kids p hp c).mp hc).2

/-- A directory whose list of children contains `c` is `c`'s parent, and a directory. -/
theorem dir_of_kid (hp : p ∈ s.live) (hc : c ∈ kids p) : (s.node p).type = .dir := by
  by_contra hne
  rw [ht.leaf p hp hne] at hc
  exact absurd hc not_mem_nil

theorem mem_kids_parent (hc : c ∈ s.live) (hpar : ParentOf s c p) : p ∈ s.live ∧ c ∈ kids p := by
  have hp := ht.parent_live c hc p hpar
  exact ⟨hp, (ht.mem_kids p hp c).mpr ⟨hc, hpar⟩⟩

theorem ne_root_of_parent (hpar : ParentOf s c p) : c ≠ r := by
  rintro rfl
  rw [ParentOf, ht.root_parent] at hpar
  exact absurd hpar (by simp)

theorem exists_parent (hc : c ∈ s.live) (hne : c ≠ r) : ∃ p, ParentOf s c p := by
  cases hpar : (s.node c).parent with
  | none => exact absurd (ht.orphan c hc hpar) hne
  | some p => exact ⟨p, hpar⟩

theorem root_searchable : AllSearchable cur s r := by
  intro d hd
  rcases Relation.TransGen.head'_iff.mp hd with ⟨q, hq, -⟩
  exact absurd rfl (ht.ne_root_of_parent hq)

theorem kids_nodup (hp : p ∈ s.live) : (kids p).Nodup :=
  (ht.chain p hp).nodup

/-- A directory has fewer children than there may be nodes. -/
theorem kids_length_lt (hp : p ∈ s.live) : (kids p).length < maxFiles := by
  have hsub : (kids p).toFinset ⊆ s.live.erase r := by
    intro c hc
    rw [mem_toFinset] at hc
    rw [Finset.mem_erase]
    exact ⟨ht.ne_root_of_parent (ht.kid_parent hp hc), ht.kid_live hp hc⟩
  have hcard := Finset.card_le_card hsub
  rw [toFinset_card_of_nodup (ht.kids_nodup hp), Finset.card_erase_of_mem ht.root_live] at hcard
  have hpos : 0 < s.live.card := Finset.card_pos.mpr ⟨r, ht.root_live⟩
  have := ht.bound
  omega

theorem kids_length_le_scanFuel (hp : p ∈ s.live) : (kids p).length ≤ scanFuel s := by
  have hsub : (kids p).toFinset ⊆ Finset.range s.nextId := by
    intro c hc
    rw [mem_toFinset] at hc
    exact Finset.mem_range.mpr (ht.fresh c (ht.kid_live hp hc))
  have hcard := Finset.card_le_card hsub
  rwa [toFinset_card_of_nodup (ht.kids_nodup hp), Finset.card_range] at hcard

end Tree

/-! ## Pointer walks as searches of the child list -/

/-- With fuel for the whole list, the walk searches the list it visits. -/
theorem findChild_chain {s : State} {name : Str} {h : Option NodeId} {l : List NodeId} {fuel : Nat}
    (hl : Chain (fun q => (s.node q).next) h l) (hfuel : l.length ≤ fuel) :
    findChild s name fuel h = l.find? (fun c => (s.node c).name = name) := by
  induction l generalizing h fuel with
  | nil =>
    subst hl
    cases fuel <;> rfl
  | cons c l ih =>
    obtain ⟨rfl, htl⟩ := hl
    cases fuel with
    | zero => simp at hfuel
    | succ fuel =>
      rw [findChild, find?_cons]
      by_cases hname : (s.node c).name = name
      · simp [hname]
      · simpa [hname] using ih htl (by simpa using hfuel)

section Walks

variable {s : State} {r : NodeId} {kids : NodeId → List NodeId} {cur : Caller}
  {p q c : NodeId} {name : Str} {comps : List Str} {hide : Bool}

/-- The child of `p` called `name`. -/
def childNamed (s : State) (kids : NodeId → List NodeId) (p : NodeId) (name : Str) :
    Option NodeId :=
  (kids p).find? (fun c => (s.node c).name = name)
variable (ht : Tree s r kids)

include ht

theorem findChild_maxFiles (hp : p ∈ s.live) :
    findChild s name maxFiles (s.node p).children = childNamed s kids p name :=
  findChild_chain (ht.chain p hp) (Nat.le_of_lt (ht.kids_length_lt hp))

theorem findChild_scanFuel (hp : p ∈ s.live) :
    findChild s name (scanFuel s) (s.node p).children = childNamed s kids p name :=
  findChild_chain (ht.chain p hp) (ht.kids_length_le_scanFuel hp)

omit ht in
theorem childNamed_some (h : childNamed s kids p name = some c) :
    c ∈ kids p ∧ (s.node c).name = name :=
  ⟨mem_of_find?_eq_some h, by simpa using find?_some h⟩

omit ht in
theorem childNamed_none (h : childNamed s kids p name = none) :
    ∀ c ∈ kids p, (s.node c).name ≠ name := by
  simpa [childNamed] using h

variable (hp : p ∈ s.live)

include hp

/-- Sibling names are distinct, so the name finds its child. -/
theorem childNamed_of_mem (hc : c ∈ kids p) (hname : (s.node c).name = name) :
    childNamed s kids p name = some c := by
  cases hfind : childNamed s kids p name with
  | none => exact absurd hname (childNamed_none hfind c hc)
  | some d =>
    obtain ⟨hd, hdn⟩ := childNamed_some hfind
    rw [ht.distinct p hp d hd c hc (hdn.trans hname.symm)]

theorem lookupLoop_cons :
    lookupLoop cur s hide (name :: comps) p =
      if (s.node p).type ≠ .dir then none
      else if !maySearch cur s p then none
      else match childNamed s kids p name with
        | none => none
        | some child =>
          if hide && hiddenFromCaller cur s child then none
          else lookupLoop cur s hide comps child := by
  rw [lookupLoop]
  exact findChild_maxFiles ht hp ▸ rfl

theorem walkLoop_cons :
    walkLoop cur s (name :: comps) p =
      if !maySearch cur s p then .denied
      else match childNamed s kids p name with
        | none => .notFound
        | some child =>
          if hiddenFromCaller cur s child then .notFound
          else if (s.node child).type ≠ .dir then .notDir
          else walkLoop cur s comps child := by
  rw [walkLoop]
  exact findChild_scanFuel ht hp ▸ rfl

/-- A successful lookup ends at a node below its start, and every directory on
the way granted search. -/
theorem lookupLoop_some (hsp : AllSearchable cur s p) (h : lookupLoop cur s hide comps p = some q) :
    q ∈ s.live ∧ AllSearchable cur s q ∧ (q = p ∨ q ≠ r) := by
  induction comps generalizing p with
  | nil =>
    simp only [lookupLoop, Option.some.injEq] at h
    subst h
    exact ⟨hp, hsp, .inl rfl⟩
  | cons name comps ih =>
    rw [lookupLoop_cons ht hp] at h
    split_ifs at h with hdir hsearch
    split at h
    · exact absurd h (by simp)
    rename_i child hfind
    obtain ⟨hkid, -⟩ := childNamed_some hfind
    have hpar := ht.kid_parent hp hkid
    split_ifs at h
    have hchild := ih (ht.kid_live hp hkid) (hsp.child (by simpa using hsearch) hpar) h
    refine ⟨hchild.1, hchild.2.1, .inr ?_⟩
    rcases hchild.2.2 with rfl | hne
    · exact ht.ne_root_of_parent hpar
    · exact hne

/-- A successful walk ends at a directory, and it and every directory above it
granted search. -/
theorem walkLoop_ok (hdir : (s.node p).type = .dir) (hsp : AllSearchable cur s p)
    (h : walkLoop cur s comps p = .ok q) :
    q ∈ s.live ∧ (s.node q).type = .dir ∧ AllSearchable cur s q ∧ maySearch cur s q = true := by
  induction comps generalizing p with
  | nil =>
    simp only [walkLoop] at h
    split_ifs at h with hsearch
    simp only [Walk.ok.injEq] at h
    subst h
    exact ⟨hp, hdir, hsp, hsearch⟩
  | cons name comps ih =>
    rw [walkLoop_cons ht hp] at h
    split_ifs at h with hsearch
    split at h
    · exact absurd h (by simp)
    rename_i child hfind
    obtain ⟨hkid, -⟩ := childNamed_some hfind
    split_ifs at h with hhid htype
    exact ih (ht.kid_live hp hkid) (by simpa using htype)
      (hsp.child (by simpa using hsearch) (ht.kid_parent hp hkid)) h

/-- After a successful walk to the parent, looking the whole path up comes down
to the last name in that parent. -/
theorem lookup_after_walk (hdir : (s.node p).type = .dir) (h : walkLoop cur s comps p = .ok q) :
    lookupLoop cur s hide (comps ++ [name]) p =
      match childNamed s kids q name with
      | none => none
      | some child => if hide && hiddenFromCaller cur s child then none else some child := by
  induction comps generalizing p with
  | nil =>
    simp only [walkLoop] at h
    split_ifs at h with hsearch
    simp only [Walk.ok.injEq] at h
    subst h
    rw [nil_append, lookupLoop_cons ht hp]
    simp [hdir, hsearch, lookupLoop]
  | cons n comps ih =>
    rw [walkLoop_cons ht hp] at h
    split_ifs at h with hsearch
    split at h
    · exact absurd h (by simp)
    rename_i child hfind
    obtain ⟨hkid, -⟩ := childNamed_some hfind
    split_ifs at h with hhid htype
    rw [cons_append, lookupLoop_cons ht hp, hfind,
      ← ih (ht.kid_live hp hkid) (by simpa using htype) h]
    simp [hdir, hsearch, hhid]

omit hp

theorem ramfsLookup_some {path : Option Str} (h : ramfsLookupLocked cur s path hide = some q) :
    q ∈ s.live ∧ AllSearchable cur s q := by
  cases path with
  | none => simp [ramfsLookupLocked] at h
  | some path =>
    simp only [ramfsLookupLocked, ht.root_eq] at h
    split_ifs at h with hslash
    · simp only [Option.some.injEq] at h
      subst h
      exact ⟨ht.root_live, ht.root_searchable⟩
    · split at h
      · exact absurd h (by simp)
      · have := lookupLoop_some ht ht.root_live ht.root_searchable h
        exact ⟨this.1, this.2.1⟩

end Walks

end TinyOS.Ramfs
