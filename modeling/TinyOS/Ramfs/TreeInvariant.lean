import TinyOS.Ramfs.Effect
import Mathlib.Data.Set.Card

/-!
# RAMFS: the node graph is always a tree

The structural invariant in the source's own terms: pointers, counters and
names of the nodes reached from `root` through `children` and `next`. It holds
after `ramfs_init` and every sequence of calls, whoever makes them and whatever
fails (`runCalls_treeInvariant`).

* `AtPath s names n`: going down from `root` through children called `names`
  ends at `n`;
* `TreeInvariant`: the invariant, stated without the ghost child lists;
* `Wf.treeInvariant`: it follows from the inductive invariant `Wf`.
-/

namespace TinyOS.Ramfs

open TinyOS.Lib Relation

/-- The sibling chain hanging off `p`. -/
def IsChildList (s : State) (p : NodeId) (l : List NodeId) : Prop :=
  Chain (fun q => (s.node q).next) (s.node p).children l

/-- `c` is on `p`'s child list. -/
def ChildOf (s : State) (p c : NodeId) : Prop := ∃ l, IsChildList s p l ∧ c ∈ l

/-- Going down from the root through children called `names` ends at the node. -/
inductive AtPath (s : State) : List Str → NodeId → Prop
  | root {r} (h : s.root = some r) : AtPath s [] r
  | child {names p c} (hp : AtPath s names p) (hc : ChildOf s p c) :
      AtPath s (names ++ [(s.node c).name]) c

/-- The node is reachable from the root. -/
def Reachable (s : State) (n : NodeId) : Prop := ∃ names, AtPath s names n

/-- What `check_dir` and `check_invariants` of the fuzzer ask of the tree, and
that every node is found again by its path. -/
structure TreeInvariant (s : State) : Prop where
  /-- Every child list ends. -/
  list : ∀ p, Reachable s p → ∃ l, IsChildList s p l
  root_parent : ∀ r, s.root = some r → (s.node r).parent = none
  parent : ∀ p c, Reachable s p → ChildOf s p c → (s.node c).parent = some p
  acyclic : ∀ p, Reachable s p → ¬ TransGen (ChildOf s) p p
  files : ∀ p c, Reachable s p → (s.node p).type = .file → ¬ ChildOf s p c
  distinct : ∀ p a b, Reachable s p → ChildOf s p a → ChildOf s p b →
    (s.node a).name = (s.node b).name → a = b
  names : ∀ p c, Reachable s p → ChildOf s p c → ValidName (s.node c).name
  count : ∀ p l, Reachable s p → IsChildList s p l → (s.node p).childCount = l.length
  total : s.totalNodes = Set.ncard { n | Reachable s n }
  bound : s.totalNodes ≤ 64
  find : ∀ cur : Caller, cur.uid = 0 → ∀ names n, AtPath s names n → names ≠ [] →
    names.length ≤ 16 → ramfsFind cur s (some (joinPath names)) = some n

namespace Tree

variable {s : State} {r : NodeId} {kids : NodeId → List NodeId} {p c : NodeId}
variable (ht : Tree s r kids)

include ht

theorem isChildList_iff (hp : p ∈ s.live) {l : List NodeId} : IsChildList s p l ↔ l = kids p := by
  constructor
  · intro hl
    exact hl.unique (ht.chain p hp)
  · rintro rfl
    exact ht.chain p hp

theorem childOf_iff (hp : p ∈ s.live) : ChildOf s p c ↔ c ∈ kids p := by
  constructor
  · rintro ⟨l, hl, hc⟩
    rwa [(ht.isChildList_iff hp).mp hl] at hc
  · intro hc
    exact ⟨kids p, (ht.isChildList_iff hp).mpr rfl, hc⟩

theorem live_of_atPath {names : List Str} {n : NodeId} (h : AtPath s names n) : n ∈ s.live := by
  induction h with
  | root h =>
    obtain rfl : r = _ := Option.some.inj (ht.root_eq.symm.trans h)
    exact ht.root_live
  | child _ hc ih => exact ht.kid_live ih ((ht.childOf_iff ih).mp hc)

/-- Every live node is reachable: its parent is older, and hangs under the root. -/
theorem reachable_of_live : ∀ n ∈ s.live, Reachable s n := by
  intro n
  induction n using Nat.strong_induction_on with
  | _ n ih =>
    intro hn
    by_cases hnr : n = r
    · subst hnr
      exact ⟨[], .root ht.root_eq⟩
    obtain ⟨p, hpar⟩ := ht.exists_parent hn hnr
    obtain ⟨hp, hkid⟩ := ht.mem_kids_parent hn hpar
    obtain ⟨names, hpath⟩ := ih p (ht.parent_lt n hn p hpar) hp
    exact ⟨_, .child hpath ((ht.childOf_iff hp).mpr hkid)⟩

theorem reachable_iff {n : NodeId} : Reachable s n ↔ n ∈ s.live :=
  ⟨fun ⟨_, h⟩ => ht.live_of_atPath h, ht.reachable_of_live n⟩

/-- Going down increases the allocation number, so it never comes back. -/
theorem lt_of_descends (hp : p ∈ s.live) (h : TransGen (ChildOf s) p c) : p < c ∧ c ∈ s.live := by
  have hstep : ∀ a b, a ∈ s.live → ChildOf s a b → a < b ∧ b ∈ s.live := by
    intro a b ha hab
    have hkid := (ht.childOf_iff ha).mp hab
    have hb := ht.kid_live ha hkid
    exact ⟨ht.parent_lt b hb a (ht.kid_parent ha hkid), hb⟩
  induction h with
  | single h => exact hstep p _ hp h
  | tail _ h ih =>
    have := hstep _ _ ih.2 h
    exact ⟨ih.1.trans this.1, this.2⟩

/-- Root's lookup follows a path of child names to its end. -/
theorem lookupLoop_atPath {cur : Caller} (hcur : cur.uid = 0) {names rest : List Str} {n : NodeId}
    (h : AtPath s names n) :
    lookupLoop cur s true (names ++ rest) r = lookupLoop cur s true rest n := by
  induction h generalizing rest with
  | root h =>
    obtain rfl : r = _ := Option.some.inj (ht.root_eq.symm.trans h)
    rfl
  | child hp hc ih =>
    have hlive := ht.live_of_atPath hp
    have hkid := (ht.childOf_iff hlive).mp hc
    rw [List.append_assoc, ih, List.singleton_append, lookupLoop_cons ht hlive,
      childNamed_of_mem ht hlive hkid rfl]
    simp [ht.dir_of_kid hlive hkid, maySearch, permits_root hcur, hiddenFromCaller_root hcur]

theorem names_of_atPath {names : List Str} {n : NodeId} (h : AtPath s names n) :
    ∀ x ∈ names, ValidName x := by
  induction h with
  | root h => simp
  | child hp hc ih =>
    have hlive := ht.live_of_atPath hp
    have hkid := (ht.childOf_iff hlive).mp hc
    refine List.forall_mem_append.mpr ⟨ih, List.forall_mem_singleton.mpr ?_⟩
    exact ht.names _ (ht.kid_live hlive hkid) (ht.ne_root_of_parent (ht.kid_parent hlive hkid))

theorem ramfsFind_atPath {cur : Caller} (hcur : cur.uid = 0) {names : List Str} {n : NodeId}
    (h : AtPath s names n) (hne : names ≠ []) (hlen : names.length ≤ 16) :
    ramfsFind cur s (some (joinPath names)) = some n := by
  have hvalid := ht.names_of_atPath h
  have hslash : joinPath names ≠ [slash] := by
    cases names with
    | nil => exact absurd rfl hne
    | cons x xs =>
      have hx := (hvalid x List.mem_cons_self).nonempty
      simp [joinPath, hx]
  have hlookup : lookupLoop cur s true names r = some n := by
    have happ : lookupLoop cur s true (names ++ []) r = lookupLoop cur s true [] n :=
      ht.lookupLoop_atPath hcur h
    simpa [lookupLoop] using happ
  simp [ramfsFind, ramfsLookupLocked, ht.root_eq, hslash, splitPath_joinPath hvalid hlen, hlookup]

end Tree

/-- The inductive invariant gives the one of the fuzzer. -/
theorem Wf.treeInvariant {s : State} (hw : Wf s) : TreeInvariant s := by
  rcases hw with ⟨hroot, -, htotal⟩ | ⟨r, kids, ht⟩
  · -- no root: nothing is reachable
    have hpath : ∀ names n, ¬ AtPath s names n := by
      intro names n h
      induction h with
      | root h => simp [hroot] at h
      | child _ _ ih => exact ih
    have hnone : ∀ n, ¬ Reachable s n := fun n ⟨names, h⟩ => hpath names n h
    refine
      { list := fun p hp => absurd hp (hnone p)
        root_parent := fun r hr => by simp [hroot] at hr
        parent := fun p _ hp => absurd hp (hnone p)
        acyclic := fun p hp => absurd hp (hnone p)
        files := fun p _ hp => absurd hp (hnone p)
        distinct := fun p _ _ hp => absurd hp (hnone p)
        names := fun p _ hp => absurd hp (hnone p)
        count := fun p _ hp => absurd hp (hnone p)
        total := ?_
        bound := by omega
        find := fun _ _ names n h => absurd h (hpath names n) }
    have hempty : { n | Reachable s n } = ∅ := Set.eq_empty_of_forall_notMem hnone
    rw [hempty, Set.ncard_empty, htotal]
  · refine
      { list := fun p hp => ⟨kids p, ht.chain p (ht.reachable_iff.mp hp)⟩
        root_parent := ?_, parent := ?_, acyclic := ?_, files := ?_, distinct := ?_, names := ?_
        count := ?_, total := ?_, bound := ?_
        find := fun cur hcur names n h hne hlen => ht.ramfsFind_atPath hcur h hne hlen }
    · intro r' hr'
      obtain rfl : r = r' := Option.some.inj (ht.root_eq.symm.trans hr')
      exact ht.root_parent
    · intro p c hp hc
      have hp := ht.reachable_iff.mp hp
      exact ht.kid_parent hp ((ht.childOf_iff hp).mp hc)
    · intro p hp hcycle
      exact absurd (ht.lt_of_descends (ht.reachable_iff.mp hp) hcycle).1 (lt_irrefl p)
    · intro p c hp hfile hc
      have hp := ht.reachable_iff.mp hp
      have hdir := ht.dir_of_kid hp ((ht.childOf_iff hp).mp hc)
      simp [hdir] at hfile
    · intro p a b hp ha hb hab
      have hp := ht.reachable_iff.mp hp
      exact ht.distinct p hp a ((ht.childOf_iff hp).mp ha) b ((ht.childOf_iff hp).mp hb) hab
    · intro p c hp hc
      have hp := ht.reachable_iff.mp hp
      have hkid := (ht.childOf_iff hp).mp hc
      exact ht.names c (ht.kid_live hp hkid) (ht.ne_root_of_parent (ht.kid_parent hp hkid))
    · intro p l hp hl
      have hp := ht.reachable_iff.mp hp
      rw [(ht.isChildList_iff hp).mp hl]
      exact ht.count p hp
    · have hset : { n | Reachable s n } = (s.live : Set NodeId) := by
        simp [ht.reachable_iff]
      rw [hset, Set.ncard_coe_finset]
      exact ht.total
    · rw [ht.total]
      exact ht.bound

/-! ## Runs -/

/-- `ramfs_init` leaves a root directory and nothing else, or nothing at all. -/
theorem ramfsInit_wf (alloc : Bool) : Wf (ramfsInit alloc) := by
  cases alloc with
  | false => exact .inl ⟨rfl, rfl, rfl⟩
  | true =>
    refine .inr ⟨0, fun _ => [], ?_⟩
    have hlive : ∀ {p}, p ∈ (ramfsInit true).live → p = 0 := by
      simp [ramfsInit, allocNode, State.boot, maxFiles]
    have hnopar : ∀ {c p}, c ∈ (ramfsInit true).live → ¬ ParentOf (ramfsInit true) c p := by
      intro c p hc hpar
      rw [hlive hc] at hpar
      simp [ParentOf, ramfsInit, allocNode, State.boot, maxFiles, newNode] at hpar
    refine
      { root_eq := rfl
        root_live := by decide
        root_dir := rfl
        root_parent := rfl
        orphan := fun c hc _ => hlive hc
        parent_live := fun c hc p hpar => absurd hpar (hnopar hc)
        parent_lt := fun c hc p hpar => absurd hpar (hnopar hc)
        chain := ?_
        mem_kids := fun p _ c => by simpa using fun hc => hnopar hc
        leaf := fun _ _ _ => rfl
        names := fun c hc hne => absurd (hlive hc) hne
        distinct := by simp
        count := ?_
        total := by decide
        bound := by decide
        fresh := ?_ }
    · intro p hp
      rw [hlive hp]
      rfl
    · intro p hp
      rw [hlive hp]
      rfl
    · intro p hp
      rw [hlive hp]
      decide

theorem runCalls_wf {s : State} (hw : Wf s) (calls : List Call) : Wf (runCalls s calls) :=
  List.foldlRecOn calls _ hw fun _ hw c _ => hw.exec c

/-- After `ramfs_init` and any sequence of calls, by any callers, on any paths,
with any allocation failing, the node graph is a tree with the counters, names
and lookups it should have. -/
theorem runCalls_treeInvariant (alloc : Bool) (calls : List Call) :
    TreeInvariant (runCalls (ramfsInit alloc) calls) :=
  (runCalls_wf (ramfsInit_wf alloc) calls).treeInvariant

/-- A task of uid 1000. -/
def stranger : Caller := some ⟨5, 1, 1000, 1000, 1000, []⟩

end TinyOS.Ramfs
