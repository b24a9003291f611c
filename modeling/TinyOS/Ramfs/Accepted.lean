import TinyOS.Ramfs.Interleaving
import TinyOS.Ramfs.Naming

/-!
# RAMFS: a path names one node

The node that a call finds or makes for a path is at the components of the path,
each cut to 31 bytes. So the components are the names from the root to this node
exactly when none is longer.
-/

namespace TinyOS.Ramfs

open TinyOS.Lib

/-- A call in state `s` accepts `path` for the node `n`. `t` is the state in which the node is
there: before the call if the call finds it, after it if the call makes or names it. -/
inductive Accepts (cur : Caller) (s : State) (path : Str) : NodeId → State → Prop
  | find {n} (h : ramfsFind cur s (some path) = some n) : Accepts cur s path n s
  | open {flags alloc fd t n} (h : ramfsOpen cur (some path) flags alloc s = (fd, t)) (hfd : 0 ≤ fd)
      (held : (t.fds fd.toNat).node = some n) : Accepts cur s path n t
  | mkdir {alloc t n} (h : ramfsMkdir cur (some path) alloc s = (0, t))
      (made : n ∈ t.live ∧ n ∉ s.live) : Accepts cur s path n t
  | unlink {t n} (h : ramfsUnlink cur (some path) s = (0, t))
      (gone : n ∈ s.live ∧ n ∉ t.live) : Accepts cur s path n s
  | renameOld {new t n} (h : ramfsRename cur (some path) new s = (0, t))
      (named : (t.node n).name ≠ (s.node n).name) : Accepts cur s path n s
  | renameNew {old t n} (h : ramfsRename cur old (some path) s = (0, t))
      (named : (t.node n).name ≠ (s.node n).name) : Accepts cur s path n t

section Calls

variable {s t : State} {r n p : NodeId} {kids : NodeId → List NodeId} {cur : Caller}
  {path : Str} {names : List Str}

theorem ChildOf.rename (h : ChildOf s p n) (m : NodeId) (name : Str) :
    ChildOf (s.modify m fun n => { n with name := name }) p n :=
  h.frame (s.modify_field _ _ _ Node.children rfl) fun _ => s.modify_field _ _ _ Node.next rfl

/-- The nodes older than a renamed one keep their paths: it is on none of them. -/
theorem AtPath.rename (ht : Tree s r kids) (h : AtPath s names p) (hlt : p < n) (name : Str) :
    AtPath (s.modify n fun m => { m with name := name }) names p := by
  induction h with
  | root hroot => exact .root hroot
  | @child _ p c hp hc ih =>
    have hpc := (ht.lt_of_descends (ht.live_of_atPath hp) (.single hc)).1
    have hat := AtPath.child (ih (hpc.trans hlt)) (hc.rename n name)
    rwa [State.modify_node_ne _ _ _ _ hlt.ne] at hat

theorem Place.renamed_atPath (hw : Wf s) {parent : NodeId} {name : Str} {comps : List Str}
    (h : Place cur s path comps parent name) (hn : n ∈ s.live)
    (hparent : (s.node n).parent = some parent) :
    AtPath (s.modify n fun m => { m with name := name }) comps n := by
  obtain ⟨r, hroot, hwalk⟩ := h.walk
  obtain ⟨kids, ht⟩ := hw.tree hroot
  have hold := ((AtPath.root hroot).walk ht hwalk).rename ht (ht.parent_lt n hn parent hparent) name
  obtain ⟨hlive, hkid⟩ := ht.mem_kids_parent hn hparent
  have hat := AtPath.child hold (((ht.childOf_iff hlive).mpr hkid).rename n name)
  rwa [State.modify_node_self, List.nil_append, List.dropLast_append_getLast? name h.last] at hat

theorem ramfsRename_named {old new : Option Str} (h : ramfsRename cur old new s = (0, t))
    (named : (t.node n).name ≠ (s.node n).name) :
    ramfsFind cur s old = some n ∧ ∃ p comps parent name, new = some p ∧
      (s.node n).parent = some parent ∧ Place cur s p comps parent name ∧
      t = s.modify n fun m => { m with name := name } := by
  rcases ramfsRename_cases cur old new s with
    ⟨e, he, hfail⟩ | ⟨node, p, comps, parent, name, hfind, hnew, hparent, hplace, hok⟩
  · rw [hfail] at h
    cases h
    exact absurd he (lt_irrefl _)
  · rw [hok] at h
    cases h
    obtain rfl : n = node := by
      by_contra hne
      exact named (by rw [State.modify_node_ne _ _ _ _ hne])
    exact ⟨hfind, p, comps, parent, name, hnew, hparent, hplace, rfl⟩

theorem Accepts.atPath (hw : Wf s) (h : Accepts cur s path n t) :
    ∃ comps, splitPath path 16 = some comps ∧ AtPath t comps n := by
  have hfound : ∀ {m}, ramfsFind cur s (some path) = some m →
      ∃ comps, splitPath path 16 = some comps ∧ AtPath s comps m := by
    intro m hfind
    obtain ⟨r, kids, ht⟩ := hw.tree_of_live (ramfsFind_some hw hfind).1
    exact ramfsLookup_atPath ht hfind
  cases h with
  | find h => exact hfound h
  | «open» h hfd held =>
    obtain ⟨comps, node, hsplit, hopened⟩ := ramfsOpen_atPath hw h hfd
    obtain rfl := Option.some.inj (hopened.held.symm.trans held)
    exact ⟨comps, hsplit, hopened.atPath⟩
  | @mkdir alloc _ _ h made =>
    rcases ramfsMkdir_cases cur (some path) alloc s with
      ⟨e, he, hfail⟩ | ⟨p, comps, parent, name, hpath, hplace, hroom, hok⟩
    · rw [hfail] at h
      cases h
      exact absurd he (lt_irrefl _)
    · rw [hok] at h
      cases h
      cases hpath
      have hnew : n = s.nextId := by simpa [made.2] using made.1
      rw [hnew]
      exact ⟨comps, hplace.split, hplace.created_atPath hw hroom .dir⟩
  | unlink h gone =>
    have heffect : MayEffect cur ⟨fun _ => False, fun m => ramfsFind cur s (some path) = some m⟩ s
        (ramfsUnlink cur (some path) s).2 := ramfsUnlink_effect hw (some path) fun _ hm => hm
    rw [h] at heffect
    exact hfound (by_contra fun hnot => gone.2 (heffect.live_stays hw gone.1 hnot).1)
  | renameOld h named => exact hfound (ramfsRename_named h named).1
  | renameNew h named =>
    obtain ⟨hfind, p, comps, parent, name, hpath, hparent, hplace, rfl⟩ := ramfsRename_named h named
    cases hpath
    exact ⟨comps, hplace.split, hplace.renamed_atPath hw (ramfsFind_some hw hfind).1 hparent⟩

theorem Accepts.wf (hw : Wf s) (h : Accepts cur s path n t) : Wf t := by
  cases h with
  | find | unlink | renameOld => exact hw
  | @«open» flags alloc _ _ _ h =>
    have hexec : Wf (ramfsOpen cur (some path) flags alloc s).2 := hw.exec ⟨cur, .open ..⟩
    rwa [h] at hexec
  | @mkdir alloc _ _ h =>
    have hexec : Wf (ramfsMkdir cur (some path) alloc s).2 := hw.exec ⟨cur, .mkdir ..⟩
    rwa [h] at hexec
  | @renameNew old _ _ h =>
    have hexec : Wf (ramfsRename cur old (some path) s).2 := hw.exec ⟨cur, .rename ..⟩
    rwa [h] at hexec

end Calls

/-- The node a call accepts a path for has one path, and it is the path given exactly when no
component of that is longer than a name can be. -/
theorem accepted_path_is_path_of_node {alloc : Bool} {calls : List Call} {cur : Caller} {path : Str}
    {n : NodeId} {t : State} (h : Accepts cur (runCalls (ramfsInit alloc) calls) path n t) :
    ∃ names, (∀ names', AtPath t names' n ↔ names' = names) ∧
      (tokens slash path = names ↔ ∀ c ∈ tokens slash path, c.length < maxName) := by
  have hw := runCalls_wf (ramfsInit_wf alloc) calls
  obtain ⟨names, hsplit, hat⟩ := h.atPath hw
  obtain ⟨r, kids, ht⟩ := (h.wf hw).tree_of_atPath hat
  refine ⟨names, fun names' => ⟨fun hat' => hat'.unique ht hat, fun heq => heq ▸ hat⟩, ?_⟩
  have hself : (tokens slash path).map cut = (tokens slash path).map id ↔ _ := List.map_inj_left
  rw [List.map_id] at hself
  rw [(splitPath_spec hsplit).1, eq_comm, hself]
  simp only [cut, id, List.take_eq_self_iff, maxName, Nat.add_one_sub_one, Nat.lt_succ_iff]

/-- The directory `a…a`, with 31 letters. -/
def longName : State :=
  runCalls (ramfsInit true) [⟨none, .mkdir (some (slash :: List.replicate 31 97)) true⟩]

theorem accepted_path_at_31_letters :
    ∃ names, (∀ names', AtPath longName names' 1 ↔ names' = names) ∧
      (tokens slash (slash :: List.replicate 31 97) = names ↔
        ∀ c ∈ tokens slash (slash :: List.replicate 31 97), c.length < maxName) :=
  accepted_path_is_path_of_node (@Accepts.find none _ _ _ (by decide +kernel))

/-- A name with one letter more is taken for it. -/
theorem two_paths_name_one_node :
    ramfsFind none longName (some (slash :: List.replicate 31 97)) = some 1 ∧
      ramfsFind none longName (some (slash :: List.replicate 32 97)) = some 1 := by
  decide +kernel

end TinyOS.Ramfs
