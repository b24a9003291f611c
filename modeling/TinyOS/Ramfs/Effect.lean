import TinyOS.Ramfs.Surgery

/-!
# RAMFS: everything an operation can do

`Effect cur use s s'` lists the changes an operation by `cur` can make, each
with the checks the code passed on the way; `use` are the descriptor slots and
the node the operation names. Every operation has no effect, one, or, when `ramfs_open`
creates its file first, two (`exec_effects`), so an invariant is proved by going
through the effects once and never through the operations' branches again.

`Wf` is the standing invariant: either `ramfs_init` failed to allocate a root
and nothing exists, or the heap is a tree.
-/

namespace TinyOS.Ramfs

open TinyOS.Lib Relation List

/-- There is no filesystem, or the heap is a tree. -/
def Wf (s : State) : Prop :=
  (s.root = none ∧ s.live = ∅ ∧ s.totalNodes = 0) ∨ ∃ r kids, Tree s r kids

/-- A place where a new name may go: a directory the caller reached through
searchable directories, and a name nobody in it has. -/
structure Spot (cur : Caller) (s : State) (parent : NodeId) (name : Str) : Prop where
  live : parent ∈ s.live
  dir : (s.node parent).type = .dir
  above : AllSearchable cur s parent
  search : maySearch cur s parent = true
  write : permits cur (s.node parent) flagWrite = true
  valid : ValidName name
  fresh : ∀ c ∈ s.live, ParentOf s c parent → (s.node c).name ≠ name

/-- An entry the caller may take off or relabel. -/
structure Entry (cur : Caller) (s : State) (parent node : NodeId) : Prop where
  live : node ∈ s.live
  parentOf : ParentOf s node parent
  above : AllSearchable cur s node
  write : permits cur (s.node parent) flagWrite = true

/-- A descriptor slot that is in use. -/
abbrev InUse (s : State) (i : Nat) : Prop := i < maxFds ∧ (s.fds i).inUse = true

/-- What an operation names: the descriptor slots it may use, the nodes it may
remove. -/
structure Scope where
  slot : Nat → Prop
  victim : NodeId → Prop

/-- What an operation by `cur` within the scope `use` can do to the state. -/
inductive Effect (cur : Caller) (use : Scope) : State → State → Prop
  | create {s parent name} (type : NodeType) (spot : Spot cur s parent name)
      (room : s.totalNodes < maxFiles) :
      Effect cur use s (insertNode s parent name type cur.uid cur.gid)
  | remove {s s' parent node} (entry : Entry cur s parent node) (named : use.victim node)
      (empty : ∀ c ∈ s.live, ¬ ParentOf s c node) (idle : ramfsNodeIsBusy s node = false)
      (gone : removeNode s parent node = some s') : Effect cur use s s'
  | rename {s parent node name} (entry : Entry cur s parent node) (spot : Spot cur s parent name) :
      Effect cur use s (s.modify node fun n => { n with name := name })
  | chmod {s node} (mode : Nat) (live : node ∈ s.live)
      (owner : cur.uid = 0 ∨ cur.uid = (s.node node).uid) :
      Effect cur use s (s.modify node fun n => { n with mode := mode &&& permMask })
  | claim {s node flags i} (live : node ∈ s.live) (above : AllSearchable cur s node)
      (file : (s.node node).type = .file) (granted : permits cur (s.node node) flags = true)
      (lt : i < maxFds) (free : (s.fds i).inUse = false) :
      Effect cur use s (s.setFd i (openedFd cur node flags))
  | write {s i node src} (allocs : Nat → Bool) (slot : InUse s i) (named : use.slot i)
      (flag : (s.fds i).flags &&& flagWrite ≠ 0) (node_eq : (s.fds i).node = some node)
      (pos : (s.fds i).pos < maxData) (fits : src.length ≤ maxData - (s.fds i).pos) :
      Effect cur use s
        ((s.modify node fun n => (writeNode allocs src (s.fds i).pos n).1).setFd i
          { s.fds i with
            pos := (s.fds i).pos + (writeNode allocs src (s.fds i).pos (s.node node)).2 })
  | truncate {s i node} (slot : InUse s i) (named : use.slot i)
      (flag : (s.fds i).flags &&& flagWrite ≠ 0)
      (node_eq : (s.fds i).node = some node) :
      Effect cur use s ((s.modify node fun n =>
        { n with size := 0, dataPages := fun k => (n.dataPages k).map fun _ => zeroPage }).setFd i
          { s.fds i with pos := 0 })
  | cursor {s i node pos} (slot : InUse s i) (named : use.slot i) (node_eq : (s.fds i).node = some node)
      (bound : pos ≤ (s.node node).size) : Effect cur use s (s.setFd i { s.fds i with pos := pos })
  | refs {s i} (refs : Nat) (slot : InUse s i) (named : use.slot i) :
      Effect cur use s (s.setFd i { s.fds i with refs := refs })
  | release {s i} (slot : InUse s i) (named : use.slot i) :
      Effect cur use s (s.setFd i { Fd.free with closeOnExec := (s.fds i).closeOnExec })
  | claimDir {s dir i} (live : dir ∈ s.live) (free : (s.handles i).inUse = false) :
      Effect cur use s (s.setHandle i
        { ramfsFd := -1, inUse := true, isDir := true, dirNode := some dir, dirPos := 0 })
  | releaseDir {s} (i : Nat) : Effect cur use s (s.setHandle i { Handle.free with ramfsFd := -1 })

/-- At most one effect. -/
abbrev MayEffect (cur : Caller) (use : Scope) : State → State → Prop :=
  ReflGen (Effect cur use)

/-- A finite sequence of effects. -/
abbrev Effects (cur : Caller) (use : Scope) : State → State → Prop :=
  ReflTransGen (Effect cur use)

/-! ## The tree survives every effect -/

theorem writeLoop_frame (allocs : Nat → Bool) (src : List UInt8) (off k : Nat) (n : Node) :
    (writeLoop allocs src off k n).1 =
      { n with dataPages := (writeLoop allocs src off k n).1.dataPages } := by
  induction src generalizing off k n with
  | nil => rfl
  | cons b src ih =>
    rw [writeLoop]
    split
    · rfl
    split
    · exact ih _ _ _
    split
    · exact ih _ _ _
    · rfl

theorem writeNode_frame (allocs : Nat → Bool) (src : List UInt8) (pos : Nat) (n : Node) :
    (writeNode allocs src pos n).1 =
      { n with
        size := (writeNode allocs src pos n).1.size
        dataPages := (writeNode allocs src pos n).1.dataPages } := by
  simp only [writeNode]
  rw [writeLoop_frame]

variable {s : State} {r : NodeId} {kids : NodeId → List NodeId}
variable (ht : Tree s r kids)

include ht

/-- An assignment through a node pointer that leaves the links alone. -/
theorem Tree.modify (p : NodeId) (f : Node → Node) (hf : SameLinks (s.node p) (f (s.node p))) :
    Tree (s.modify p f) r kids := by
  refine ht.frame rfl rfl rfl rfl fun q _ => ?_
  rw [State.modify_node]
  split
  · rename_i hq
    subst hq
    exact hf
  · exact SameLinks.rfl

theorem Tree.setFd (i : Nat) (d : Fd) : Tree (s.setFd i d) r kids :=
  ht.frame rfl rfl rfl rfl fun _ _ => SameLinks.rfl

theorem Tree.setHandle (i : Nat) (h : Handle) : Tree (s.setHandle i h) r kids :=
  ht.frame rfl rfl rfl rfl fun _ _ => SameLinks.rfl

variable {s' : State} {parent : NodeId} {cur : Caller}

theorem Tree.remove_cases {node : NodeId} (entry : Entry cur s parent node)
    (gone : removeNode s parent node = some s') :
    parent ∈ s.live ∧ node ∈ kids parent ∧ Removed s s' parent node (kids parent) := by
  obtain ⟨hp, hn⟩ := ht.mem_kids_parent entry.live entry.parentOf
  obtain ⟨s₁, hs₁, hr⟩ := removeNode_spec ht hp hn
  obtain rfl : s₁ = s' := Option.some.inj (hs₁.symm.trans gone)
  exact ⟨hp, hn, hr⟩

theorem Tree.kids_eq_nil {node : NodeId} (hn : node ∈ s.live)
    (empty : ∀ c ∈ s.live, ¬ ParentOf s c node) : kids node = [] := by
  refine eq_nil_iff_forall_not_mem.mpr fun c hc => ?_
  obtain ⟨hcl, hcp⟩ := (ht.mem_kids node hn c).mp hc
  exact empty c hcl hcp

theorem Tree.effect {use : Scope} (h : Effect cur use s s') : ∃ kids', Tree s' r kids' := by
  cases h with
  | create type spot room =>
    refine ⟨_, ht.insertNode spot.live spot.dir spot.valid (fun c hc => ?_) room⟩
    obtain ⟨hcl, hcp⟩ := (ht.mem_kids _ spot.live c).mp hc
    exact spot.fresh c hcl hcp
  | remove entry named empty idle gone =>
    obtain ⟨hp, hn, hr⟩ := ht.remove_cases entry gone
    exact ⟨_, ht.removed hp hn (ht.kids_eq_nil entry.live empty) hr⟩
  | rename entry spot =>
    obtain ⟨hp, hn⟩ := ht.mem_kids_parent entry.live entry.parentOf
    refine ⟨kids, ht.rename hp hn spot.valid fun c hc => ?_⟩
    obtain ⟨hcl, hcp⟩ := (ht.mem_kids _ hp c).mp hc
    exact spot.fresh c hcl hcp
  | chmod mode live owner => exact ⟨kids, ht.modify _ _ ⟨rfl, rfl, rfl, rfl, rfl, rfl⟩⟩
  | claim | cursor | refs | release => exact ⟨kids, ht.setFd _ _⟩
  | write allocs slot named flag node_eq pos fits =>
    refine ⟨kids, (ht.modify _ _ ?_).setFd _ _⟩
    rw [writeNode_frame]
    exact ⟨rfl, rfl, rfl, rfl, rfl, rfl⟩
  | truncate slot named flag node_eq =>
    exact ⟨kids, (ht.modify _ _ ⟨rfl, rfl, rfl, rfl, rfl, rfl⟩).setFd _ _⟩
  | claimDir | releaseDir => exact ⟨kids, ht.setHandle _ _⟩

omit ht

theorem Wf.effect {use : Scope} (hw : Wf s) (h : Effect cur use s s') : Wf s' := by
  rcases hw with ⟨hroot, hlive, htotal⟩ | ⟨r, kids, ht⟩
  · left
    cases h with
    | create type spot room => simpa [hlive] using spot.live
    | remove entry named empty idle gone | rename entry spot => simpa [hlive] using entry.live
    | chmod mode live owner | claim | cursor | refs | release
    | write | truncate | claimDir | releaseDir => exact ⟨hroot, hlive, htotal⟩
  · obtain ⟨kids', ht'⟩ := ht.effect h
    exact .inr ⟨r, kids', ht'⟩

theorem Wf.effects {use : Scope} (hw : Wf s) (h : Effects cur use s s') : Wf s' := by
  induction h with
  | refl => exact hw
  | tail _ hlast ih => exact ih.effect hlast

/-! ## Searchability survives changes elsewhere -/

/-- The fields a path walk looks at are the same. -/
structure SameAccess (n n' : Node) : Prop where
  parent : n'.parent = n.parent
  mode : n'.mode = n.mode
  uid : n'.uid = n.uid
  gid : n'.gid = n.gid

theorem SameAccess.permits_eq {n n' : Node} (h : SameAccess n n') (cur : Caller) (access : Nat) :
    permits cur n' access = permits cur n access := by
  simp only [permits, ramfsCheckPermission, h.mode, h.uid, h.gid]

theorem AllSearchable.frame {n : NodeId} (ht : Tree s r kids) (hn : n ∈ s.live)
    (hsame : ∀ q ∈ s.live, SameAccess (s.node q) (s'.node q)) (h : AllSearchable cur s n) :
    AllSearchable cur s' n := by
  have hpath : ∀ d, TransGen (ParentOf s') n d → TransGen (ParentOf s) n d ∧ d ∈ s.live := by
    intro d hd
    induction hd with
    | single hd =>
      rw [ParentOf, (hsame n hn).parent] at hd
      exact ⟨.single hd, ht.parent_live n hn _ hd⟩
    | tail _ hd ih =>
      rw [ParentOf, (hsame _ ih.2).parent] at hd
      exact ⟨ih.1.tail hd, ht.parent_live _ ih.2 _ hd⟩
  intro d hd
  obtain ⟨hd, hlive⟩ := hpath d hd
  rw [maySearch, (hsame d hlive).permits_eq]
  exact h d hd

theorem insertNode_sameAccess
    {q : NodeId} {name : Str} {type : NodeType} {uid gid : Nat} (ht : Tree s r kids)
    (hq : q ∈ s.live) : SameAccess (s.node q) ((insertNode s parent name type uid gid).node q) := by
  rw [insertNode_node_old (ht.fresh q hq).ne]
  exact ⟨rfl, rfl, rfl, rfl⟩

/-- A freshly created node is as reachable as its directory is searchable. -/
theorem Spot.searchable_new {name : Str} {type : NodeType} {uid gid : Nat}
    (spot : Spot cur s parent name) (ht : Tree s r kids) :
    AllSearchable cur (insertNode s parent name type uid gid) s.nextId := by
  have hsame : ∀ q ∈ s.live,
      SameAccess (s.node q) ((insertNode s parent name type uid gid).node q) :=
    fun q hq => insertNode_sameAccess ht hq
  refine AllSearchable.child (AllSearchable.frame ht spot.live hsame spot.above) ?_ ?_
  · rw [maySearch, (hsame parent spot.live).permits_eq]
    exact spot.search
  · rw [ParentOf, insertNode_node_new (ht.fresh parent spot.live).ne]

/-! ## The operations, one by one -/

section Operations

variable {s : State} {cur : Caller} {use : Scope}

theorem ramfsLookup_of_root_none (hroot : s.root = none) (path : Option Str) (hide : Bool) :
    ramfsLookupLocked cur s path hide = none := by
  simp [ramfsLookupLocked, hroot]

theorem ramfsFind_some (hw : Wf s) {path : Option Str} {node : NodeId}
    (h : ramfsFind cur s path = some node) : node ∈ s.live ∧ AllSearchable cur s node := by
  rcases hw with ⟨hroot, -, -⟩ | ⟨r, kids, ht⟩
  · rw [ramfsFind, ramfsLookup_of_root_none hroot] at h
    exact absurd h (by simp)
  · exact ramfsLookup_some ht h

theorem Wf.tree (hw : Wf s) (hroot : s.root = some r) : ∃ kids, Tree s r kids := by
  rcases hw with ⟨hnone, -, -⟩ | ⟨r', kids, ht⟩
  · rw [hnone] at hroot
    exact absurd hroot (by simp)
  · obtain rfl : r' = r := Option.some.inj (ht.root_eq.symm.trans hroot)
    exact ⟨kids, ht⟩

theorem Wf.tree_of_live {n : NodeId} (hw : Wf s) (hn : n ∈ s.live) : ∃ r kids, Tree s r kids := by
  rcases hw with ⟨-, hnil, -⟩ | ht
  · simp [hnil] at hn
  · exact ht

theorem Wf.remove_cases {parent node : NodeId} (hw : Wf s) (entry : Entry cur s parent node)
    (gone : removeNode s parent node = some s') : ∃ kids, Removed s s' parent node kids := by
  obtain ⟨r, kids, ht⟩ := hw.tree_of_live entry.live
  exact ⟨_, (ht.remove_cases entry gone).2.2⟩

/-- The walk to the parent and the second lookup leave a place for the name. -/
theorem spot_of_walk {p name : Str} {comps : List Str} (hw : Wf s)
    (hroot : s.root = some r) (hsplit : splitPath p 16 = some comps)
    (hlast : comps.getLast? = some name) (hwalk : walkToParent cur s r comps = .ok parent)
    (hwrite : permits cur (s.node parent) flagWrite = true)
    (hnone : (ramfsFindAny cur s (some p)).isSome = false) : Spot cur s parent name := by
  obtain ⟨kids, ht⟩ := hw.tree hroot
  obtain ⟨hlive, hdir, habove, hsearch⟩ :=
    walkLoop_ok ht ht.root_live ht.root_dir ht.root_searchable hwalk
  have hcomps : comps.dropLast ++ [name] = comps := dropLast_append_getLast? name hlast
  refine ⟨hlive, hdir, habove, hsearch, hwrite,
    splitPath_valid hsplit name (mem_of_getLast? hlast), ?_⟩
  have hslash : p ≠ [slash] := by
    rintro rfl
    have hnil : splitPath [slash] 16 = some [] := by decide
    rw [hnil] at hsplit
    simp only [Option.some.injEq] at hsplit
    simp [← hsplit] at hlast
  -- the lookup that ignores hiding would have seen the name
  have hlookup : lookupLoop cur s false (comps.dropLast ++ [name]) r = none := by
    rw [hcomps]
    simpa [ramfsFindAny, ramfsLookupLocked, hroot, hslash, hsplit] using hnone
  rw [lookup_after_walk ht ht.root_live ht.root_dir hwalk] at hlookup
  have hfree : childNamed s kids parent name = none := by
    cases hchild : childNamed s kids parent name with
    | none => rfl
    | some child => simp [hchild] at hlookup
  intro c hc hpar
  exact childNamed_none hfree c ((ht.mem_kids parent hlive c).mpr ⟨hc, hpar⟩)

/-- Allocating and linking a node is `insertNode`, or nothing when it fails. -/
theorem allocNode_cases (alloc : Bool) (name : Str) (type : NodeType) (uid gid : Nat) (s : State) :
    allocNode alloc name type uid gid s = (none, s) ∨
    ∃ s', allocNode alloc name type uid gid s = (some s.nextId, s') ∧ s.totalNodes < maxFiles ∧
      ∀ parent, linkChild s' parent s.nextId = insertNode s parent name type uid gid := by
  unfold allocNode
  split
  · exact .inl rfl
  split
  · exact .inl rfl
  · exact .inr ⟨_, rfl, by omega, fun _ => rfl⟩

/-- Where a call that gives a node the last name of `path` has come to. -/
structure Place (cur : Caller) (s : State) (path : Str) (comps : List Str) (parent : NodeId)
    (name : Str) : Prop where
  split : splitPath path 16 = some comps
  last : comps.getLast? = some name
  walk : ∃ r, s.root = some r ∧ walkToParent cur s r comps = .ok parent
  write : permits cur (s.node parent) flagWrite = true
  unused : (ramfsFindAny cur s (some path)).isSome = false

theorem Place.spot {p name : Str} {comps : List Str} (h : Place cur s p comps parent name)
    (hw : Wf s) : Spot cur s parent name := by
  obtain ⟨r, hroot, hwalk⟩ := h.walk
  exact spot_of_walk hw hroot h.split h.last hwalk h.write h.unused

/-- `ramfs_mkdir` fails and changes nothing, or makes a directory at the place. -/
theorem ramfsMkdir_cases (cur : Caller) (path : Option Str) (alloc : Bool) (s : State) :
    (∃ e < 0, ramfsMkdir cur path alloc s = (e, s)) ∨
    ∃ p comps parent name, path = some p ∧ Place cur s p comps parent name ∧
      s.totalNodes < maxFiles ∧
      ramfsMkdir cur path alloc s = (0, insertNode s parent name .dir cur.uid cur.gid) := by
  unfold ramfsMkdir
  split
  swap
  · exact .inl ⟨_, by decide, rfl⟩
  rename_i p root hroot
  split
  · exact .inl ⟨_, by decide, rfl⟩
  split
  · exact .inl ⟨_, by decide, rfl⟩
  rename_i comps hsplit
  split
  · exact .inl ⟨_, by decide, rfl⟩
  rename_i name hlast
  split
  · exact .inl ⟨_, by decide, rfl⟩
  · exact .inl ⟨_, by decide, rfl⟩
  · exact .inl ⟨_, by decide, rfl⟩
  rename_i parent hwalk
  split
  · exact .inl ⟨_, by decide, rfl⟩
  rename_i hwrite
  split
  · exact .inl ⟨_, by decide, rfl⟩
  rename_i hany
  split
  · exact .inl ⟨_, by decide, rfl⟩
  have hplace : Place cur s p comps parent name :=
    ⟨hsplit, hlast, ⟨root, hroot, hwalk⟩, by simpa using hwrite, by simpa using hany⟩
  rcases allocNode_cases alloc name .dir cur.uid cur.gid s with hfail | ⟨s', hok, hroom, hlink⟩
  · rw [hfail]
    exact .inl ⟨_, by decide, rfl⟩
  · rw [hok]
    simp only [hlink]
    exact .inr ⟨p, comps, parent, name, rfl, hplace, hroom, rfl⟩

theorem ramfsMkdir_effect (hw : Wf s) (path : Option Str) (alloc : Bool) :
    MayEffect cur use s (ramfsMkdir cur path alloc s).2 := by
  rcases ramfsMkdir_cases cur path alloc s with ⟨e, -, h⟩ | ⟨p, comps, parent, name, -, hplace, hroom, h⟩
  · rw [h]
  · rw [h]
    exact .single (.create .dir (hplace.spot hw) hroom)

theorem ramfsRmdir_effect (hw : Wf s) (path : Option Str)
    (hv : ∀ n, ramfsFind cur s path = some n → use.victim n) :
    MayEffect cur use s (ramfsRmdir cur path s).2 := by
  fun_cases ramfsRmdir cur path s
  case case9 node hfind _ _ hchildren parent hparent hwrite hbusy s' hgone =>
    obtain ⟨hlive, habove⟩ := ramfsFind_some hw hfind
    refine .single (.remove ⟨hlive, hparent, habove, by simpa using hwrite⟩ (hv node hfind) ?_
      (by simpa using hbusy) hgone)
    -- an empty list head is an empty child list
    intro c hc hpar
    obtain ⟨r, kids, ht⟩ := hw.tree_of_live hlive
    have hkid := (ht.mem_kids node hlive c).mpr ⟨hc, hpar⟩
    have hnil : kids node = [] := (ht.chain node hlive).eq_none_iff.mp (by simpa using hchildren)
    rw [hnil] at hkid
    exact absurd hkid not_mem_nil
  all_goals exact .refl

theorem ramfsUnlink_effect (hw : Wf s) (path : Option Str)
    (hv : ∀ n, ramfsFind cur s path = some n → use.victim n) :
    MayEffect cur use s (ramfsUnlink cur path s).2 := by
  fun_cases ramfsUnlink cur path s
  case case8 node hfind _ hfile parent hparent hwrite hbusy s' hgone =>
    obtain ⟨hlive, habove⟩ := ramfsFind_some hw hfind
    refine .single (.remove ⟨hlive, hparent, habove, by simpa using hwrite⟩ (hv node hfind) ?_
      (by simpa using hbusy) hgone)
    -- a file has no children
    intro c hc hpar
    obtain ⟨r, kids, ht⟩ := hw.tree_of_live hlive
    have hkid := (ht.mem_kids node hlive c).mpr ⟨hc, hpar⟩
    have hdir := ht.dir_of_kid hlive hkid
    simp [hdir] at hfile
  all_goals exact .refl

/-- `ramfs_rename` fails and changes nothing, or gives the node another name in its directory. -/
theorem ramfsRename_cases (cur : Caller) (oldPath newPath : Option Str) (s : State) :
    (∃ e < 0, ramfsRename cur oldPath newPath s = (e, s)) ∨
    ∃ node p comps parent name, ramfsFind cur s oldPath = some node ∧ newPath = some p ∧
      (s.node node).parent = some parent ∧ Place cur s p comps parent name ∧
      ramfsRename cur oldPath newPath s = (0, s.modify node fun n => { n with name := name }) := by
  unfold ramfsRename
  repeat' split
  any_goals exact .inl ⟨_, by decide, rfl⟩
  -- all checks are passed
  rename_i _ op np root hroot _ node hfind _ _ _ parent hparent hwrite _ comps hsplit _ name hlast _
    newParent hwalk hsame hany
  obtain rfl : newParent = parent := not_not.mp hsame
  have hplace : Place cur s np comps newParent name :=
    ⟨hsplit, hlast, ⟨root, hroot, hwalk⟩, by simpa using hwrite, by simpa using hany⟩
  exact .inr ⟨node, np, comps, newParent, name, hfind, rfl, hparent, hplace, rfl⟩

theorem ramfsRename_effect (hw : Wf s) (oldPath newPath : Option Str) :
    MayEffect cur use s (ramfsRename cur oldPath newPath s).2 := by
  rcases ramfsRename_cases cur oldPath newPath s with
    ⟨e, -, h⟩ | ⟨node, p, comps, parent, name, hfind, -, hparent, hplace, h⟩
  · rw [h]
  · rw [h]
    obtain ⟨hlive, habove⟩ := ramfsFind_some hw hfind
    exact .single (.rename ⟨hlive, hparent, habove, hplace.write⟩ (hplace.spot hw))

theorem ramfsChmod_effect (hw : Wf s) (path : Option Str) (mode : Nat) :
    MayEffect cur use s (ramfsChmod cur path mode s).2 := by
  unfold ramfsChmod
  split
  · exact .refl
  rename_i node hfind
  unfold chmodNode
  split_ifs with hdeny
  · exact .refl
  · refine .single (.chmod mode (ramfsFind_some hw hfind).1 ?_)
    rw [not_and_or, not_not, not_not] at hdeny
    exact hdeny

/-! ### Opening -/

theorem ramfsPickFd_free (h : 0 ≤ ramfsPickFd cur s) :
    (ramfsPickFd cur s).toNat < maxFds ∧ (s.fds (ramfsPickFd cur s).toNat).inUse = false := by
  unfold ramfsPickFd at h ⊢
  cases hfind : (List.range maxFds).find? (fun i => !(s.fds i).inUse) with
  | none => simp [hfind] at h
  | some fd =>
    have hlt : fd < maxFds := mem_range.mp (mem_of_find?_eq_some hfind)
    have hfree : (s.fds fd).inUse = false := by simpa using find?_some hfind
    simp only [hfind] at h ⊢
    cases cur with
    | none => exact ⟨hlt, hfree⟩
    | some t =>
      simp only at h ⊢
      split_ifs at h ⊢
      · exact absurd h (by decide)
      · exact absurd h (by decide)
      · exact ⟨hlt, hfree⟩

/-- Nothing happened, or a file was created. -/
def MayCreate (cur : Caller) (s s' : State) : Prop :=
  s' = s ∨ ∃ parent name, Spot cur s parent name ∧ s.totalNodes < maxFiles ∧
    s' = insertNode s parent name .file cur.uid cur.gid

theorem MayCreate.effect (h : MayCreate cur s s') : MayEffect cur use s s' := by
  rcases h with rfl | ⟨parent, name, spot, room, rfl⟩
  · exact .refl
  · exact .single (.create .file spot room)

/-- The create section ends with an error and no change, with a node it finds, or with one it makes
at the place. -/
theorem openCreate_made (cur : Caller) (path : Option Str) (alloc : Bool) (s : State) :
    (∃ e, openCreate cur path alloc s = (.error e, s) ∧ e < 0) ∨
    (∃ node, openCreate cur path alloc s = (.ok node, s) ∧ ramfsFind cur s path = some node) ∨
    ∃ p comps parent name, path = some p ∧ Place cur s p comps parent name ∧
      s.totalNodes < maxFiles ∧ openCreate cur path alloc s =
        (.ok s.nextId, insertNode s parent name .file cur.uid cur.gid) := by
  unfold openCreate
  split
  swap
  · exact .inl ⟨_, rfl, by decide⟩
  rename_i p root hroot
  split
  · rename_i node hfind
    exact .inr (.inl ⟨node, rfl, hfind⟩)
  split
  · exact .inl ⟨_, rfl, by decide⟩
  rename_i comps hsplit
  split
  · exact .inl ⟨_, rfl, by decide⟩
  rename_i name hlast
  split
  · exact .inl ⟨_, rfl, by decide⟩
  · rename_i parent hwalk
    split
    · exact .inl ⟨_, rfl, by decide⟩
    split
    · exact .inl ⟨_, rfl, by decide⟩
    rename_i hwrite
    split
    · exact .inl ⟨_, rfl, by decide⟩
    rename_i hany
    have hplace : Place cur s p comps parent name :=
      ⟨hsplit, hlast, ⟨root, hroot, hwalk⟩, by simpa using hwrite, by simpa using hany⟩
    rcases allocNode_cases alloc name .file cur.uid cur.gid s with hfail | ⟨s', hok, hroom, hlink⟩
    · rw [hfail]
      exact .inl ⟨_, rfl, by decide⟩
    · rw [hok]
      simp only [hlink]
      exact .inr (.inr ⟨p, comps, parent, name, rfl, hplace, hroom, rfl⟩)
  · exact .inl ⟨_, rfl, by decide⟩

/-- The create section ends with an error and no change, or with a node the
caller can reach. -/
theorem openCreate_cases (cur : Caller) (hw : Wf s) (path : Option Str) (alloc : Bool) :
    (∃ e, openCreate cur path alloc s = (.error e, s) ∧ e < 0) ∨
    ∃ node s', openCreate cur path alloc s = (.ok node, s') ∧ MayCreate cur s s' ∧
      node ∈ s'.live ∧ AllSearchable cur s' node := by
  rcases openCreate_made cur path alloc s with
    herr | ⟨node, hok, hfind⟩ | ⟨p, comps, parent, name, -, hplace, hroom, hok⟩
  · exact .inl herr
  · exact .inr ⟨node, s, hok, .inl rfl, ramfsFind_some hw hfind⟩
  · have spot := hplace.spot hw
    obtain ⟨r, kids, ht⟩ := hw.tree_of_live spot.live
    exact .inr ⟨_, _, hok, .inr ⟨parent, name, spot, hroom, rfl⟩, by simp, spot.searchable_new ht⟩

/-- The critical section of `ramfs_open` fails and changes nothing, or fills a
free slot. -/
theorem openClaim_cases (cur : Caller) (node : NodeId) (flags : Nat) (s : State) :
    ((openClaim cur node flags s).1 < 0 ∧ (openClaim cur node flags s).2 = s) ∨
    ∃ i, i < maxFds ∧ (s.fds i).inUse = false ∧
      openClaim cur node flags s = ((i : Int), s.setFd i (openedFd cur node flags)) := by
  unfold openClaim
  simp only
  split
  · rename_i hneg
    exact .inl ⟨hneg, rfl⟩
  have hnonneg : 0 ≤ ramfsPickFd cur s := by omega
  obtain ⟨hlt, hfree⟩ := ramfsPickFd_free hnonneg
  exact .inr ⟨_, hlt, hfree, by rw [Int.toNat_of_nonneg hnonneg]⟩

/-- What a successful open has checked: a file the caller reached through
searchable directories, with the access asked for granted. -/
structure Opened (cur : Caller) (s : State) (node : NodeId) (flags : Nat) : Prop where
  live : node ∈ s.live
  above : AllSearchable cur s node
  file : (s.node node).type = .file
  granted : permits cur (s.node node) flags = true

/-- `ramfs_open` fails with a negative code, after at most creating a file, or
claims a slot for a node that passed the checks. -/
def OpenOutcome (cur : Caller) (flags : Nat) (s : State) (r : Int × State) : Prop :=
  (r.1 < 0 ∧ MayCreate cur s r.2) ∨
  ∃ node s₁ i, MayCreate cur s s₁ ∧ Opened cur s₁ node flags ∧ i < maxFds ∧
    (s₁.fds i).inUse = false ∧ r = ((i : Int), s₁.setFd i (openedFd cur node flags))

theorem openNode_outcome {s₁ : State} {node : NodeId} (flags : Nat) (hes : MayCreate cur s s₁)
    (hlive : node ∈ s₁.live) (habove : AllSearchable cur s₁ node) :
    OpenOutcome cur flags s (openNode cur node flags s₁) := by
  unfold openNode
  split
  · refine .inl ⟨?_, hes⟩
    rename_i hne
    unfold openCheck at hne ⊢
    split_ifs at hne ⊢ <;> simp_all
  · rename_i hcheck
    rcases openClaim_cases cur node flags s₁ with ⟨hneg, hsame⟩ | ⟨i, hlt, hfree, hclaim⟩
    · exact .inl ⟨hneg, by rw [hsame]; exact hes⟩
    · refine .inr ⟨node, s₁, i, hes, ?_, hlt, hfree, hclaim⟩
      have hzero : openCheck cur node flags s₁ = 0 := not_not.mp hcheck
      unfold openCheck at hzero
      split_ifs at hzero with hfollow htype hperm
      exact ⟨hlive, habove, not_not.mp htype, by simpa using hperm⟩

theorem ramfsOpen_outcome (hw : Wf s) (path : Option Str) (flags : Nat) (alloc : Bool) :
    OpenOutcome cur flags s (ramfsOpen cur path flags alloc s) := by
  unfold ramfsOpen
  split
  · exact .inl ⟨by simp, .inl rfl⟩
  split
  · rename_i hneg
    exact .inl ⟨hneg, .inl rfl⟩
  split
  · rename_i node hfind
    obtain ⟨hlive, habove⟩ := ramfsFind_some hw hfind
    exact openNode_outcome flags (.inl rfl) hlive habove
  split
  swap
  · exact .inl ⟨by simp, .inl rfl⟩
  rcases openCreate_cases cur hw path alloc with
    ⟨e, he, hneg⟩ | ⟨node, s₁, hok, hes, hlive, habove⟩
  · rw [he]
    exact .inl ⟨hneg, .inl rfl⟩
  · rw [hok]
    exact openNode_outcome flags hes hlive habove

theorem OpenOutcome.effects {flags : Nat} {x : Int × State} (h : OpenOutcome cur flags s x) :
    Effects cur use s x.2 := by
  rcases h with ⟨-, hes⟩ | ⟨node, s₁, i, hes, ho, hlt, hfree, rfl⟩
  · exact hes.effect.to_reflTransGen
  · exact hes.effect.to_reflTransGen.tail (.claim ho.live ho.above ho.file ho.granted hlt hfree)

/-! ### Descriptors and handles -/

theorem fdSlot_some {fd : Int} {i : Nat} (h : fdSlot s fd = some i) :
    InUse s i ∧ fd = (i : Int) := by
  unfold fdSlot at h
  split_ifs at h with hfd
  simp only [Option.some.injEq] at h
  subst h
  obtain ⟨hnonneg, hlt, huse⟩ := hfd
  exact ⟨⟨by omega, huse⟩, (Int.toNat_of_nonneg hnonneg).symm⟩

theorem readLoop_length (n : Node) (off count : Nat) : (readLoop n off count).length ≤ count := by
  induction count generalizing off with
  | zero => simp [readLoop]
  | succ count ih =>
    rw [readLoop]
    split
    · simp
    · simpa using ih (off + 1)

variable (fd : Int) (hu : ∀ i : Nat, fd = i → use.slot i)

include hu

theorem fdSlot_named {i : Nat} (h : fdSlot s fd = some i) : InUse s i ∧ use.slot i :=
  ⟨(fdSlot_some h).1, hu i (fdSlot_some h).2⟩

theorem ramfsRead_effect (count : Nat) : MayEffect cur use s (ramfsRead fd count s).2.2 := by
  fun_cases ramfsRead fd count s
  case case6 i hslot _ node hnode pos hpos available copied _ =>
    obtain ⟨hin, huse⟩ := fdSlot_named fd hu hslot
    refine .single (.cursor hin huse hnode ?_)
    have : copied.length ≤ min count available := readLoop_length (s.node node) pos _
    omega
  all_goals exact .refl

theorem ramfsWrite_effect (buf : List UInt8) (allocs : Nat → Bool) :
    MayEffect cur use s (ramfsWrite fd buf allocs s).2 := by
  fun_cases ramfsWrite fd buf allocs s
  case case5 i hslot hflag node hnode pos hpos r =>
    obtain ⟨hin, huse⟩ := fdSlot_named fd hu hslot
    exact .single (.write allocs hin huse hflag hnode (by omega) (length_take_le _ _))
  all_goals exact .refl

theorem ramfsTruncate_effect : MayEffect cur use s (ramfsTruncate fd s).2 := by
  fun_cases ramfsTruncate fd s
  case case5 i hslot hflag node hnode _ _ =>
    obtain ⟨hin, huse⟩ := fdSlot_named fd hu hslot
    exact .single (.truncate hin huse hflag hnode)
  all_goals exact .refl

theorem ramfsSeek_effect (offset : Nat) : MayEffect cur use s (ramfsSeek fd offset s).2 := by
  fun_cases ramfsSeek fd offset s
  case case3 i hslot node hnode _ =>
    obtain ⟨hin, huse⟩ := fdSlot_named fd hu hslot
    exact .single (.cursor hin huse hnode (Nat.min_le_right _ _))
  all_goals exact .refl

theorem ramfsFdRef_effect : MayEffect cur use s (ramfsFdRef fd s).2 := by
  unfold ramfsFdRef
  split
  · exact .refl
  rename_i i hslot
  obtain ⟨hin, huse⟩ := fdSlot_named fd hu hslot
  split
  · exact .single (.refs _ hin huse)
  · exact .refl

theorem ramfsClose_effect : MayEffect cur use s (ramfsClose fd s) := by
  unfold ramfsClose
  split
  · exact .refl
  rename_i i hslot
  obtain ⟨hin, huse⟩ := fdSlot_named fd hu hslot
  split
  · exact .single (.refs _ hin huse)
  · exact .single (.release hin huse)

omit hu

theorem ramfsVfsOpendir_effect (hw : Wf s) (path : Option Str) :
    MayEffect cur use s (ramfsVfsOpendir cur path s).2 := by
  unfold ramfsVfsOpendir
  split
  · exact .refl
  rename_i dir hfind
  split
  · exact .refl
  unfold opendirClaim
  split
  · exact .refl
  rename_i i halloc
  refine .single (.claimDir (ramfsFind_some hw hfind).1 ?_)
  simpa using find?_some halloc

theorem ramfsVfsClosedir_effect (i : Nat) : MayEffect cur use s (ramfsVfsClosedir i s) := by
  unfold ramfsVfsClosedir
  split
  · exact .single (.releaseDir i)
  · exact .refl

/-- What a call names: its descriptor, and the node it is to remove. -/
def Call.scope (c : Call) (s : State) : Scope where
  slot i := c.op.fd = some (i : Int)
  victim n := ∃ path, (c.op = .unlink path ∨ c.op = .rmdir path) ∧ ramfsFind c.cur s path = some n

theorem exec_effect (hw : Wf s) (c : Call) (hop : ∀ path flags alloc, c.op ≠ .open path flags alloc) :
    MayEffect c.cur (c.scope s) s (c.exec s).2 := by
  have hu : ∀ {fd : Int}, c.op.fd = some fd → ∀ i : Nat, fd = i → (c.scope s).slot i := by
    rintro fd hfd i rfl
    exact hfd
  unfold Call.exec
  cases h : c.op with
  | mkdir path alloc => exact ramfsMkdir_effect hw path alloc
  | rmdir path => exact ramfsRmdir_effect hw path fun n hn => ⟨path, .inr h, hn⟩
  | unlink path => exact ramfsUnlink_effect hw path fun n hn => ⟨path, .inl h, hn⟩
  | rename oldPath newPath => exact ramfsRename_effect hw oldPath newPath
  | chmod path mode => exact ramfsChmod_effect hw path mode
  | «open» path flags alloc => exact absurd h (hop path flags alloc)
  | read fd count => exact ramfsRead_effect fd (hu (by rw [h]; rfl)) count
  | write fd buf allocs => exact ramfsWrite_effect fd (hu (by rw [h]; rfl)) buf allocs
  | truncate fd => exact ramfsTruncate_effect fd (hu (by rw [h]; rfl))
  | seek fd offset => exact ramfsSeek_effect fd (hu (by rw [h]; rfl)) offset
  | fdRef fd => exact ramfsFdRef_effect fd (hu (by rw [h]; rfl))
  | close fd => exact ramfsClose_effect fd (hu (by rw [h]; rfl))
  | opendir path => exact ramfsVfsOpendir_effect hw path
  | closedir handle => exact ramfsVfsClosedir_effect handle

/-- Every call is a sequence of effects. -/
theorem exec_effects (hw : Wf s) (c : Call) : Effects c.cur (c.scope s) s (c.exec s).2 := by
  by_cases hop : ∃ path flags alloc, c.op = .open path flags alloc
  · obtain ⟨path, flags, alloc, h⟩ := hop
    unfold Call.exec
    rw [h]
    exact (ramfsOpen_outcome hw path flags alloc).effects
  · push Not at hop
    exact (exec_effect hw c hop).to_reflTransGen

theorem Wf.exec (hw : Wf s) (c : Call) : Wf (c.exec s).2 := hw.effects (exec_effects hw c)

end Operations

end TinyOS.Ramfs
