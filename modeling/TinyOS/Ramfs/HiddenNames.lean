import TinyOS.Ramfs.TreeInvariant

/-!
# RAMFS: hidden names

Two states that differ only in one subtree, whose top node is hidden from the
caller (`HiddenDiff`). `hidden_unobservable`: every question the caller can ask,
on any path, has the same answer in both, except one. `ramfs_rmdir` tests that
the directory is empty before it tests the permission on the parent, so on a
directory that holds nothing but the hidden node it answers -3 in one state and
something else in the other (`HiddenDefect`).

The lookups agree because a hidden node answers as an absent one does
(`HiddenDiff.lookupLoop_eq`, `HiddenDiff.walkLoop_eq`); the lookup that ignores
hiding is only made in directories the caller may write, which it may then also
read, so nothing in them is hidden (`HiddenDiff.findAny_eq`).
-/

namespace TinyOS.Ramfs

open TinyOS.Lib Relation List

/-! ## Questions and answers -/

/-- The calls that answer questions about a path, with their arguments. -/
inductive Query where
  | open (path : Option Str) (flags : Nat) (alloc : Bool)
  | mkdir (path : Option Str) (alloc : Bool)
  | rmdir (path : Option Str)
  | unlink (path : Option Str)
  | rename (oldPath newPath : Option Str)
  | chmod (path : Option Str) (mode : Nat)
  | list (path : Option Str) (max : Nat)
  | stat (path : Option Str)
  | accessDir (path : Option Str)

/-- What a listing shows of a node. -/
structure Meta where
  name : Str
  type : NodeType
  size : Nat
  mode : Nat
  uid : Nat
  gid : Nat
deriving DecidableEq

def Node.meta (n : Node) : Meta := ⟨n.name, n.type, n.size, n.mode, n.uid, n.gid⟩

/-- The data a question returns besides its code. -/
inductive Data where
  | nothing
  | listing (node : Option (Meta × List Meta))
  | stat (st : Option Stat)
deriving DecidableEq

/-- The return code and the data the caller gets. -/
def answer (cur : Caller) (s : State) : Query → Int × Data
  | .open path flags alloc => ((ramfsOpen cur path flags alloc s).1, .nothing)
  | .mkdir path alloc => ((ramfsMkdir cur path alloc s).1, .nothing)
  | .rmdir path => ((ramfsRmdir cur path s).1, .nothing)
  | .unlink path => ((ramfsUnlink cur path s).1, .nothing)
  | .rename oldPath newPath => ((ramfsRename cur oldPath newPath s).1, .nothing)
  | .chmod path mode => ((ramfsChmod cur path mode s).1, .nothing)
  | .list path max =>
    let r := ramfsList cur path max s
    (r.1, .listing (r.2.map fun x => ((s.node x.1).meta, x.2.map fun c => (s.node c).meta)))
  | .stat path => ((ramfsVfsStat cur path s).1, .stat (ramfsVfsStat cur path s).2)
  | .accessDir path => (ramfsVfsAccessDir cur path s, .nothing)

/-! ## The two states -/

/-- Everything but the list links and the child counter. -/
structure SameEntry (n n' : Node) : Prop where
  name : n'.name = n.name
  type : n'.type = n.type
  size : n'.size = n.size
  mode : n'.mode = n.mode
  uid : n'.uid = n.uid
  gid : n'.gid = n.gid
  parent : n'.parent = n.parent

/-- `s'` is `s` without the subtree of `h`, which is hidden from the caller. -/
structure HiddenDiff (cur : Caller) (s s' : State) (h r : NodeId)
    (kids kids' : NodeId → List NodeId) : Prop where
  tree : Tree s r kids
  tree' : Tree s' r kids'
  top : h ∈ s.live
  hidden : hiddenFromCaller cur s h = true
  live : ∀ n, n ∈ s'.live ↔ n ∈ s.live ∧ ¬ ReflTransGen (ParentOf s) n h
  same : ∀ n ∈ s'.live, SameEntry (s.node n) (s'.node n)
  kids : ∀ n ∈ s'.live, kids' n = (kids n).erase h
  fds : s'.fds = s.fds
  handles : s'.handles = s.handles
  busyHook : s'.busyHook = s.busyHook

/-- The caller may write no directory it cannot read. -/
def WritableReadable (cur : Caller) (s : State) : Prop :=
  ∀ d ∈ s.live, (s.node d).type = .dir → permits cur (s.node d) flagWrite = true →
    permits cur (s.node d) flagRead = true

/-- An rmdir of a directory that holds the hidden node and nothing else. -/
def HiddenDefect (cur : Caller) (s : State) (h : NodeId) (q : Query) : Prop :=
  ∃ path p, q = .rmdir path ∧ ramfsFind cur s path = some p ∧ s.root ≠ some p ∧ IsChildList s p [h]

theorem SameEntry.permits_eq {n n' : Node} (h : SameEntry n n') (cur : Caller) (access : Nat) :
    permits cur n' access = permits cur n access := by
  simp only [permits, ramfsCheckPermission, h.mode, h.uid, h.gid]

theorem SameEntry.meta_eq {n n' : Node} (h : SameEntry n n') : n'.meta = n.meta := by
  simp only [Node.meta, h.name, h.type, h.size, h.mode, h.uid, h.gid]

theorem hiddenFromCaller_iff {cur : Caller} {s : State} {p : NodeId} :
    hiddenFromCaller cur s p = true ↔ cur.uid ≠ 0 ∧ ∃ d, ParentOf s p d ∧ (s.node p).uid ≠ cur.uid ∧
      permits cur (s.node d) flagRead = false ∧ permits cur (s.node p) flagRead = false ∧
      permits cur (s.node p) flagWrite = false ∧ permits cur (s.node p) flagExec = false := by
  unfold hiddenFromCaller ParentOf
  by_cases hroot : cur.uid = 0
  · simp [hroot]
  cases hpar : (s.node p).parent with
  | none => simp [hroot]
  | some d =>
    by_cases hown : (s.node p).uid = cur.uid
    · simp [hroot, hown]
    by_cases hread : permits cur (s.node d) flagRead = true
    · simp [hroot, hown, hread]
    · simp [hroot, hown, hread, and_assoc]

/-- A directory never has as many children as the limit of `mkdir` and `open`. -/
theorem Tree.childCount_lt {s : State} {r p : NodeId} {kids : NodeId → List NodeId}
    (ht : Tree s r kids) (hp : p ∈ s.live) : ¬ (s.node p).childCount ≥ maxChildrenPerDir := by
  have hlt := ht.kids_length_lt hp
  rw [ht.count p hp]
  simp only [maxFiles, maxChildrenPerDir] at *
  omega

theorem ramfsPickFd_congr {cur : Caller} {s s' : State} (h : s'.fds = s.fds) :
    ramfsPickFd cur s' = ramfsPickFd cur s := by
  simp only [ramfsPickFd, h]

/-- The listing loop copies the front of the child list. -/
theorem childList_chain {s : State} {link : Option NodeId} {l : List NodeId}
    (hl : Chain (fun q => (s.node q).next) link l) (max : Nat) : childList s max link = l.take max := by
  induction l generalizing link max with
  | nil =>
    subst hl
    cases max <;> rfl
  | cons c l ih =>
    obtain ⟨rfl, htl⟩ := hl
    cases max with
    | zero => rfl
    | succ max => rw [childList, take_succ_cons, ih htl]

namespace HiddenDiff

variable {cur : Caller} {s s' : State} {h r n : NodeId} {kids kids' : NodeId → List NodeId}
  {name : Str} {comps : List Str}
variable (hd : HiddenDiff cur s s' h r kids kids')

include hd

variable (hn : n ∈ s'.live)

include hn

theorem old : n ∈ s.live :=
  ((hd.live n).mp hn).1

/-- Going down from a node outside the subtree ends at `h` or stays outside. -/
theorem kid_cases {c : NodeId} (hc : c ∈ kids n) : c = h ∨ c ∈ s'.live := by
  by_cases hch : c = h
  · exact .inl hch
  right
  refine (hd.live c).mpr ⟨hd.tree.kid_live (hd.old hn) hc, fun hbelow => ?_⟩
  rcases ReflTransGen.cases_head hbelow with heq | ⟨q, hcq, hqh⟩
  · exact hch heq
  · have hqn : q = n :=
      Option.some.inj (hcq.symm.trans (hd.tree.kid_parent (hd.old hn) hc))
    subst hqn
    exact ((hd.live q).mp hn).2 hqh

theorem childNamed_eq :
    childNamed s' kids' n name =
      if childNamed s kids n name = some h then none else childNamed s kids n name := by
  have hname : ∀ c ∈ kids' n, (s'.node c).name = (s.node c).name := by
    intro c hc
    exact (hd.same c (hd.tree'.kid_live hn hc)).name
  have hsub : ∀ c ∈ kids' n, c ∈ kids n ∧ c ≠ h := by
    intro c hc
    rw [hd.kids n hn] at hc
    exact ⟨mem_of_mem_erase hc, fun hch => by
      subst hch
      exact (hd.tree.kids_nodup (hd.old hn)).not_mem_erase hc⟩
  cases hfind : childNamed s' kids' n name with
  | some c =>
    -- found without the subtree: the same child, and not `h`
    obtain ⟨hc, hcn⟩ := childNamed_some hfind
    rw [hname c hc] at hcn
    have := childNamed_of_mem hd.tree (hd.old hn) (hsub c hc).1 hcn
    rw [this, if_neg fun heq => (hsub c hc).2 (Option.some.inj heq)]
  | none =>
    by_cases hh : childNamed s kids n name = some h
    · rw [if_pos hh]
    cases hold : childNamed s kids n name with
    | none => rfl
    | some c =>
      obtain ⟨hc, hcn⟩ := childNamed_some hold
      have hch : c ≠ h := by
        rintro rfl
        exact hh hold
      have hc' : c ∈ kids' n := by
        rw [hd.kids n hn]
        exact (mem_erase_of_ne hch).mpr hc
      exact absurd ((hname c hc').trans hcn) (childNamed_none hfind c hc')

theorem maySearch_eq :
    maySearch cur s' n = maySearch cur s n := (hd.same n hn).permits_eq cur flagExec

theorem hiddenFromCaller_eq : hiddenFromCaller cur s' n = hiddenFromCaller cur s n := by
  have hsame := hd.same n hn
  unfold hiddenFromCaller
  rw [hsame.parent, hsame.uid]
  simp only [hsame.permits_eq]
  cases hpar : (s.node n).parent with
  | none => rfl
  | some d =>
    have hd' : d ∈ s'.live := hd.tree'.parent_live n hn d (hsame.parent.trans hpar)
    simp only [(hd.same d hd').permits_eq]

theorem lookupLoop_eq : lookupLoop cur s' true comps n = lookupLoop cur s true comps n := by
  induction comps generalizing n with
  | nil => rfl
  | cons name comps ih =>
    rw [lookupLoop_cons hd.tree' hn, lookupLoop_cons hd.tree (hd.old hn), (hd.same n hn).type,
      hd.maySearch_eq hn, hd.childNamed_eq hn]
    cases hfind : childNamed s kids n name with
    | none => simp
    | some c =>
      by_cases hch : c = h
      · subst hch
        simp [hd.hidden]
      rcases hd.kid_cases hn (childNamed_some hfind).1 with heq | hc
      · exact absurd heq hch
      · simp [hch, hd.hiddenFromCaller_eq hc, ih hc]

theorem walkLoop_eq : walkLoop cur s' comps n = walkLoop cur s comps n := by
  induction comps generalizing n with
  | nil => simp only [walkLoop, hd.maySearch_eq hn]
  | cons name comps ih =>
    rw [walkLoop_cons hd.tree' hn, walkLoop_cons hd.tree (hd.old hn), hd.maySearch_eq hn,
      hd.childNamed_eq hn]
    cases hfind : childNamed s kids n name with
    | none => simp
    | some c =>
      by_cases hch : c = h
      · subst hch
        simp [hd.hidden]
      rcases hd.kid_cases hn (childNamed_some hfind).1 with heq | hc
      · exact absurd heq hch
      · simp [hch, hd.hiddenFromCaller_eq hc, (hd.same c hc).type, ih hc]

omit hn

theorem ramfsFind_eq (path : Option Str) : ramfsFind cur s' path = ramfsFind cur s path := by
  unfold ramfsFind ramfsLookupLocked
  rw [hd.tree.root_eq, hd.tree'.root_eq]
  cases path with
  | none => rfl
  | some p =>
    simp only
    split
    · rfl
    split
    · rfl
    · exact hd.lookupLoop_eq hd.tree'.root_live

theorem find_live {path : Option Str} (hfind : ramfsFind cur s path = some n) : n ∈ s'.live := by
  rw [← hd.ramfsFind_eq] at hfind
  exact (ramfsLookup_some hd.tree' hfind).1

theorem walkToParent_eq (comps : List Str) :
    walkToParent cur s' r comps = walkToParent cur s r comps :=
  hd.walkLoop_eq hd.tree'.root_live

theorem walk_live {parent : NodeId} (hwalk : walkToParent cur s r comps = .ok parent) :
    parent ∈ s'.live := by
  rw [← hd.walkToParent_eq] at hwalk
  exact (walkLoop_ok hd.tree' hd.tree'.root_live hd.tree'.root_dir hd.tree'.root_searchable hwalk).1

/-- In a directory the caller may write nothing is hidden. -/
theorem top_not_kid (hw : WritableReadable cur s) (hn : n ∈ s.live)
    (hwrite : permits cur (s.node n) flagWrite = true) : h ∉ kids n := by
  intro hkid
  obtain ⟨-, d, hpar, -, hread, -⟩ := hiddenFromCaller_iff.mp hd.hidden
  obtain rfl : n = d := Option.some.inj ((hd.tree.kid_parent hn hkid).symm.trans hpar)
  rw [hw n hn (hd.tree.dir_of_kid hn hkid) hwrite] at hread
  exact absurd hread (by simp)

/-- The lookup that ignores hiding, made in a writable directory. -/
theorem findAny_eq (hw : WritableReadable cur s) {p : Str} {parent : NodeId}
    (hsplit : splitPath p 16 = some comps) (hne : comps ≠ [])
    (hwalk : walkToParent cur s r comps = .ok parent)
    (hwrite : permits cur (s.node parent) flagWrite = true) :
    (ramfsFindAny cur s' (some p)).isSome = (ramfsFindAny cur s (some p)).isSome := by
  have hslash : p ≠ [slash] := by
    rintro rfl
    have hnil : splitPath [slash] 16 = some [] := by decide
    rw [hnil] at hsplit
    exact hne (Option.some.inj hsplit).symm
  have hlive := hd.walk_live hwalk
  have hwalk' : walkToParent cur s' r comps = .ok parent := by rw [hd.walkToParent_eq, hwalk]
  unfold ramfsFindAny ramfsLookupLocked
  rw [hd.tree.root_eq, hd.tree'.root_eq]
  simp only [hslash, if_false, hsplit]
  have hcomps : comps.dropLast ++ [comps.getLast hne] = comps := dropLast_append_getLast hne
  conv_lhs => rw [← hcomps, lookup_after_walk hd.tree' hd.tree'.root_live hd.tree'.root_dir hwalk']
  conv_rhs => rw [← hcomps, lookup_after_walk hd.tree hd.tree.root_live hd.tree.root_dir hwalk]
  rw [hd.childNamed_eq hlive, if_neg]
  · cases childNamed s kids parent (comps.getLast hne) <;> simp
  · intro hfind
    exact hd.top_not_kid hw (hd.old hlive) hwrite (childNamed_some hfind).1

theorem busy_eq (n : NodeId) : ramfsNodeIsBusy s' n = ramfsNodeIsBusy s n := by
  simp only [ramfsNodeIsBusy, ramfsVfsNodeBusy, hd.fds, hd.handles, hd.busyHook]

theorem pickFd_eq :
    ramfsPickFd cur s' = ramfsPickFd cur s := ramfsPickFd_congr hd.fds

/-! ### The operations -/

theorem mkdir_eq (hw : WritableReadable cur s) (hroom : s.totalNodes < maxFiles)
    (hroom' : s'.totalNodes < maxFiles) (path : Option Str) (alloc : Bool) :
    (ramfsMkdir cur path alloc s').1 = (ramfsMkdir cur path alloc s).1 := by
  unfold ramfsMkdir
  rw [hd.tree.root_eq, hd.tree'.root_eq]
  cases path with
  | none => rfl
  | some p =>
    simp only [hd.ramfsFind_eq, hd.walkToParent_eq]
    split
    · rfl
    split
    · rfl
    rename_i comps hsplit
    split
    · rfl
    rename_i name hlast
    split
    · rfl
    · rfl
    · rfl
    rename_i parent hwalk
    have hlive := hd.walk_live hwalk
    rw [(hd.same parent hlive).permits_eq]
    split
    · rfl
    rename_i hwrite
    have hne : comps ≠ [] := by rintro rfl; simp at hlast
    rw [hd.findAny_eq hw hsplit hne hwalk (by simpa using hwrite),
      if_neg (hd.tree'.childCount_lt hlive), if_neg (hd.tree.childCount_lt (hd.old hlive))]
    split
    · rfl
    cases alloc with
    | false | true => simp [allocNode, hroom.not_ge, hroom'.not_ge]

theorem removeNode_both {node parent : NodeId} (hlive : node ∈ s'.live)
    (hparent : ParentOf s node parent) :
    ∃ t t', removeNode s parent node = some t ∧ removeNode s' parent node = some t' := by
  obtain ⟨hp, hn⟩ := hd.tree.mem_kids_parent (hd.old hlive) hparent
  obtain ⟨hp', hn'⟩ := hd.tree'.mem_kids_parent hlive ((hd.same node hlive).parent.trans hparent)
  obtain ⟨t, ht, -⟩ := removeNode_spec hd.tree hp hn
  obtain ⟨t', ht', -⟩ := removeNode_spec hd.tree' hp' hn'
  exact ⟨t, t', ht, ht'⟩

theorem unlink_eq (path : Option Str) :
    (ramfsUnlink cur path s').1 = (ramfsUnlink cur path s).1 := by
  unfold ramfsUnlink
  rw [hd.ramfsFind_eq, hd.tree.root_eq, hd.tree'.root_eq]
  split
  · rfl
  rename_i node hfind
  have hlive := hd.find_live hfind
  rw [(hd.same node hlive).type, (hd.same node hlive).parent]
  split
  · rfl
  split
  · rfl
  split
  · rfl
  rename_i parent hparent
  have hplive := hd.tree'.parent_live node hlive parent ((hd.same node hlive).parent.trans hparent)
  rw [(hd.same parent hplive).permits_eq, hd.busy_eq]
  split
  · rfl
  split
  · rfl
  obtain ⟨t, t', ht, ht'⟩ := hd.removeNode_both hlive hparent
  rw [ht, ht']

theorem rename_eq (hw : WritableReadable cur s) (oldPath newPath : Option Str) :
    (ramfsRename cur oldPath newPath s').1 = (ramfsRename cur oldPath newPath s).1 := by
  unfold ramfsRename
  rw [hd.tree.root_eq, hd.tree'.root_eq]
  split
  · rename_i op np root hroot
    obtain rfl : r = root := Option.some.inj hroot
    simp only [hd.ramfsFind_eq, hd.walkToParent_eq]
    split
    · rfl
    rename_i node hfind
    have hlive := hd.find_live hfind
    rw [(hd.same node hlive).parent]
    split
    · rfl
    split
    · rfl
    split
    · rfl
    rename_i parent hparent
    have hplive := hd.tree'.parent_live node hlive parent ((hd.same node hlive).parent.trans hparent)
    rw [(hd.same parent hplive).permits_eq]
    split
    · rfl
    rename_i hwrite
    split
    · rfl
    rename_i comps hsplit
    split
    · rfl
    rename_i name hlast
    split
    · rfl
    · rename_i newParent hwalk
      split
      · rfl
      rename_i hsame
      obtain rfl : newParent = parent := not_not.mp hsame
      have hne : comps ≠ [] := by rintro rfl; simp at hlast
      rw [hd.findAny_eq hw hsplit hne hwalk (by simpa using hwrite)]
      split <;> rfl
    · rfl
  · rfl
  · rfl

theorem chmod_eq (path : Option Str) (mode : Nat) :
    (ramfsChmod cur path mode s').1 = (ramfsChmod cur path mode s).1 := by
  unfold ramfsChmod
  rw [hd.ramfsFind_eq]
  split
  · rfl
  rename_i node hfind
  unfold chmodNode
  rw [(hd.same node (hd.find_live hfind)).uid]
  split <;> rfl

theorem accessDir_eq (path : Option Str) :
    ramfsVfsAccessDir cur path s' = ramfsVfsAccessDir cur path s := by
  unfold ramfsVfsAccessDir
  rw [hd.ramfsFind_eq]
  split
  · rfl
  split
  · rfl
  rename_i node hfind
  have hsame := hd.same node (hd.find_live hfind)
  rw [hsame.type, hsame.permits_eq]

theorem stat_eq (path : Option Str) : ramfsVfsStat cur path s' = ramfsVfsStat cur path s := by
  unfold ramfsVfsStat
  rw [hd.ramfsFind_eq]
  split
  · rfl
  split
  · rfl
  rename_i node hfind
  have hsame := hd.same node (hd.find_live hfind)
  rw [hsame.type, hsame.permits_eq, hsame.size, hsame.mode]

/-- A readable directory has no hidden children, so a listing shows the same. -/
theorem list_eq (path : Option Str) (max : Nat) :
    answer cur s' (.list path max) = answer cur s (.list path max) := by
  simp only [answer, ramfsList, hd.ramfsFind_eq]
  cases hfind : ramfsFind cur s path with
  | none => rfl
  | some node =>
    have hlive := hd.find_live hfind
    have hsame := hd.same node hlive
    simp only [hsame.permits_eq]
    by_cases hread : permits cur (s.node node) flagRead = true
    swap
    · simp [hread]
    have htop : h ∉ kids node := by
      intro hkid
      obtain ⟨-, d, hpar, -, hno, -⟩ := hiddenFromCaller_iff.mp hd.hidden
      obtain rfl : node = d :=
        Option.some.inj ((hd.tree.kid_parent (hd.old hlive) hkid).symm.trans hpar)
      rw [hread] at hno
      exact absurd hno (by simp)
    have hkids : kids' node = kids node := by
      rw [hd.kids node hlive, erase_of_not_mem htop]
    have hlist : childList s' max (s'.node node).children =
        childList s max (s.node node).children := by
      rw [childList_chain (hd.tree'.chain node hlive),
        childList_chain (hd.tree.chain node (hd.old hlive)), hkids]
    have hmeta : ∀ l : List NodeId, (∀ c ∈ l, c ∈ s'.live) →
        l.map (fun c => (s'.node c).meta) = l.map (fun c => (s.node c).meta) := by
      intro l hl
      exact map_congr_left fun c hc => (hd.same c (hl c hc)).meta_eq
    simp only [hread, Bool.not_true, Bool.false_eq_true, if_false, hsame.type, hlist]
    by_cases hdir : (s.node node).type = .dir
    · simp only [hdir, if_true, Option.map_some, hsame.meta_eq, Prod.mk.injEq, true_and]
      rw [hmeta]
      intro c hc
      rw [childList_chain (hd.tree.chain node (hd.old hlive)), ← hkids] at hc
      exact hd.tree'.kid_live hlive (mem_of_mem_take hc)
    · simp [hdir, hsame.meta_eq]

omit hd in
theorem openNode_ret (cur : Caller) (node : NodeId) (flags : Nat) (s : State) :
    (openNode cur node flags s).1 =
      if openCheck cur node flags s ≠ 0 then openCheck cur node flags s else ramfsPickFd cur s := by
  unfold openNode openClaim
  split
  · rfl
  · dsimp only
    split <;> rfl

omit hd in
theorem openCheck_congr {cur : Caller} {flags : Nat} {t t' : State} {m m' : NodeId}
    (htype : (t'.node m').type = (t.node m).type)
    (hperm : permits cur (t'.node m') flags = permits cur (t.node m) flags) :
    openCheck cur m' flags t' = openCheck cur m flags t := by
  simp only [openCheck, htype, hperm]

theorem open_eq (hw : WritableReadable cur s) (hroom : s.totalNodes < maxFiles)
    (hroom' : s'.totalNodes < maxFiles) (path : Option Str) (flags : Nat) (alloc : Bool) :
    (ramfsOpen cur path flags alloc s').1 = (ramfsOpen cur path flags alloc s).1 := by
  unfold ramfsOpen
  rw [hd.tree.root_eq, hd.tree'.root_eq, hd.ramfsFind_eq, hd.pickFd_eq]
  split
  · rfl
  rename_i hpath
  split
  · rfl
  split
  · rename_i node hfind
    have hsame := hd.same node (hd.find_live hfind)
    rw [openNode_ret, openNode_ret, hd.pickFd_eq,
      openCheck_congr hsame.type (hsame.permits_eq cur flags)]
  rename_i hfind
  split
  swap
  · rfl
  -- the file is to be created
  cases path with
  | none => simp at hpath
  | some p =>
    unfold openCreate
    simp only [hd.tree.root_eq, hd.tree'.root_eq, hd.ramfsFind_eq, hfind, hd.walkToParent_eq]
    cases hsplit : splitPath p 16 with
    | none => rfl
    | some comps =>
      simp only
      cases hlast : comps.getLast? with
      | none => rfl
      | some name =>
        cases hwalk : walkToParent cur s r comps with
        | notDir => rfl
        | notFound => rfl
        | denied => rfl
        | ok parent =>
          have hlive := hd.walk_live hwalk
          have hne : comps ≠ [] := by rintro rfl; simp at hlast
          simp only [(hd.same parent hlive).permits_eq, hd.tree'.childCount_lt hlive,
            hd.tree.childCount_lt (hd.old hlive), if_false]
          by_cases hwrite : permits cur (s.node parent) flagWrite = true
          swap
          · simp [hwrite]
          rw [hd.findAny_eq hw hsplit hne hwalk hwrite]
          simp only [hwrite, Bool.not_true, Bool.false_eq_true, if_false]
          split_ifs with hany
          · rfl
          cases alloc with
          | false => simp [allocNode, hroom.not_ge, hroom'.not_ge]
          | true =>
            simp only [allocNode, hroom.not_ge, hroom'.not_ge, if_false, Bool.not_true,
              Bool.false_eq_true]
            have hnew := (hd.tree.fresh parent (hd.old hlive)).ne
            have hnew' := (hd.tree'.fresh parent hlive).ne
            change (openNode cur s'.nextId flags
                (insertNode s' parent name .file cur.uid cur.gid)).1 =
              (openNode cur s.nextId flags
                (insertNode s parent name .file cur.uid cur.gid)).1
            have hpick : ramfsPickFd cur (insertNode s' parent name .file cur.uid cur.gid) =
                ramfsPickFd cur (insertNode s parent name .file cur.uid cur.gid) :=
              ramfsPickFd_congr hd.fds
            rw [openNode_ret, openNode_ret, hpick, openCheck_congr]
            · rw [insertNode_node_new hnew, insertNode_node_new hnew']
            · rw [insertNode_node_new hnew, insertNode_node_new hnew']
              rfl

omit hd in
/-- A removal that is not refused for being non-empty does not answer -3. -/
theorem rmdir_ret_ne {cur : Caller} {t : State} {path : Option Str} {p : NodeId}
    (hfind : ramfsFind cur t path = some p) (hroot : t.root ≠ some p)
    (hdir : (t.node p).type = .dir) (hempty : (t.node p).children = none) :
    (ramfsRmdir cur path t).1 ≠ -3 := by
  simp only [ramfsRmdir, hfind, hroot, hdir, hempty, ne_eq, not_true_eq_false, if_false]
  cases (t.node p).parent with
  | none => simp
  | some parent =>
    simp only
    split_ifs
    · simp
    · simp [ramfsBusy]
    · cases removeNode t parent p <;> simp

theorem rmdir_eq_iff (path : Option Str) :
    (ramfsRmdir cur path s').1 = (ramfsRmdir cur path s).1 ↔
      ¬ ∃ p, ramfsFind cur s path = some p ∧ s.root ≠ some p ∧ IsChildList s p [h] := by
  cases hfind : ramfsFind cur s path with
  | none =>
    have hfind' : ramfsFind cur s' path = none := by rw [hd.ramfsFind_eq, hfind]
    simp [ramfsRmdir, hfind, hfind']
  | some node =>
    have hfind' : ramfsFind cur s' path = some node := by rw [hd.ramfsFind_eq, hfind]
    have hlive := hd.find_live hfind
    have hsame := hd.same node hlive
    have hlist : IsChildList s node [h] ↔ kids node = [h] := by
      rw [hd.tree.isChildList_iff (hd.old hlive), eq_comm]
    have hex : (∃ p, some node = some p ∧ s.root ≠ some p ∧ IsChildList s p [h]) ↔
        s.root ≠ some node ∧ kids node = [h] := by
      constructor
      · rintro ⟨p, hp, hroot, hl⟩
        cases hp
        exact ⟨hroot, hlist.mp hl⟩
      · rintro ⟨hroot, hl⟩
        exact ⟨node, rfl, hroot, hlist.mpr hl⟩
    rw [hex]
    by_cases hroot : s.root = some node
    · have hroot' : s'.root = some node := by rw [hd.tree'.root_eq, ← hd.tree.root_eq, hroot]
      simp [ramfsRmdir, hfind, hfind', hroot, hroot']
    have hroot' : s'.root ≠ some node := by rwa [hd.tree'.root_eq, ← hd.tree.root_eq]
    by_cases hdir : (s.node node).type = .dir
    swap
    · -- not a directory: -2 in both, and no children
      have hnil := hd.tree.leaf node (hd.old hlive) hdir
      simp [ramfsRmdir, hfind, hfind', hroot, hroot', hdir, hsame.type, hnil]
    have hch : (s.node node).children = none ↔ kids node = [] :=
      (hd.tree.chain node (hd.old hlive)).eq_none_iff
    have hch' : (s'.node node).children = none ↔ (kids node).erase h = [] := by
      rw [← hd.kids node hlive]
      exact (hd.tree'.chain node hlive).eq_none_iff
    have hfull : ∀ {t : State}, ramfsFind cur t path = some node → t.root ≠ some node →
        (t.node node).type = .dir → (t.node node).children ≠ none →
        (ramfsRmdir cur path t).1 = -3 := by
      intro t h₁ h₂ h₃ h₄
      simp [ramfsRmdir, h₁, h₂, h₃, h₄]
    by_cases honly : kids node = [h]
    · -- the hidden node is the only entry
      refine iff_of_false ?_ (fun hno => hno ⟨hroot, honly⟩)
      rw [hfull hfind hroot hdir (by rw [Ne, hch, honly]; simp)]
      exact rmdir_ret_ne hfind' hroot' (hsame.type.trans hdir) (hch'.mpr (by simp [honly]))
    · refine iff_of_true ?_ (fun hno => honly hno.2)
      by_cases hnil : kids node = []
      · -- empty in both: the same checks follow
        have hc := hch.mpr hnil
        have hc' := hch'.mpr (by rw [hnil]; rfl)
        simp only [ramfsRmdir, hfind, hfind', hroot, hroot', hdir, hsame.type, hc, hc', hsame.parent,
          ne_eq, not_true_eq_false, if_false]
        cases hparent : (s.node node).parent with
        | none => rfl
        | some parent =>
          have hplive := hd.tree'.parent_live node hlive parent (hsame.parent.trans hparent)
          simp only [(hd.same parent hplive).permits_eq, hd.busy_eq]
          split
          · rfl
          split
          · rfl
          obtain ⟨t, t', ht, ht'⟩ := hd.removeNode_both hlive hparent
          rw [ht, ht']
      · -- a visible entry is left in both
        rw [hfull hfind hroot hdir (by rw [Ne, hch]; exact hnil),
          hfull hfind' hroot' (hsame.type.trans hdir)]
        rw [Ne, hch']
        intro herase
        rcases erase_eq_nil_iff.mp herase with hnil' | hone
        · exact hnil hnil'
        · exact honly hone

omit hd in
/-- Taking a hidden entry without children off its directory. -/
theorem of_removed {parent : NodeId} (ht : Tree s r kids) (hp : parent ∈ s.live)
    (hn : h ∈ kids parent) (hleaf : kids h = []) (hr : Removed s s' parent h (kids parent))
    (hidden : hiddenFromCaller cur s h = true) :
    HiddenDiff cur s s' h r kids (kidsErase kids parent h) := by
  have hlive := ht.kid_live hp hn
  refine
    { tree := ht
      tree' := ht.removed hp hn hleaf hr
      top := hlive
      hidden := hidden
      live := fun n => ?_
      same := fun n hn' => ?_
      kids := fun n hn' => ?_
      fds := hr.fds
      handles := hr.handles
      busyHook := hr.busyHook }
  · rw [hr.live, Finset.mem_erase, and_comm]
    refine and_congr_right fun hnl => ?_
    refine not_congr ⟨fun heq => heq ▸ .refl, fun hbelow => ?_⟩
    -- the subtree is the node alone
    rcases ReflTransGen.cases_tail hbelow with heq | ⟨q, hnq, hqh⟩
    · exact heq.symm
    · have hq : q ∈ s.live := by
        clear hqh
        induction hnq with
        | refl => exact hnl
        | tail _ hpar ih => exact ht.parent_live _ ih _ hpar
      have := (ht.mem_kids h hlive q).mpr ⟨hq, hqh⟩
      rw [hleaf] at this
      exact absurd this not_mem_nil
  · rw [hr.live, Finset.mem_erase] at hn'
    rw [hr.fields n hn'.1]
    exact ⟨rfl, rfl, rfl, rfl, rfl, rfl, rfl⟩
  · rw [hr.live, Finset.mem_erase] at hn'
    by_cases hnp : n = parent
    · rw [hnp, kidsErase, if_pos rfl]
    · rw [kidsErase, if_neg hnp, erase_of_not_mem]
      exact fun hc => hnp (ht.kids_disjoint hn'.2 hp hc hn)

end HiddenDiff

/-- Two states that differ only in a subtree hidden from the caller answer its
every question alike, unless it asks to remove the directory in which the hidden
node is alone. -/
theorem hidden_unobservable {cur : Caller} {s s' : State} {h r : NodeId}
    {kids kids' : NodeId → List NodeId} (hd : HiddenDiff cur s s' h r kids kids')
    (hw : WritableReadable cur s) (hroom : s.totalNodes < maxFiles)
    (hroom' : s'.totalNodes < maxFiles) (q : Query) :
    answer cur s' q = answer cur s q ↔ ¬ HiddenDefect cur s h q := by
  cases q
  case rmdir path =>
    have hdefect : HiddenDefect cur s h (.rmdir path) ↔
        ∃ p, ramfsFind cur s path = some p ∧ s.root ≠ some p ∧ IsChildList s p [h] := by
      constructor
      · rintro ⟨_, p, hq, hrest⟩
        cases hq
        exact ⟨p, hrest⟩
      · rintro ⟨p, hrest⟩
        exact ⟨path, p, rfl, hrest⟩
    rw [hdefect, ← hd.rmdir_eq_iff path]
    simp [answer]
  -- no other question shows the defect
  all_goals refine iff_of_true ?_ (by rintro ⟨_, _, hq, -⟩; cases hq)
  case list path max => exact hd.list_eq path max
  all_goals rw [answer, answer]
  case «open» => rw [hd.open_eq hw hroom hroom']
  case mkdir => rw [hd.mkdir_eq hw hroom hroom']
  case unlink => rw [hd.unlink_eq]
  case rename => rw [hd.rename_eq hw]
  case chmod => rw [hd.chmod_eq]
  case stat => rw [hd.stat_eq]
  case accessDir => rw [hd.accessDir_eq]

/-- Root has made `/d`, mode 0711, and in it the directory `/d/h`, mode 0700. -/
def hiddenState : State :=
  runCalls (ramfsInit true)
    [⟨none, .mkdir (some [slash, 100]) true⟩, ⟨none, .chmod (some [slash, 100]) 0o711⟩,
      ⟨none, .mkdir (some [slash, 100, slash, 104]) true⟩]

theorem hiddenState_diff :
    ∃ s' r kids kids', HiddenDiff stranger hiddenState s' 2 r kids kids' ∧
      WritableReadable stranger hiddenState ∧ hiddenState.totalNodes < maxFiles ∧
      s'.totalNodes < maxFiles := by
  have hlive : 2 ∈ hiddenState.live := by decide +kernel
  have hpar : ParentOf hiddenState 2 1 := by unfold ParentOf; decide +kernel
  have hwf : Wf hiddenState := runCalls_wf (ramfsInit_wf true) _
  obtain ⟨r, kids, ht⟩ := hwf.tree_of_live hlive
  obtain ⟨hp, hn⟩ := ht.mem_kids_parent hlive hpar
  have hleaf : kids 2 = [] := (ht.chain 2 hlive).eq_none_iff.mp (by decide +kernel)
  obtain ⟨s', -, hr⟩ := removeNode_spec ht hp hn
  have hroom : hiddenState.totalNodes < maxFiles := by decide +kernel
  refine ⟨s', r, kids, _, .of_removed ht hp hn hleaf hr (by decide +kernel), ?_, hroom, ?_⟩
  · unfold WritableReadable
    decide +kernel
  · rw [hr.totalNodes]
    omega

/-- Asked about the hidden name, the two states answer alike. -/
theorem hidden_unobservable_stat :
    ∃ s' r kids kids', HiddenDiff stranger hiddenState s' 2 r kids kids' ∧
      answer stranger s' (.stat (some [slash, 100, slash, 104])) =
        answer stranger hiddenState (.stat (some [slash, 100, slash, 104])) := by
  obtain ⟨s', r, kids, kids', hd, hw, hroom, hroom'⟩ := hiddenState_diff
  refine ⟨s', r, kids, kids', hd, (hidden_unobservable hd hw hroom hroom' _).mpr ?_⟩
  rintro ⟨_, _, hq, -⟩
  cases hq

/-- Asked to remove `/d`, the state with the hidden entry says it is not empty;
the state without it does not. -/
theorem hidden_observable_rmdir :
    ∃ s' r kids kids', HiddenDiff stranger hiddenState s' 2 r kids kids' ∧
      WritableReadable stranger hiddenState ∧ hiddenState.totalNodes < maxFiles ∧
      s'.totalNodes < maxFiles ∧ answer stranger hiddenState (.rmdir (some [slash, 100])) = (-3, .nothing) ∧
      answer stranger s' (.rmdir (some [slash, 100])) ≠
        answer stranger hiddenState (.rmdir (some [slash, 100])) := by
  obtain ⟨s', r, kids, kids', hd, hw, hroom, hroom'⟩ := hiddenState_diff
  refine ⟨s', r, kids, kids', hd, hw, hroom, hroom', by decide +kernel, fun heq => ?_⟩
  have hret : (ramfsRmdir stranger (some [slash, 100]) s').1 =
      (ramfsRmdir stranger (some [slash, 100]) hiddenState).1 := by
    simpa [answer] using heq
  refine (hd.rmdir_eq_iff _).mp hret ⟨1, by decide +kernel, by decide +kernel, ?_⟩
  refine ⟨by decide +kernel, ?_⟩
  exact show (hiddenState.node 2).next = none by decide +kernel

end TinyOS.Ramfs
