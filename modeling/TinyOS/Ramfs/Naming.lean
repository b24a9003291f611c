import TinyOS.Ramfs.TreeInvariant

/-!
# RAMFS: which node a path names

A node of the tree has one path (`AtPath.unique`), and a descriptor that
`ramfs_open` returns is for the node at the path it was given, found or created
(`ramfsOpen_atPath`).
-/

namespace TinyOS.Ramfs

open TinyOS.Lib List

/-! ## Nodes and their paths -/

section Paths

variable {s s' : State} {r : NodeId} {kids : NodeId → List NodeId} {cur : Caller}
  {p q n : NodeId} {names names' comps : List Str} {hide : Bool}

theorem AtPath.unique (ht : Tree s r kids) (h : AtPath s names n) (h' : AtPath s names' n) :
    names = names' := by
  induction h generalizing names' with
  | root hroot =>
    obtain rfl : r = _ := Option.some.inj (ht.root_eq.symm.trans hroot)
    cases h' with
    | root => rfl
    | child hp hc =>
      have hlive := ht.live_of_atPath hp
      have hkid := (ht.childOf_iff hlive).mp hc
      exact absurd rfl (ht.ne_root_of_parent (ht.kid_parent hlive hkid))
  | @child _ p c hp hc ih =>
    have hlive := ht.live_of_atPath hp
    have hkid := (ht.childOf_iff hlive).mp hc
    cases h' with
    | root hroot =>
      obtain rfl : r = _ := Option.some.inj (ht.root_eq.symm.trans hroot)
      exact absurd rfl (ht.ne_root_of_parent (ht.kid_parent hlive hkid))
    | @child _ p' _ hp' hc' =>
      have hlive' := ht.live_of_atPath hp'
      have hkid' := (ht.childOf_iff hlive').mp hc'
      obtain rfl : p = p' := ht.kids_disjoint hlive hlive' hkid hkid'
      rw [ih hp']

theorem Wf.tree_of_atPath (hw : Wf s) (h : AtPath s names n) : ∃ r kids, Tree s r kids := by
  rcases hw with ⟨hnone, -, -⟩ | htree
  · have hroot : ∀ names n, ¬AtPath s names n := by
      induction h with
      | root hr =>
        rw [hnone] at hr
        cases hr
      | child _ _ ih => exact ih
    exact absurd h (hroot names n)
  · exact htree

theorem AtPath.named (ht : Tree s r kids) (hp : AtPath s names p)
    (hfind : childNamed s kids p name = some n) : AtPath s (names ++ [name]) n := by
  obtain ⟨hkid, hname⟩ := childNamed_some hfind
  rw [← hname]
  exact hp.child ((ht.childOf_iff (ht.live_of_atPath hp)).mpr hkid)

theorem AtPath.lookup (ht : Tree s r kids) (hp : AtPath s names p)
    (h : lookupLoop cur s hide comps p = some q) : AtPath s (names ++ comps) q := by
  induction comps generalizing names p with
  | nil =>
    simp only [lookupLoop, Option.some.injEq] at h
    subst h
    rwa [append_nil]
  | cons name comps ih =>
    have hlive := ht.live_of_atPath hp
    rw [lookupLoop_cons ht hlive] at h
    split_ifs at h
    split at h
    · cases h
    rename_i child hfind
    split_ifs at h
    have hrest := ih (hp.named ht hfind) h
    rwa [append_assoc] at hrest

theorem AtPath.walk (ht : Tree s r kids) (hp : AtPath s names p)
    (h : walkLoop cur s comps p = .ok q) : AtPath s (names ++ comps) q := by
  induction comps generalizing names p with
  | nil =>
    simp only [walkLoop] at h
    split_ifs at h
    simp only [Walk.ok.injEq] at h
    subst h
    rwa [append_nil]
  | cons name comps ih =>
    have hlive := ht.live_of_atPath hp
    rw [walkLoop_cons ht hlive] at h
    split_ifs at h
    split at h
    · cases h
    rename_i child hfind
    split_ifs at h
    have hrest := ih (hp.named ht hfind) h
    rwa [append_assoc] at hrest

theorem ChildOf.frame (h : ChildOf s p n) (hchildren : (s'.node p).children = (s.node p).children)
    (hnext : ∀ q, (s'.node q).next = (s.node q).next) : ChildOf s' p n := by
  obtain ⟨l, hl, hmem⟩ := h
  refine ⟨l, ?_, hmem⟩
  rw [IsChildList, funext hnext, hchildren]
  exact hl

theorem AtPath.frame (h : AtPath s names n) (hroot : s'.root = s.root)
    (hnode : ∀ q, SameLinks (s.node q) (s'.node q)) : AtPath s' names n := by
  induction h with
  | root hr => exact .root (hroot.trans hr)
  | @child _ p c _ hc ih =>
    have hat := AtPath.child ih (hc.frame (hnode p).children fun q => (hnode q).next)
    rwa [(hnode c).name] at hat

theorem AtPath.setFd (h : AtPath s names n) (i : Nat) (d : Fd) : AtPath (s.setFd i d) names n :=
  h.frame rfl fun _ => SameLinks.rfl

theorem ramfsLookup_atPath (ht : Tree s r kids) {path : Str}
    (h : ramfsLookupLocked cur s (some path) hide = some n) :
    ∃ comps, splitPath path 16 = some comps ∧ AtPath s comps n := by
  simp only [ramfsLookupLocked, ht.root_eq] at h
  split_ifs at h with hslash
  · subst hslash
    rw [← Option.some.inj h]
    exact ⟨[], by decide, .root ht.root_eq⟩
  · split at h
    · cases h
    · rename_i comps hsplit
      exact ⟨comps, hsplit, (AtPath.root ht.root_eq).lookup ht h⟩

section Create

variable {parent : NodeId} {name : Str} {type : NodeType} {uid gid : Nat}

theorem AtPath.insertNode_old (ht : Tree s r kids)
    (ht' : Tree (insertNode s parent name type uid gid) r (kidsInsert kids parent s.nextId))
    (h : AtPath s names n) : AtPath (insertNode s parent name type uid gid) names n := by
  induction h with
  | root hroot => exact .root (ht'.root_eq.trans (ht.root_eq.symm.trans hroot))
  | @child _ p c hp hc ih =>
    have hlive := ht.live_of_atPath hp
    have hkid := (ht.childOf_iff hlive).mp hc
    have hkid' : c ∈ kidsInsert kids parent s.nextId p := by
      rw [kidsInsert, if_neg (ht.fresh p hlive).ne]
      split
      · rename_i heq
        exact mem_cons_of_mem _ (heq ▸ hkid)
      · exact hkid
    have hat := AtPath.child ih ((ht'.childOf_iff (ht'.live_of_atPath ih)).mpr hkid')
    rw [insertNode_node_old (ht.fresh c (ht.kid_live hlive hkid)).ne] at hat
    exact hat

theorem AtPath.insertNode_new (ht : Tree s r kids)
    (ht' : Tree (insertNode s parent name type uid gid) r (kidsInsert kids parent s.nextId))
    (hp : AtPath s names parent) (hname : ValidName name) :
    AtPath (insertNode s parent name type uid gid) (names ++ [name]) s.nextId := by
  have hlive := ht.live_of_atPath hp
  have hne : parent ≠ s.nextId := (ht.fresh parent hlive).ne
  have hold := hp.insertNode_old ht ht'
  have hkid : s.nextId ∈ kidsInsert kids parent s.nextId parent := by
    rw [kidsInsert, if_neg hne, if_pos rfl]
    exact mem_cons_self
  have hat := AtPath.child hold ((ht'.childOf_iff (ht'.live_of_atPath hold)).mpr hkid)
  rw [insertNode_node_new hne] at hat
  have hshort : name.take (maxName - 1) = name := take_of_length_le hname.short
  rw [show (newNode name type uid gid).name = name from hshort] at hat
  exact hat

end Create

/-! ## Opening -/

theorem Place.created_atPath (hw : Wf s) {parent : NodeId} {path name : Str}
    (h : Place cur s path comps parent name) (hroom : s.totalNodes < maxFiles) (type : NodeType) :
    AtPath (insertNode s parent name type cur.uid cur.gid) comps s.nextId := by
  obtain ⟨r, hroot, hwalk⟩ := h.walk
  obtain ⟨kids, ht⟩ := hw.tree hroot
  have spot := h.spot hw
  have hfree : ∀ c ∈ kids parent, (s.node c).name ≠ name := by
    intro c hc
    have hc' := (ht.mem_kids parent spot.live c).mp hc
    exact spot.fresh c hc'.1 hc'.2
  have ht' : Tree (insertNode s parent name type cur.uid cur.gid) r
      (kidsInsert kids parent s.nextId) :=
    ht.insertNode spot.live spot.dir spot.valid hfree hroom
  have hparent := (AtPath.root hroot).walk ht hwalk
  have hnew := hparent.insertNode_new ht ht' spot.valid
  rwa [nil_append, dropLast_append_getLast? name h.last] at hnew

theorem openCreate_atPath (hw : Wf s) {path : Str} {alloc : Bool} {node : NodeId}
    (h : openCreate cur (some path) alloc s = (.ok node, s')) :
    ∃ comps, splitPath path 16 = some comps ∧ AtPath s' comps node := by
  rcases openCreate_made cur (some path) alloc s with
    ⟨e, herr, -⟩ | ⟨found, hok, hfind⟩ | ⟨p, comps, parent, name, hpath, hplace, hroom, hok⟩
  · rw [herr] at h
    cases h
  · rw [hok] at h
    cases h
    obtain ⟨r, kids, ht⟩ := hw.tree_of_live (ramfsFind_some hw hfind).1
    exact ramfsLookup_atPath ht hfind
  · rw [hok] at h
    cases h
    cases hpath
    exact ⟨comps, hplace.split, hplace.created_atPath hw hroom .file⟩

/-- The descriptor that `ramfs_open` returns is for the node at the path. -/
structure OpenedAt (s : State) (fd : Int) (comps : List Str) (node : NodeId) : Prop where
  slot : fdSlot s fd = some fd.toNat
  held : (s.fds fd.toNat).node = some node
  atPath : AtPath s comps node

theorem openNode_atPath {node : NodeId} {flags : Nat} {fd : Int} (hat : AtPath s comps node)
    (h : openNode cur node flags s = (fd, s')) (hfd : 0 ≤ fd) : OpenedAt s' fd comps node := by
  unfold openNode at h
  split at h
  · rename_i hne
    have hneg : openCheck cur node flags s < 0 := by
      unfold openCheck at hne ⊢
      split_ifs at hne ⊢ <;> simp_all
    cases h
    omega
  · rcases openClaim_cases cur node flags s with ⟨hneg, -⟩ | ⟨i, hlt, -, hclaim⟩
    · rw [h] at hneg
      exact absurd hfd (Int.not_le.mpr hneg)
    · rw [hclaim] at h
      cases h
      have hused : ((s.setFd i (openedFd cur node flags)).fds i) = openedFd cur node flags := by
        rw [State.setFd_fds, if_pos rfl]
      refine ⟨?_, ?_, hat.setFd i _⟩
      · rw [fdSlot, Int.toNat_natCast, hused, if_pos ⟨hfd, by exact_mod_cast hlt, rfl⟩]
      · rw [Int.toNat_natCast, hused]
        rfl

theorem ramfsOpen_atPath (hw : Wf s) {path : Str} {flags : Nat} {alloc : Bool} {fd : Int}
    (h : ramfsOpen cur (some path) flags alloc s = (fd, s')) (hfd : 0 ≤ fd) :
    ∃ comps node, splitPath path 16 = some comps ∧ OpenedAt s' fd comps node := by
  unfold ramfsOpen at h
  split at h
  · cases h
    cases hfd
  split at h
  · cases h
    omega
  split at h
  · rename_i node hfind
    obtain ⟨r, kids, ht⟩ := hw.tree_of_live (ramfsFind_some hw hfind).1
    obtain ⟨comps, hsplit, hat⟩ := ramfsLookup_atPath ht hfind
    exact ⟨comps, node, hsplit, openNode_atPath hat h hfd⟩
  · split at h
    · split at h
      · rename_i e s₁ hcreate
        rcases openCreate_cases cur hw (some path) alloc with ⟨e', he, hneg⟩ | ⟨_, _, hok, -⟩
        · rw [he] at hcreate
          cases hcreate
          cases h
          omega
        · rw [hok] at hcreate
          cases hcreate
      · rename_i node s₁ hcreate
        obtain ⟨comps, hsplit, hat⟩ := openCreate_atPath hw hcreate
        exact ⟨comps, node, hsplit, openNode_atPath hat h hfd⟩
    · cases h
      cases hfd

end Paths

end TinyOS.Ramfs
