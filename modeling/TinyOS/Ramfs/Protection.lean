import TinyOS.Lib.Run
import TinyOS.Ramfs.TreeInvariant

/-!
# RAMFS: what a user without write permission cannot do

Runs of calls made by one non-root user, against a node `n` the user does not
own and may not write. The user may create, chmod, rename and remove whatever it
can, and uses only descriptors its own opens returned and it still holds; a
`Session` records for each of them the open that produced it.

`Kept` says what stays as it was: the node's data and metadata and, for a
directory, its entries. `session_protected` is the result for whole runs.
-/

namespace TinyOS.Ramfs

open TinyOS.Lib Relation State

/-- The open that produced a descriptor: who made it, the file, and the state it
left. -/
structure Opening where
  cur : Caller
  node : NodeId
  state : State

/-- The filesystem and the descriptors the user holds. -/
structure Session where
  state : State
  held : Nat → Option Opening

def Op.isOpen : Op → Bool
  | .open .. => true
  | _ => false

/-- One call. A successful open adds its descriptor to those held; a slot no
longer in use is no longer held. -/
def Session.next (σ : Session) (c : Call) : Session :=
  let r := c.exec σ.state
  { state := r.2
    held := fun i =>
      if (r.2.fds i).inUse then
        if c.op.isOpen ∧ r.1.ret = i then
          (r.2.fds i).node.map fun node => ⟨c.cur, node, r.2⟩
        else σ.held i
      else none }

/-- The user holds nothing yet. -/
def Session.start (s : State) : Session := ⟨s, fun _ => none⟩

/-- A call by a task of user `u` that `ramfs_check_permission` denies writing
`n`, on a descriptor the user holds if it names one. -/
structure Allowed (u : Nat) (n : NodeId) (s₀ : State) (σ : Session) (c : Call) : Prop where
  uid : c.cur.uid = u
  denied : permits c.cur (s₀.node n) flagWrite = false
  held : ∀ fd, c.op.fd = some fd → 0 ≤ fd ∧ (σ.held fd.toNat).isSome

/-- One allowed call. -/
def UserStep (u : Nat) (n : NodeId) (s₀ : State) (σ : Session) (c : Call) (σ' : Session) : Prop :=
  Allowed u n s₀ σ c ∧ σ' = σ.next c

/-! ## What is kept -/

/-- Contents, size, mode, uid and gid are the same. -/
structure SameData (m m' : Node) : Prop where
  dataPages : m'.dataPages = m.dataPages
  size : m'.size = m.size
  mode : m'.mode = m.mode
  uid : m'.uid = m.uid
  gid : m'.gid = m.gid

theorem SameData.rfl {m : Node} : SameData m m := ⟨Eq.refl _, Eq.refl _, Eq.refl _, Eq.refl _, Eq.refl _⟩

/-- The node's data and metadata, and the entries under it, are those of `s₀`. -/
structure Kept (s₀ s : State) (n : NodeId) : Prop where
  data : SameData (s₀.node n) (s.node n)
  entries : ∀ c, (c ∈ s.live ∧ ParentOf s c n) ↔ (c ∈ s₀.live ∧ ParentOf s₀ c n)
  names : ∀ c ∈ s.live, ParentOf s c n → (s.node c).name = (s₀.node c).name

theorem Kept.rfl {s : State} {n : NodeId} : Kept s s n :=
  ⟨SameData.rfl, fun _ => Iff.rfl, fun _ _ _ => Eq.refl _⟩

section Kept

variable {s₀ s s' : State} {n : NodeId} {cur : Caller}
variable (hk : Kept s₀ s n)

include hk

theorem Kept.permits_eq (access : Nat) :
    permits cur (s.node n) access = permits cur (s₀.node n) access := by
  simp only [permits, ramfsCheckPermission, hk.data.mode, hk.data.uid, hk.data.gid]

theorem Kept.frame (hdata : SameData (s.node n) (s'.node n))
    (hentries : ∀ c, (c ∈ s'.live ∧ ParentOf s' c n) ↔ (c ∈ s.live ∧ ParentOf s c n))
    (hnames : ∀ c ∈ s.live, ParentOf s c n → (s'.node c).name = (s.node c).name) :
    Kept s₀ s' n where
  data := ⟨hdata.dataPages.trans hk.data.dataPages, hdata.size.trans hk.data.size,
    hdata.mode.trans hk.data.mode, hdata.uid.trans hk.data.uid, hdata.gid.trans hk.data.gid⟩
  entries c := (hentries c).trans (hk.entries c)
  names c hc hpar := by
    obtain ⟨hc, hpar⟩ := (hentries c).mp ⟨hc, hpar⟩
    exact (hnames c hc hpar).trans (hk.names c hc hpar)

/-- An assignment through a node pointer: harmless to `n` if it keeps the parent
pointer, spares `n`'s data and renames none of its entries. -/
theorem Kept.modify (p : NodeId) (f : Node → Node)
    (hparent : (f (s.node p)).parent = (s.node p).parent)
    (hdata : p = n → SameData (s.node p) (f (s.node p)))
    (hname : ParentOf s p n → (f (s.node p)).name = (s.node p).name) :
    Kept s₀ (s.modify p f) n := by
  have hpar : ∀ q, ((s.modify p f).node q).parent = (s.node q).parent :=
    fun q => modify_field _ _ _ _ Node.parent hparent
  refine hk.frame ?_ (fun c => ?_) fun c _ hc => ?_
  · rw [modify_node]
    split
    · rename_i hn
      subst hn
      exact hdata (Eq.refl _)
    · exact SameData.rfl
  · rw [ParentOf, hpar, modify_live, ParentOf]
  · rw [modify_node]
    split
    · rename_i hq
      subst hq
      exact hname hc
    · exact Eq.refl _

theorem Kept.setFd (i : Nat) (d : Fd) : Kept s₀ (s.setFd i d) n :=
  hk.frame SameData.rfl (fun _ => Iff.rfl) fun _ _ _ => Eq.refl _

theorem Kept.setHandle (i : Nat) (h : Handle) : Kept s₀ (s.setHandle i h) n :=
  hk.frame SameData.rfl (fun _ => Iff.rfl) fun _ _ _ => Eq.refl _

theorem Kept.insertNode {r : NodeId} {kids : NodeId → List NodeId} {parent : NodeId} {name : Str}
    {type : NodeType} {uid gid : Nat} (ht : Tree s r kids) (hn : n ∈ s.live)
    (hp : parent ∈ s.live) (hne : parent ≠ n) :
    Kept s₀ (insertNode s parent name type uid gid) n := by
  have hold : ∀ q ∈ s.live, q ≠ s.nextId := fun q hq => (ht.fresh q hq).ne
  refine hk.frame ?_ (fun c => ?_) fun c hc _ => ?_
  · rw [insertNode_node_old (hold n hn)]
    exact ⟨Eq.refl _, Eq.refl _, Eq.refl _, Eq.refl _, Eq.refl _⟩
  · by_cases hc : c = s.nextId
    · subst hc
      have hnew : s.nextId ∉ s.live := fun h => hold _ h (Eq.refl _)
      simp [ParentOf, insertNode_node_new (hold parent hp), hne, hnew]
    · rw [ParentOf, insertNode_node_old hc]
      simp [hc, ParentOf]
  · rw [insertNode_node_old (hold c hc)]

theorem Kept.removed {parent node : NodeId} {kids : List NodeId} (hne : parent ≠ n)
    (hnode : node ≠ n) (hpar : ParentOf s node parent) (h : Removed s s' parent node kids) :
    Kept s₀ s' n := by
  have hnp : ¬ ParentOf s node n := by
    intro hn
    exact hne (Option.some.inj (hpar.symm.trans hn))
  refine hk.frame ?_ (fun c => ?_) fun c _ hc => ?_
  · rw [h.fields n hnode.symm]
    exact ⟨Eq.refl _, Eq.refl _, Eq.refl _, Eq.refl _, Eq.refl _⟩
  · rw [h.live, Finset.mem_erase]
    by_cases hc : c = node
    · subst hc
      simp [hnp]
    · rw [ParentOf, h.fields c hc]
      simp [hc, ParentOf]
  · have hcn : c ≠ node := by
      rintro rfl
      exact hnp hc
    rw [h.fields c hcn]

/-- No effect of a caller that may not write `n`, does not own it and holds no
writable descriptor on it touches what is kept. -/
theorem Kept.effect {use : Scope} (hw : Wf s) (hn : n ∈ s.live) (hroot : cur.uid ≠ 0)
    (howner : (s₀.node n).uid ≠ cur.uid) (hdenied : permits cur (s₀.node n) flagWrite = false)
    (hfds : ∀ i, use.slot i → (s.fds i).node = some n → (s.fds i).flags &&& flagWrite = 0)
    (h : Effect cur use s s') (hn' : n ∈ s'.live) : Kept s₀ s' n := by
  have hdir : ∀ p, permits cur (s.node p) flagWrite = true → p ≠ n := by
    rintro p hp rfl
    rw [hk.permits_eq, hdenied] at hp
    exact absurd hp (by simp)
  obtain ⟨r, kids, ht⟩ := hw.tree_of_live hn
  cases h with
  | create type spot room => exact hk.insertNode ht hn spot.live (hdir _ spot.write)
  | remove entry named empty idle gone =>
    obtain ⟨-, -, hr⟩ := ht.remove_cases entry gone
    refine hk.removed (hdir _ entry.write) ?_ entry.parentOf hr
    rw [hr.live, Finset.mem_erase] at hn'
    exact hn'.1.symm
  | rename entry spot =>
    refine hk.modify _ _ (Eq.refl _) (fun _ => ⟨Eq.refl _, Eq.refl _, Eq.refl _, Eq.refl _, Eq.refl _⟩)
      fun hpar => ?_
    exact absurd (Option.some.inj (entry.parentOf.symm.trans hpar)) (hdir _ entry.write)
  | chmod mode live owner =>
    refine hk.modify _ _ (Eq.refl _) ?_ fun _ => Eq.refl _
    rintro rfl
    rcases owner with h0 | hsame
    · exact absurd h0 hroot
    · exact absurd (hk.data.uid.symm.trans hsame.symm) howner
  | claim | cursor | refs | release => exact hk.setFd _ _
  | write allocs slot named flag node_eq pos fits =>
    refine (hk.modify _ _ ?_ ?_ fun _ => ?_).setFd _ _
    · rw [writeNode_frame]
    · rintro rfl
      exact absurd (hfds _ named node_eq) flag
    · rw [writeNode_frame]
  | truncate slot named flag node_eq =>
    refine (hk.modify _ _ (Eq.refl _) ?_ fun _ => Eq.refl _).setFd _ _
    rintro rfl
    exact absurd (hfds _ named node_eq) flag
  | claimDir | releaseDir => exact hk.setHandle _ _

omit hk

/-- Whoever takes `n` off or renames it may write its directory and search all
directories above. -/
theorem Effect.entry_of_changed {use : Scope} (hw : Wf s) (hn : n ∈ s.live)
    (h : Effect cur use s s') (hgone : n ∉ s'.live ∨ (s'.node n).name ≠ (s.node n).name) :
    ∃ parent, Entry cur s parent n := by
  obtain ⟨r, kids, ht⟩ := hw.tree_of_live hn
  have hmodify : ∀ (p : NodeId) (f : Node → Node), (f (s.node p)).name = (s.node p).name →
      ((s.modify p f).node n).name = (s.node n).name :=
    fun p f hf => modify_field _ _ _ _ Node.name hf
  cases h with
  | create type spot room =>
    rw [insertNode_node_old (ht.fresh n hn).ne, insertNode_live, Finset.mem_insert] at hgone
    simp [hn] at hgone
  | @remove _ parent node entry named empty idle gone =>
    obtain ⟨-, -, hr⟩ := ht.remove_cases entry gone
    by_cases hnn : n = node
    · subst hnn
      exact ⟨parent, entry⟩
    · rw [hr.live, Finset.mem_erase, hr.fields n hnn] at hgone
      simp [hn, hnn] at hgone
  | @rename parent node name entry spot =>
    by_cases hnn : n = node
    · subst hnn
      exact ⟨parent, entry⟩
    · rw [modify_node_ne _ _ _ _ hnn] at hgone
      simp [hn] at hgone
  | chmod mode live owner =>
    rw [hmodify _ _ (Eq.refl _)] at hgone
    simp [hn] at hgone
  | write allocs slot named flag node_eq pos fits =>
    rw [setFd_node, hmodify _ _ (by rw [writeNode_frame])] at hgone
    simp [hn] at hgone
  | truncate slot named flag node_eq =>
    rw [setFd_node, hmodify _ _ (Eq.refl _)] at hgone
    simp [hn] at hgone
  | claim | cursor | refs | release | claimDir | releaseDir => simp [hn] at hgone

/-- An effect leaves a descriptor's file, flags and claim alone, unless the slot
was free or the effect is the release of a slot the call names. -/
theorem Effect.fd_cases {use : Scope} (hw : Wf s) (h : Effect cur use s s') (j : Nat) :
    ((s'.fds j).node = (s.fds j).node ∧ (s'.fds j).flags = (s.fds j).flags ∧
      (s'.fds j).inUse = (s.fds j).inUse) ∨
    (s.fds j).inUse = false ∨ (s'.fds j).inUse = false := by
  have hset : ∀ (t : State) (i : Nat) (d : Fd), t.fds = s.fds →
      d.node = (s.fds i).node ∧ d.flags = (s.fds i).flags ∧ d.inUse = (s.fds i).inUse →
      ((t.setFd i d).fds j).node = (s.fds j).node ∧ ((t.setFd i d).fds j).flags = (s.fds j).flags ∧
        ((t.setFd i d).fds j).inUse = (s.fds j).inUse := by
    intro t i d ht hd
    rw [setFd_fds]
    split
    · rename_i hji
      rw [hji]
      exact hd
    · rw [ht]
      exact ⟨rfl, rfl, rfl⟩
  cases h with
  | create | rename | chmod | claimDir | releaseDir => exact .inl ⟨rfl, rfl, rfl⟩
  | remove entry named empty idle gone =>
    obtain ⟨_, hr⟩ := hw.remove_cases entry gone
    rw [hr.fds]
    exact .inl ⟨rfl, rfl, rfl⟩
  | write | truncate | cursor | refs => exact .inl (hset _ _ _ rfl ⟨rfl, rfl, rfl⟩)
  | @claim node flags i live above file granted lt free =>
    by_cases hji : j = i
    · subst hji
      exact .inr (.inl free)
    · simp [setFd_fds, hji]
  | @release i slot named =>
    by_cases hji : j = i
    · subst hji
      exact .inr (.inr (by simp [setFd_fds, Fd.free]))
    · simp [setFd_fds, hji]

theorem Effect.nextId_le {use : Scope} (hw : Wf s) (h : Effect cur use s s') :
    s.nextId ≤ s'.nextId := by
  cases h with
  | create => exact Nat.le_succ _
  | remove entry named empty idle gone =>
    obtain ⟨_, hr⟩ := hw.remove_cases entry gone
    rw [hr.nextId]
  | _ => exact le_refl _

/-- A node number once handed out is never live again after it is freed. -/
theorem Effect.live_of_live {use : Scope} (hw : Wf s) (h : Effect cur use s s')
    (hold : n < s.nextId) (hn : n ∈ s'.live) : n ∈ s.live := by
  cases h with
  | create =>
    rcases Finset.mem_insert.mp hn with rfl | hn
    · exact absurd hold (lt_irrefl _)
    · exact hn
  | remove entry named empty idle gone =>
    obtain ⟨_, hr⟩ := hw.remove_cases entry gone
    rw [hr.live] at hn
    exact Finset.mem_of_mem_erase hn
  | _ => exact hn

end Kept

/-! ## Sessions -/

/-- The invariant of a session: what is kept, and what the opens behind the
descriptors held have checked. -/
structure SessionInv (u : Nat) (n : NodeId) (s₀ : State) (σ : Session) : Prop where
  wf : Wf σ.state
  old : n < σ.state.nextId
  kept : n ∈ σ.state.live → Kept s₀ σ.state n
  inUse : ∀ i o, σ.held i = some o → (σ.state.fds i).inUse = true
  node : ∀ i o, σ.held i = some o → (σ.state.fds i).node = some o.node
  opened : ∀ i o, σ.held i = some o → Opened o.cur o.state o.node (σ.state.fds i).flags
  readOnly : ∀ i o, σ.held i = some o → o.node = n → (σ.state.fds i).flags &&& flagWrite = 0

section Session

variable {u : Nat} {n : NodeId} {s₀ : State} {σ : Session} {c : Call}

theorem Allowed.uses_held (ha : Allowed u n s₀ σ c) {i : Nat} (hi : (c.scope σ.state).slot i) :
    ∃ o, σ.held i = some o := by
  obtain ⟨-, hheld⟩ := ha.held _ hi
  simpa [Option.isSome_iff_exists] using hheld

theorem SessionInv.uses_readOnly (hi : SessionInv u n s₀ σ) (ha : Allowed u n s₀ σ c) :
    ∀ i, (c.scope σ.state).slot i → (σ.state.fds i).node = some n →
      (σ.state.fds i).flags &&& flagWrite = 0 := by
  intro i huse hnode
  obtain ⟨o, ho⟩ := ha.uses_held huse
  refine hi.readOnly i o ho ?_
  exact Option.some.inj ((hi.node i o ho).symm.trans hnode)

/-- What is kept survives any effect an allowed call may have. -/
theorem SessionInv.kept_effect {s' : State} (hu : u ≠ 0) (howner : (s₀.node n).uid ≠ u)
    (hi : SessionInv u n s₀ σ) (ha : Allowed u n s₀ σ c)
    (h : MayEffect c.cur (c.scope σ.state) σ.state s') (hn : n ∈ s'.live) : Kept s₀ s' n := by
  cases h with
  | refl => exact hi.kept hn
  | single h =>
    have hlive := h.live_of_live hi.wf hi.old hn
    exact (hi.kept hlive).effect hi.wf hlive (by rw [ha.uid]; exact hu)
      (by rw [ha.uid]; exact howner) ha.denied (hi.uses_readOnly ha) h hn

section mayEffect

variable {cur : Caller} {use : Scope} {s s' : State} (hw : Wf s) (h : MayEffect cur use s s')

include hw h

theorem MayEffect.nextId_le : s.nextId ≤ s'.nextId := by
  cases h with
  | refl => exact le_refl _
  | single h => exact h.nextId_le hw

theorem Wf.mayEffect : Wf s' := by
  cases h with
  | refl => exact hw
  | single h => exact hw.effect h

/-- Descriptors held before and still in use are what they were. -/
theorem MayEffect.fd_eq {j : Nat} (hj : (s.fds j).inUse = true)
    (hj' : (s'.fds j).inUse = true) :
    (s'.fds j).node = (s.fds j).node ∧ (s'.fds j).flags = (s.fds j).flags := by
  cases h with
  | refl => exact ⟨rfl, rfl⟩
  | single h =>
    rcases h.fd_cases hw j with ⟨hnode, hflags, -⟩ | hfree | hfree
    · exact ⟨hnode, hflags⟩
    · simp [hfree] at hj
    · simp [hfree] at hj'

end mayEffect

/-- The session after a call whose effect is known and which opened nothing. -/
theorem SessionInv.step_of_effect (hu : u ≠ 0) (howner : (s₀.node n).uid ≠ u)
    (hi : SessionInv u n s₀ σ) (ha : Allowed u n s₀ σ c)
    (h : MayEffect c.cur (c.scope σ.state) σ.state (c.exec σ.state).2)
    (hheld : ∀ i o, (σ.next c).held i = some o →
      σ.held i = some o ∧ ((c.exec σ.state).2.fds i).inUse = true) :
    SessionInv u n s₀ (σ.next c) where
  wf := hi.wf.mayEffect h
  old := lt_of_lt_of_le hi.old (h.nextId_le hi.wf)
  kept := hi.kept_effect hu howner ha h
  inUse i o ho := (hheld i o ho).2
  node i o ho := by
    obtain ⟨ho, huse⟩ := hheld i o ho
    rw [← hi.node i o ho]
    exact (h.fd_eq hi.wf (hi.inUse i o ho) huse).1
  opened i o ho := by
    obtain ⟨ho, huse⟩ := hheld i o ho
    have hflags := (h.fd_eq hi.wf (hi.inUse i o ho) huse).2
    have := hi.opened i o ho
    rwa [← hflags] at this
  readOnly i o ho hn := by
    obtain ⟨ho, huse⟩ := hheld i o ho
    have hflags := (h.fd_eq hi.wf (hi.inUse i o ho) huse).2
    have := hi.readOnly i o ho hn
    rwa [← hflags] at this

/-- What a step that is not a successful open holds afterwards was held before. -/
theorem Session.held_next_of_not_open {i : Nat} {o : Opening}
    (hop : ¬ (c.op.isOpen = true ∧ (c.exec σ.state).1.ret = i)) (h : (σ.next c).held i = some o) :
    σ.held i = some o ∧ ((c.exec σ.state).2.fds i).inUse = true := by
  simp only [Session.next, hop, if_false] at h
  split_ifs at h with huse
  exact ⟨h, huse⟩

theorem SessionInv.next (hu : u ≠ 0) (howner : (s₀.node n).uid ≠ u)
    (hi : SessionInv u n s₀ σ) (ha : Allowed u n s₀ σ c) : SessionInv u n s₀ (σ.next c) := by
  by_cases hop : ∃ path flags alloc, c.op = .open path flags alloc
  swap
  · push Not at hop
    refine hi.step_of_effect hu howner ha (exec_effect hi.wf c hop) fun i o ho => ?_
    refine Session.held_next_of_not_open (fun hopen => ?_) ho
    cases h : c.op with
    | «open» path flags alloc => exact hop path flags alloc h
    | _ => simp [h, Op.isOpen] at hopen
  obtain ⟨path, flags, alloc, hop⟩ := hop
  have hexec : c.exec σ.state = (⟨(ramfsOpen c.cur path flags alloc σ.state).1, []⟩,
      (ramfsOpen c.cur path flags alloc σ.state).2) := by
    rw [Call.exec, hop]
  have hout : OpenOutcome c.cur flags σ.state (ramfsOpen c.cur path flags alloc σ.state) :=
    ramfsOpen_outcome hi.wf path flags alloc
  rcases hout with
    ⟨hneg, hcreate⟩ | ⟨node, s₁, j, hcreate, ho, hlt, hfree, hr⟩
  · -- the open failed
    refine hi.step_of_effect hu howner ha (by rw [hexec]; exact hcreate.effect) fun i o ho => ?_
    refine Session.held_next_of_not_open (fun hopen => ?_) ho
    rw [hexec] at hopen
    have : (ramfsOpen c.cur path flags alloc σ.state).1 = (i : Int) := hopen.2
    omega
  · -- slot `j` is claimed in `s₁`
    have hmay : MayEffect c.cur (c.scope σ.state) σ.state s₁ := hcreate.effect
    have hw₁ := hi.wf.mayEffect hmay
    have hfds₁ : s₁.fds = σ.state.fds := by
      rcases hcreate with rfl | ⟨parent, name, -, -, rfl⟩
      · rfl
      · rfl
    obtain ⟨s₂, hs₂⟩ : ∃ s₂, s₂ = s₁.setFd j (openedFd c.cur node flags) := ⟨_, rfl⟩
    have hstate : (c.exec σ.state).2 = s₂ := by
      rw [hexec, hr, hs₂]
    have hret : (c.exec σ.state).1.ret = (j : Int) := by
      rw [hexec, hr]
    have hnew : (σ.next c).held j = some ⟨c.cur, node, s₂⟩ := by
      simp [Session.next, hstate, hs₂, hret, setFd_fds, openedFd, hop, Op.isOpen]
    -- every other slot is as it was
    have hslot : ∀ i o, (σ.next c).held i = some o →
        (i = j ∧ o = ⟨c.cur, node, s₂⟩) ∨ (σ.held i = some o ∧ s₂.fds i = σ.state.fds i) := by
      intro i o ho
      by_cases hij : i = j
      · subst hij
        exact .inl ⟨rfl, Option.some.inj (ho.symm.trans hnew)⟩
      · obtain ⟨ho, -⟩ := Session.held_next_of_not_open
          (fun hopen => hij (by have := hret.symm.trans hopen.2; omega)) ho
        exact .inr ⟨ho, by rw [hs₂, setFd_fds, if_neg hij, hfds₁]⟩
    have hfd : s₂.fds j = openedFd c.cur node flags := by
      rw [hs₂, setFd_fds, if_pos rfl]
    have hclaim : Effect c.cur (c.scope σ.state) s₁ s₂ := by
      rw [hs₂]
      exact .claim ho.live ho.above ho.file ho.granted hlt hfree
    have hkept₁ : n ∈ s₁.live → Kept s₀ s₁ n := hi.kept_effect hu howner ha hmay
    have hnext : (σ.next c).state = s₂ := hstate
    refine
      { wf := by rw [hnext]; exact hw₁.effect hclaim
        old := by rw [hnext]; exact lt_of_lt_of_le hi.old ((hmay.nextId_le hi.wf).trans (hclaim.nextId_le hw₁))
        kept := fun hn => by rw [hnext, hs₂] at hn ⊢; exact (hkept₁ hn).setFd _ _
        inUse := ?_, node := ?_, opened := ?_, readOnly := ?_ }
    all_goals
      intro i o hheld
      rw [hnext]
      rcases hslot i o hheld with ⟨rfl, rfl⟩ | ⟨hold, heq⟩ <;> [rw [hfd]; rw [heq]]
    · rfl
    · exact hi.inUse i o hold
    · rfl
    · exact hi.node i o hold
    · rw [hs₂]
      exact { ho with }
    · exact hi.opened i o hold
    · -- a file the user may not write was not opened for writing
      intro hn
      change node = n at hn
      subst hn
      by_contra hwrite
      have hgrant : permits c.cur (s₁.node node) flagWrite = true :=
        permits_of_flag ho.granted (.inr (.inl rfl)) hwrite
      rw [(hkept₁ ho.live).permits_eq, ha.denied] at hgrant
      exact absurd hgrant (by simp)
    · exact hi.readOnly i o hold

/-- Nodes change through at most one effect of a call. -/
theorem exec_nodes {s : State} (hw : Wf s) (c : Call) :
    ∃ s₁, MayEffect c.cur (c.scope s) s s₁ ∧ (c.exec s).2.node = s₁.node ∧
      (c.exec s).2.live = s₁.live := by
  by_cases hop : ∃ path flags alloc, c.op = .open path flags alloc
  swap
  · push Not at hop
    exact ⟨_, exec_effect hw c hop, rfl, rfl⟩
  obtain ⟨path, flags, alloc, hop⟩ := hop
  have hout : OpenOutcome c.cur flags s (ramfsOpen c.cur path flags alloc s) :=
    ramfsOpen_outcome hw path flags alloc
  have hstate : (c.exec s).2 = (ramfsOpen c.cur path flags alloc s).2 := by
    rw [Call.exec, hop]
  rw [hstate]
  rcases hout with ⟨-, hcreate⟩ | ⟨node, s₁, j, hcreate, -, -, -, hr⟩
  · exact ⟨_, hcreate.effect, rfl, rfl⟩
  · exact ⟨s₁, hcreate.effect, by rw [hr]; rfl, by rw [hr]; rfl⟩

/-- A read that returns bytes has passed the descriptor's read flag and copies
from the descriptor's file. -/
theorem ramfsRead_bytes {s : State} {fd : Int} {count : Nat} (h : (ramfsRead fd count s).2.1 ≠ []) :
    ∃ node k, (s.fds fd.toNat).flags &&& flagRead ≠ 0 ∧ (s.fds fd.toNat).node = some node ∧
      (ramfsRead fd count s).2.1 = readLoop (s.node node) (s.fds fd.toNat).pos k := by
  unfold ramfsRead at h ⊢
  cases hslot : fdSlot s fd with
  | none => simp [hslot] at h
  | some i =>
    obtain rfl : i = fd.toNat := by
      have := (fdSlot_some hslot).2
      omega
    simp only [hslot] at h ⊢
    split at h
    · exact absurd rfl h
    rename_i hflag
    rw [if_neg hflag]
    split at h
    · exact absurd rfl h
    rename_i node hnode
    split at h
    · exact absurd rfl h
    rename_i hpos
    split at h
    · exact absurd rfl h
    rename_i hlen
    refine ⟨node, min count ((s.node node).size - (s.fds fd.toNat).pos), hflag, hnode, ?_⟩
    simp only [hnode, hpos, hlen, if_false]

end Session

/-- A non-root user, against a node it does not own and may not write, over any
run of its calls: the node's contents, size, mode, uid, gid and entries stay as
they were; it is removed or renamed only by a call that may write its directory
and search every directory above; and a read returns bytes only of a file whose
open was granted reading through searchable directories. -/
theorem session_protected {u : Nat} {n : NodeId} {s₀ : State} {σ : Session} {calls : List Call}
    (hw : Wf s₀) (hu : u ≠ 0) (hn : n ∈ s₀.live) (howner : (s₀.node n).uid ≠ u)
    (hrun : Run (UserStep u n s₀) (Session.start s₀) calls σ) :
    (n ∈ σ.state.live → Kept s₀ σ.state n) ∧
    (∀ c, Allowed u n s₀ σ c → n ∈ σ.state.live →
      (n ∉ (σ.next c).state.live ∨ ((σ.next c).state.node n).name ≠ (σ.state.node n).name) →
      ∃ parent, ParentOf σ.state n parent ∧
        permits c.cur (σ.state.node parent) flagWrite = true ∧ AllSearchable c.cur σ.state n) ∧
    (∀ c fd count, Allowed u n s₀ σ c → c.op = .read fd count → (c.exec σ.state).1.bytes ≠ [] →
      ∃ o k, σ.held fd.toNat = some o ∧
        (c.exec σ.state).1.bytes =
          readLoop (σ.state.node o.node) (σ.state.fds fd.toNat).pos k ∧
        permits o.cur (o.state.node o.node) flagRead = true ∧
        AllSearchable o.cur o.state o.node) := by
  have hinit : SessionInv u n s₀ (Session.start s₀) := by
    obtain ⟨r, kids, ht⟩ := hw.tree_of_live hn
    exact ⟨hw, ht.fresh n hn, fun _ => Kept.rfl, by simp [Session.start], by simp [Session.start],
      by simp [Session.start], by simp [Session.start]⟩
  have hi : SessionInv u n s₀ σ := by
    refine hrun.invariant ?_ hinit
    rintro τ c _ hτ ⟨ha, rfl⟩
    exact hτ.next hu howner ha
  refine ⟨hi.kept, ?_, ?_⟩
  · intro c _ hlive hgone
    obtain ⟨s₁, hmay, hnode, hlive₁⟩ := exec_nodes hi.wf c
    have hgone : n ∉ s₁.live ∨ (s₁.node n).name ≠ (σ.state.node n).name := by
      rwa [← hnode, ← hlive₁]
    cases hmay with
    | refl => simp [hlive] at hgone
    | single h =>
      obtain ⟨parent, entry⟩ := h.entry_of_changed hi.wf hlive hgone
      exact ⟨parent, entry.parentOf, entry.write, entry.above⟩
  · intro c fd count ha hop hbytes
    have hexec : (c.exec σ.state).1.bytes = (ramfsRead fd count σ.state).2.1 := by
      rw [Call.exec, hop]
    rw [hexec] at hbytes ⊢
    obtain ⟨node, k, hflag, hnode, heq⟩ := ramfsRead_bytes hbytes
    obtain ⟨-, hheld⟩ := ha.held fd (by rw [hop]; rfl)
    obtain ⟨o, ho⟩ := Option.isSome_iff_exists.mp hheld
    have hopened := hi.opened _ o ho
    obtain rfl : node = o.node := Option.some.inj (hnode.symm.trans (hi.node _ o ho))
    exact ⟨o, k, ho, heq, permits_of_flag hopened.granted (.inl rfl) hflag, hopened.above⟩

/-- Root has made `/f`, world-readable, with two bytes in it. -/
def sampleState : State :=
  runCalls (ramfsInit true)
    [⟨none, .open (some [slash, 102]) flagWrite true⟩, ⟨none, .write 0 [104, 105] fun _ => true⟩,
      ⟨none, .chmod (some [slash, 102]) 0o644⟩, ⟨none, .close 0⟩]

/-- The user opens `/f` for reading and reads it; the file stays as it was. -/
theorem session_protected_sample :
    let σ := (Session.start sampleState).next ⟨stranger, .open (some [slash, 102]) flagRead true⟩
    1 ∈ σ.state.live ∧ Kept sampleState σ.state 1 ∧
      ((⟨stranger, .read 0 2⟩ : Call).exec σ.state).1.bytes = [104, 105] := by
  intro σ
  have hallowed : Allowed 1000 1 sampleState (Session.start sampleState)
      ⟨stranger, .open (some [slash, 102]) flagRead true⟩ :=
    ⟨rfl, by decide +kernel, fun fd h => by simp [Op.fd] at h⟩
  have hlive : 1 ∈ σ.state.live := by decide +kernel
  have h := session_protected (runCalls_wf (ramfsInit_wf true) _) (by decide) (by decide +kernel)
    (by decide +kernel) (.cons ⟨hallowed, rfl⟩ (.nil σ))
  exact ⟨hlive, h.1 hlive, by decide +kernel⟩

/-! ## Only the owner and root change the rights -/

/-- Where a node is, what it is, whose it is and what is allowed. -/
def Node.rights (n : Node) : Option NodeId × NodeType × Nat × Nat × Nat :=
  (n.parent, n.type, n.uid, n.gid, n.mode)

/-- The node is gone for good, or its rights are those it had in `s₀`. -/
structure SameRights (s₀ : State) (n : NodeId) (s : State) : Prop where
  wf : Wf s
  old : n < s.nextId
  rights : n ∈ s.live → (s.node n).rights = (s₀.node n).rights

theorem SameRights.effect {s₀ s s' : State} {n : NodeId} {cur : Caller} {use : Scope}
    (hi : SameRights s₀ n s) (hstranger : cur.uid ≠ 0 ∧ cur.uid ≠ (s₀.node n).uid)
    (h : Effect cur use s s') : SameRights s₀ n s' := by
  refine ⟨hi.wf.effect h, lt_of_lt_of_le hi.old (h.nextId_le hi.wf), fun hn => ?_⟩
  have hlive := h.live_of_live hi.wf hi.old hn
  rw [← hi.rights hlive]
  have huid : (s.node n).uid = (s₀.node n).uid := congrArg (·.2.2.1) (hi.rights hlive)
  cases h with
  | create type spot room => rw [insertNode_node_old (Nat.ne_of_lt hi.old)]; rfl
  | remove entry named empty idle gone =>
    obtain ⟨_, hr⟩ := hi.wf.remove_cases entry gone
    rw [hr.live, Finset.mem_erase] at hn
    rw [hr.fields n hn.1]
    rfl
  | rename => exact modify_field _ _ _ _ Node.rights rfl
  | @chmod node mode live owner =>
    have hne : n ≠ node := by
      rintro rfl
      rw [huid] at owner
      exact not_or.mpr hstranger owner
    rw [modify_node_ne _ _ _ _ hne]
  | write =>
    rw [setFd_node]
    refine modify_field _ _ _ _ Node.rights ?_
    rw [writeNode_frame]
    rfl
  | truncate =>
    rw [setFd_node]
    exact modify_field _ _ _ _ Node.rights rfl
  | _ => rfl

/-- Whatever others than its owner and root do, a node that is still there has its place, type,
owner, group and mode. -/
theorem rights_are_kept_from_strangers {s : State} {n : NodeId} (hw : Wf s) (hn : n ∈ s.live)
    (calls : List Call) (hstrangers : ∀ c ∈ calls, c.cur.uid ≠ 0 ∧ c.cur.uid ≠ (s.node n).uid)
    (hn' : n ∈ (runCalls s calls).live) :
    ((runCalls s calls).node n).rights = (s.node n).rights := by
  obtain ⟨r, kids, ht⟩ := hw.tree_of_live hn
  refine SameRights.rights (List.foldlRecOn calls _ ⟨hw, ht.fresh n hn, fun _ => rfl⟩ ?_) hn'
  intro t hi c hc
  have hstranger := hstrangers c hc
  have heffects := exec_effects hi.wf c
  generalize (c.exec t).2 = t' at heffects ⊢
  induction heffects with
  | refl => exact hi
  | tail _ h ih => exact ih.effect hstranger h

/-- The task cannot change the mode of `/f`. -/
theorem sample_rights_are_kept :
    ((runCalls sampleState [⟨stranger, .chmod (some [slash, 102]) 0o777⟩]).node 1).rights =
      (sampleState.node 1).rights :=
  rights_are_kept_from_strangers (runCalls_wf (ramfsInit_wf true) _) (by decide +kernel) _
    (by decide +kernel) (by decide +kernel)

end TinyOS.Ramfs
