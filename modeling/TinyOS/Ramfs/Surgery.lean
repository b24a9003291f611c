import TinyOS.Ramfs.Tree

/-!
# RAMFS: what the list surgery does to the tree

The three ways the tree changes, each proved once: a node is pushed on its
parent's child list (`Tree.insertNode`), taken off it and freed
(`Tree.removeNode`), or renamed in place (`Tree.rename`). Everything else an
operation assigns leaves the links alone (`Tree.frame`).
-/

namespace TinyOS.Ramfs

open TinyOS.Lib State Finset

/-- The fields that make up the tree are the same. -/
structure SameLinks (n n' : Node) : Prop where
  name : n'.name = n.name
  type : n'.type = n.type
  childCount : n'.childCount = n.childCount
  parent : n'.parent = n.parent
  children : n'.children = n.children
  next : n'.next = n.next

theorem SameLinks.rfl {n : Node} : SameLinks n n := ⟨Eq.refl _, Eq.refl _, Eq.refl _, Eq.refl _,
  Eq.refl _, Eq.refl _⟩

variable {s : State} {r : NodeId} {kids : NodeId → List NodeId}

theorem Tree.frame {s' : State} (ht : Tree s r kids)
    (hroot : s'.root = s.root) (hlive : s'.live = s.live) (hnext : s'.nextId = s.nextId)
    (htotal : s'.totalNodes = s.totalNodes)
    (hnode : ∀ p ∈ s.live, SameLinks (s.node p) (s'.node p)) : Tree s' r kids := by
  obtain ⟨_, node, _, _, _, _, _, _⟩ := s'
  dsimp only at hroot hlive hnext htotal hnode
  subst hroot hlive hnext htotal
  refine
    { ht with
      root_dir := (hnode r ht.root_live).type.trans ht.root_dir
      root_parent := (hnode r ht.root_live).parent.trans ht.root_parent
      orphan := ?_, parent_live := ?_, parent_lt := ?_, chain := ?_, mem_kids := ?_, leaf := ?_
      names := ?_, distinct := ?_, count := ?_ }
  · intro c hc hpar
    exact ht.orphan c hc ((hnode c hc).parent.symm.trans hpar)
  · intro c hc p hpar
    exact ht.parent_live c hc p ((hnode c hc).parent.symm.trans hpar)
  · intro c hc p hpar
    exact ht.parent_lt c hc p ((hnode c hc).parent.symm.trans hpar)
  · intro p hp
    rw [(hnode p hp).children]
    exact (ht.chain p hp).congr fun x hx => (hnode x (ht.kid_live hp hx)).next
  · intro p hp c
    rw [ht.mem_kids p hp c]
    refine and_congr_right fun hc => ?_
    rw [ParentOf, ParentOf, (hnode c hc).parent]
  · intro p hp htype
    rw [(hnode p hp).type] at htype
    exact ht.leaf p hp htype
  · intro c hc hne
    rw [(hnode c hc).name]
    exact ht.names c hc hne
  · intro p hp a ha b hb hab
    rw [(hnode a (ht.kid_live hp ha)).name, (hnode b (ht.kid_live hp hb)).name] at hab
    exact ht.distinct p hp a ha b hb hab
  · intro p hp
    rw [(hnode p hp).childCount]
    exact ht.count p hp

/-! ## Inserting a node -/

/-- The state after a successful `alloc_node` and the linking that follows it. -/
def insertNode (s : State) (parent : NodeId) (name : Str) (type : NodeType) (uid gid : Nat) :
    State :=
  linkChild { s with
    node := Function.update s.node s.nextId (newNode name type uid gid)
    live := insert s.nextId s.live
    nextId := s.nextId + 1
    totalNodes := s.totalNodes + 1 } parent s.nextId

section Insert

variable {s : State} {r : NodeId} {kids : NodeId → List NodeId} {parent : NodeId} {name : Str}
  {type : NodeType} {uid gid : Nat}

@[simp] theorem insertNode_live :
    (insertNode s parent name type uid gid).live = insert s.nextId s.live := rfl
@[simp] theorem insertNode_nextId :
    (insertNode s parent name type uid gid).nextId = s.nextId + 1 := rfl
@[simp] theorem insertNode_totalNodes :
    (insertNode s parent name type uid gid).totalNodes = s.totalNodes + 1 := rfl

theorem insertNode_node_new (hp : parent ≠ s.nextId) :
    (insertNode s parent name type uid gid).node s.nextId =
      { newNode name type uid gid with
        parent := some parent, next := (s.node parent).children } := by
  simp [insertNode, linkChild, modify_node, hp, Ne.symm hp]

/-- Old nodes keep everything but the parent's list head and counter. -/
theorem insertNode_node_old {q : NodeId} (hq : q ≠ s.nextId) :
    (insertNode s parent name type uid gid).node q =
      { s.node q with
        children := if q = parent then some s.nextId else (s.node q).children
        childCount := (s.node q).childCount + if q = parent then 1 else 0 } := by
  by_cases hqp : q = parent
  · subst hqp
    simp [insertNode, linkChild, modify_node, hq]
  · simp [insertNode, linkChild, modify_node, hq, hqp]

/-- The child lists after an insertion. -/
def kidsInsert (kids : NodeId → List NodeId) (parent id : NodeId) (q : NodeId) : List NodeId :=
  if q = id then [] else if q = parent then id :: kids parent else kids q

theorem Tree.insertNode (ht : Tree s r kids) (hp : parent ∈ s.live)
    (hdir : (s.node parent).type = .dir) (hname : ValidName name)
    (hfree : ∀ c ∈ kids parent, (s.node c).name ≠ name) (hroom : s.totalNodes < maxFiles) :
    Tree (insertNode s parent name type uid gid) r (kidsInsert kids parent s.nextId) := by
  have hnew : s.nextId ∉ s.live := fun h => absurd (ht.fresh _ h) (lt_irrefl _)
  have hne : ∀ q ∈ s.live, q ≠ s.nextId := fun q hq => by rintro rfl; exact hnew hq
  have hpne := hne parent hp
  have hold : ∀ q ∈ s.live, (Ramfs.insertNode s parent name type uid gid).node q =
      { s.node q with
        children := if q = parent then some s.nextId else (s.node q).children
        childCount := (s.node q).childCount + if q = parent then 1 else 0 } :=
    fun q hq => insertNode_node_old (hne q hq)
  have hnewNode : (Ramfs.insertNode s parent name type uid gid).node s.nextId =
      { newNode name type uid gid with
        parent := some parent, next := (s.node parent).children } := insertNode_node_new hpne
  have hnewName : ((Ramfs.insertNode s parent name type uid gid).node s.nextId).name = name := by
    rw [hnewNode]
    exact List.take_of_length_le hname.short
  have hparent : ∀ c p, (c ∈ insert s.nextId s.live ∧
      ParentOf (Ramfs.insertNode s parent name type uid gid) c p) ↔
        (c = s.nextId ∧ p = parent) ∨ (c ∈ s.live ∧ ParentOf s c p) := by
    intro c p
    by_cases hc : c = s.nextId
    · subst hc
      simp [ParentOf, hnewNode, hnew, eq_comm]
    · by_cases hlive : c ∈ s.live
      · simp [ParentOf, hold c hlive, hc, hlive]
      · simp [hc, hlive]
  have hkids : ∀ q ∈ s.live, ∀ c, c ∈ kidsInsert kids parent s.nextId q ↔
      (c = s.nextId ∧ q = parent) ∨ c ∈ kids q := by
    intro q hq c
    by_cases hqp : q = parent
    · subst hqp
      simp [kidsInsert, hpne]
    · simp [kidsInsert, hne q hq, hqp]
  refine
    { root_eq := ht.root_eq
      root_live := mem_insert_of_mem ht.root_live
      root_dir := by rw [hold r ht.root_live]; exact ht.root_dir
      root_parent := by rw [hold r ht.root_live]; exact ht.root_parent
      orphan := ?_, parent_live := ?_, parent_lt := ?_, chain := ?_, mem_kids := ?_, leaf := ?_
      names := ?_, distinct := ?_, count := ?_, total := ?_, bound := ?_, fresh := ?_ }
  · intro c hmem hpar
    rcases mem_insert.mp hmem with rfl | hc
    · rw [hnewNode] at hpar
      exact absurd hpar (by simp)
    · rw [hold c hc] at hpar
      exact ht.orphan c hc hpar
  · intro c hmem p hpar
    rcases (hparent c p).mp ⟨hmem, hpar⟩ with ⟨rfl, rfl⟩ | ⟨hc, hpar⟩
    · exact mem_insert_of_mem hp
    · exact mem_insert_of_mem (ht.parent_live c hc p hpar)
  · intro c hmem p hpar
    rcases (hparent c p).mp ⟨hmem, hpar⟩ with ⟨rfl, rfl⟩ | ⟨hc, hpar⟩
    · exact ht.fresh p hp
    · exact ht.parent_lt c hc p hpar
  · -- the new node has no children; its parent's chain grows in front
    intro q hmem
    have hframe : ∀ q ∈ s.live,
        Chain (fun x => ((Ramfs.insertNode s parent name type uid gid).node x).next)
          (s.node q).children (kids q) := by
      intro q hq
      refine (ht.chain q hq).congr fun x hx => ?_
      rw [hold x (ht.kid_live hq hx)]
    rcases mem_insert.mp hmem with rfl | hq
    · rw [hnewNode]
      simp [kidsInsert, newNode]
    · rw [hold q hq, kidsInsert, if_neg (hne q hq)]
      by_cases hqp : q = parent
      · subst hqp
        simp only [if_true]
        exact (hframe q hq).cons (by rw [hnewNode])
      · simpa [hqp] using hframe q hq
  · intro q hmem c
    rw [insertNode_live, hparent]
    rcases mem_insert.mp hmem with rfl | hq
    · -- nothing points at the new node yet
      have hnone : ¬(c ∈ s.live ∧ ParentOf s c s.nextId) :=
        fun hc => hnew (ht.parent_live c hc.1 _ hc.2)
      simp [kidsInsert, hpne.symm, hnone]
    · rw [hkids q hq, ht.mem_kids q hq]
  · intro q hmem htype
    rcases mem_insert.mp hmem with rfl | hq
    · simp [kidsInsert]
    · rw [hold q hq] at htype
      have hqp : q ≠ parent := by rintro rfl; exact htype hdir
      rw [kidsInsert, if_neg (hne q hq), if_neg hqp]
      exact ht.leaf q hq htype
  · intro c hmem hcr
    rcases mem_insert.mp hmem with rfl | hc
    · rwa [hnewName]
    · rw [hold c hc]
      exact ht.names c hc hcr
  · intro q hmem a ha b hb hab
    rcases mem_insert.mp hmem with rfl | hq
    · simp [kidsInsert] at ha
    · rcases (hkids q hq a).mp ha with ⟨rfl, rfl⟩ | ha <;>
        rcases (hkids q hq b).mp hb with ⟨rfl, hqp⟩ | hb
      · rfl
      · rw [hnewName, hold b (ht.kid_live hq hb)] at hab
        exact absurd hab.symm (hfree b hb)
      · rw [hnewName, hold a (ht.kid_live hq ha)] at hab
        exact absurd hab (hfree a (hqp ▸ ha))
      · rw [hold a (ht.kid_live hq ha), hold b (ht.kid_live hq hb)] at hab
        exact ht.distinct q hq a ha b hb hab
  · intro q hmem
    rcases mem_insert.mp hmem with rfl | hq
    · rw [hnewNode]
      simp [newNode, kidsInsert]
    · rw [hold q hq, kidsInsert, if_neg (hne q hq)]
      by_cases hqp : q = parent
      · subst hqp
        simp [ht.count q hq]
      · simp [hqp, ht.count q hq]
  · rw [insertNode_totalNodes, insertNode_live, card_insert_of_notMem hnew, ht.total]
  · rw [insertNode_live, card_insert_of_notMem hnew, ← ht.total]
    exact hroom
  · intro q hmem
    rcases mem_insert.mp hmem with rfl | hq
    · simp
    · exact Nat.lt_succ_of_lt (ht.fresh q hq)

end Insert

/-! ## Removing a node -/

variable {node : NodeId}

/-- The predecessor search finds the sibling just before `node`. -/
theorem findPrev_chain {h : Option NodeId} {l : List NodeId}
    {fuel : Nat} (hl : Chain (fun q => (s.node q).next) h l) (hmem : node ∈ l.tail)
    (hfuel : l.length ≤ fuel + 1) :
    ∃ l₁ q l₂, l = l₁ ++ q :: node :: l₂ ∧ findPrev s node fuel h = some (some q) := by
  induction l generalizing h fuel with
  | nil => exact absurd hmem List.not_mem_nil
  | cons a l ih =>
    obtain ⟨rfl, htl⟩ := hl
    change Chain _ (s.node a).next l at htl
    by_cases hnext : (s.node a).next = some node
    · rw [hnext] at htl
      cases l with
      | nil => exact absurd hmem List.not_mem_nil
      | cons b l =>
        obtain rfl : node = b := Option.some.inj htl.1
        refine ⟨[], a, l, rfl, ?_⟩
        cases fuel <;> simp [findPrev, hnext]
    · have htail : node ∈ l.tail := by
        cases l with
        | nil => exact hmem
        | cons b l =>
          rcases List.mem_cons.mp hmem with rfl | hmem
          · exact absurd htl.1 hnext
          · exact hmem
      cases fuel with
      | zero =>
        cases l with
        | nil => exact absurd hmem List.not_mem_nil
        | cons b l => simp at hfuel
      | succ fuel =>
        obtain ⟨l₁, q, l₂, hsplit, hfind⟩ := ih htl htail (by simpa using hfuel)
        exact ⟨a :: l₁, q, l₂, by rw [hsplit]; rfl, by simp [findPrev, hnext, hfind]⟩

/-- The state after the list surgery of a removal: only list links have moved,
and the parent's chain skips the node. -/
structure Unlinked (s s' : State) (parent node : NodeId) (kids : List NodeId) : Prop where
  frame : s' = { s with node := s'.node }
  fields : ∀ q, s'.node q =
    { s.node q with children := (s'.node q).children, next := (s'.node q).next }
  children : ∀ q, q ≠ parent → (s'.node q).children = (s.node q).children
  next : ∀ q, q ∉ kids → (s'.node q).next = (s.node q).next
  chain : Chain (fun q => (s'.node q).next) (s'.node parent).children (kids.erase node)

variable {parent : NodeId}

theorem modify_children_unlinked {kids : List NodeId} {link : Option NodeId}
    (hchain : Chain (fun q => (s.node q).next) link (kids.erase node)) :
    Unlinked s (s.modify parent fun n => { n with children := link }) parent node kids where
  frame := rfl
  fields q := by rw [modify_node]; split <;> simp_all
  children q hq := by rw [modify_node_ne _ _ _ _ hq]
  next q _ := by rw [modify_node]; split <;> simp_all
  chain := by
    rw [modify_node_self]
    refine hchain.congr fun x _ => ?_
    rw [modify_node]
    split <;> simp_all

theorem unlinkChild_spec (ht : Tree s r kids) (hp : parent ∈ s.live) (hn : node ∈ kids parent) :
    ∃ s', unlinkChild s parent node = some s' ∧ Unlinked s s' parent node (kids parent) := by
  have hchain := ht.chain parent hp
  have hnd := ht.kids_nodup hp
  unfold unlinkChild
  by_cases hhead : (s.node parent).children = some node
  · -- the node heads the list
    rw [if_pos hhead]
    refine ⟨_, rfl, modify_children_unlinked ?_⟩
    cases hk : kids parent with
    | nil => simp [hk] at hn
    | cons a l =>
      rw [hk] at hchain
      obtain rfl : a = node := Option.some.inj (hchain.1.symm.trans hhead)
      simpa using hchain.2
  · -- its predecessor is made to skip it
    rw [if_neg hhead]
    have htail : node ∈ (kids parent).tail := by
      cases hk : kids parent with
      | nil => simp [hk] at hn
      | cons a l =>
        rw [hk] at hchain hn
        rcases List.mem_cons.mp hn with rfl | hn
        · exact absurd hchain.1 hhead
        · exact hn
    have hlen : (kids parent).length ≤ maxFiles + 1 := by
      have := ht.kids_length_lt hp
      omega
    obtain ⟨l₁, q, l₂, hsplit, hfind⟩ := findPrev_chain hchain htail hlen
    rw [hfind]
    refine ⟨_, rfl, ?_⟩
    have herase : (kids parent).erase node = l₁ ++ q :: l₂ := by
      rw [hsplit] at hnd ⊢
      simp only [List.nodup_append, List.nodup_cons, List.mem_cons] at hnd
      have h₁ : node ∉ l₁ := fun h => hnd.2.2 node h node (by simp) rfl
      have h₂ : q ≠ node := fun h => hnd.2.1.1 (.inl h)
      rw [List.erase_append_right _ h₁, List.erase_cons_tail (by simpa using h₂)]
      simp
    refine
      { frame := rfl
        fields := fun x => by rw [modify_node]; split <;> simp_all
        children := fun x _ => by rw [modify_node]; split <;> simp_all
        next := fun x hx => ?_
        chain := ?_ }
    · rw [modify_node_ne]
      rintro rfl
      exact hx (by rw [hsplit]; simp)
    · have hpc : ((s.modify q fun n => { n with next := (s.node node).next }).node parent).children =
          (s.node parent).children := by
        rw [modify_node]
        split <;> simp_all
      rw [herase, hpc]
      rw [hsplit] at hchain
      refine hchain.remove_mid (by simp) fun x _ hxq => ?_
      rw [modify_node_ne _ _ _ _ hxq]

/-- The state after a removal, as a whole. -/
structure Removed (s s' : State) (parent node : NodeId) (kids : List NodeId) : Prop where
  root : s'.root = s.root
  live : s'.live = s.live.erase node
  nextId : s'.nextId = s.nextId
  totalNodes : s'.totalNodes = s.totalNodes - 1
  fds : s'.fds = s.fds
  handles : s'.handles = s.handles
  busyHook : s'.busyHook = s.busyHook
  fields : ∀ q, q ≠ node → s'.node q =
    { s.node q with
      children := (s'.node q).children
      next := (s'.node q).next
      childCount := if q = parent then (s.node q).childCount - 1 else (s.node q).childCount }
  children : ∀ q, q ≠ parent → (s'.node q).children = (s.node q).children
  next : ∀ q, q ∉ kids → (s'.node q).next = (s.node q).next
  chain : Chain (fun q => (s'.node q).next) (s'.node parent).children (kids.erase node)

theorem removeNode_spec (ht : Tree s r kids) (hp : parent ∈ s.live) (hn : node ∈ kids parent) :
    ∃ s', removeNode s parent node = some s' ∧ Removed s s' parent node (kids parent) := by
  obtain ⟨s₁, hunlink, hu⟩ := unlinkChild_spec ht hp hn
  have hlinks : ∀ q, ((freeNode (s₁.modify parent fun n =>
        { n with childCount := n.childCount - 1 }) node).node q).next = (s₁.node q).next ∧
      ((freeNode (s₁.modify parent fun n =>
        { n with childCount := n.childCount - 1 }) node).node q).children =
          (s₁.node q).children := by
    intro q
    simp only [freeNode, modify_node]
    constructor <;> split_ifs <;> simp_all
  refine ⟨_, by rw [removeNode, hunlink], ?_⟩
  refine
    { root := by rw [hu.frame]; rfl
      live := by rw [hu.frame]; rfl
      nextId := by rw [hu.frame]; rfl
      totalNodes := by rw [hu.frame]; rfl
      fds := by rw [hu.frame]; rfl
      handles := by rw [hu.frame]; rfl
      busyHook := by rw [hu.frame]; rfl
      fields := fun q hq => ?_
      children := fun q hq => by rw [(hlinks q).2, hu.children q hq]
      next := fun q hq => by rw [(hlinks q).1, hu.next q hq]
      chain := ?_ }
  · have hfields := hu.fields q
    simp only [freeNode, modify_node, hq, if_false]
    by_cases hqp : q = parent
    · subst hqp
      simp only [if_true]
      rw [hfields]
    · simp only [hqp, if_false]
      exact hfields
  · rw [(hlinks parent).2]
    exact hu.chain.congr fun x _ => (hlinks x).1

/-- The child lists after a removal. -/
def kidsErase (kids : NodeId → List NodeId) (parent node : NodeId) (q : NodeId) : List NodeId :=
  if q = parent then (kids parent).erase node else kids q

theorem Tree.kids_disjoint {p q c : NodeId}
    (ht : Tree s r kids) (hp : p ∈ s.live) (hq : q ∈ s.live) (hpc : c ∈ kids p) (hqc : c ∈ kids q) :
    p = q := by
  have h : some p = some q := (ht.kid_parent hp hpc).symm.trans (ht.kid_parent hq hqc)
  exact Option.some.inj h

theorem Tree.removed {s' : State}
    (ht : Tree s r kids) (hp : parent ∈ s.live) (hn : node ∈ kids parent)
    (hleaf : kids node = []) (h : Removed s s' parent node (kids parent)) :
    Tree s' r (kidsErase kids parent node) := by
  have hnlive := ht.kid_live hp hn
  have hnr : node ≠ r := ht.ne_root_of_parent (ht.kid_parent hp hn)
  have hmem : ∀ q, q ∈ s'.live ↔ q ≠ node ∧ q ∈ s.live := by
    intro q
    rw [h.live, mem_erase]
  have hparent : ∀ q, q ≠ node → (s'.node q).parent = (s.node q).parent :=
    fun q hq => by rw [h.fields q hq]
  have hname : ∀ q, q ≠ node → (s'.node q).name = (s.node q).name :=
    fun q hq => by rw [h.fields q hq]
  have htype : ∀ q, q ≠ node → (s'.node q).type = (s.node q).type :=
    fun q hq => by rw [h.fields q hq]
  -- the removed node is nobody's child any more
  have hkids : ∀ q ∈ s.live, ∀ c, c ∈ kidsErase kids parent node q ↔ c ≠ node ∧ c ∈ kids q := by
    intro q hq c
    unfold kidsErase
    split
    · rename_i hqp
      subst hqp
      exact (ht.kids_nodup hq).mem_erase_iff
    · rename_i hqp
      refine ⟨fun hc => ⟨?_, hc⟩, And.right⟩
      rintro rfl
      exact hqp (ht.kids_disjoint hq hp hc hn)
  refine
    { root_eq := h.root.trans ht.root_eq
      root_live := (hmem r).mpr ⟨hnr.symm, ht.root_live⟩
      root_dir := (htype r hnr.symm).trans ht.root_dir
      root_parent := (hparent r hnr.symm).trans ht.root_parent
      orphan := ?_, parent_live := ?_, parent_lt := ?_, chain := ?_, mem_kids := ?_, leaf := ?_
      names := ?_, distinct := ?_, count := ?_, total := ?_, bound := ?_, fresh := ?_ }
  · intro c hc hpar
    obtain ⟨hcn, hc⟩ := (hmem c).mp hc
    exact ht.orphan c hc ((hparent c hcn).symm.trans hpar)
  · intro c hc p hpar
    obtain ⟨hcn, hc⟩ := (hmem c).mp hc
    rw [ParentOf, hparent c hcn] at hpar
    have hpl := ht.parent_live c hc p hpar
    refine (hmem p).mpr ⟨?_, hpl⟩
    rintro rfl
    have := (ht.mem_kids p hpl c).mpr ⟨hc, hpar⟩
    rw [hleaf] at this
    exact absurd this List.not_mem_nil
  · intro c hc p hpar
    obtain ⟨hcn, hc⟩ := (hmem c).mp hc
    rw [ParentOf, hparent c hcn] at hpar
    exact ht.parent_lt c hc p hpar
  · intro q hq
    obtain ⟨hqn, hq⟩ := (hmem q).mp hq
    by_cases hqp : q = parent
    · subst hqp
      rw [kidsErase, if_pos rfl]
      exact h.chain
    · rw [kidsErase, if_neg hqp, h.children q hqp]
      refine (ht.chain q hq).congr fun x hx => h.next x fun hxp => ?_
      exact hqp (ht.kids_disjoint hq hp hx hxp)
  · intro q hq c
    obtain ⟨-, hq⟩ := (hmem q).mp hq
    rw [hkids q hq c, hmem c, ht.mem_kids q hq c, and_assoc]
    refine and_congr_right fun hcn => ?_
    rw [ParentOf, ParentOf, hparent c hcn]
  · intro q hq hty
    obtain ⟨hqn, hq⟩ := (hmem q).mp hq
    have hnil := ht.leaf q hq ((htype q hqn) ▸ hty)
    refine List.eq_nil_iff_forall_not_mem.mpr fun c hc => ?_
    simp [hkids q hq, hnil] at hc
  · intro c hc hcr
    obtain ⟨hcn, hc⟩ := (hmem c).mp hc
    rw [hname c hcn]
    exact ht.names c hc hcr
  · intro q hq a ha b hb hab
    obtain ⟨-, hq⟩ := (hmem q).mp hq
    obtain ⟨han, ha⟩ := (hkids q hq a).mp ha
    obtain ⟨hbn, hb⟩ := (hkids q hq b).mp hb
    rw [hname a han, hname b hbn] at hab
    exact ht.distinct q hq a ha b hb hab
  · intro q hq
    obtain ⟨hqn, hq⟩ := (hmem q).mp hq
    rw [h.fields q hqn]
    by_cases hqp : q = parent
    · subst hqp
      simp [kidsErase, ht.count q hq, List.length_erase_of_mem hn]
    · simp [kidsErase, hqp, ht.count q hq]
  · rw [h.totalNodes, h.live, card_erase_of_mem hnlive, ht.total]
  · rw [h.live]
    exact (card_le_card (erase_subset _ _)).trans ht.bound
  · intro q hq
    rw [h.nextId]
    exact ht.fresh q ((hmem q).mp hq).2

/-! ## Renaming a node -/

theorem Tree.rename
    {name : Str} (ht : Tree s r kids) (hp : parent ∈ s.live) (hn : node ∈ kids parent)
    (hname : ValidName name) (hfree : ∀ c ∈ kids parent, (s.node c).name ≠ name) :
    Tree (s.modify node fun n => { n with name := name }) r kids := by
  -- every field but the names stays as it is
  have hstate : (s.modify node fun n => { n with name := name }) = { s with
      node := fun q => { s.node q with name := if q = node then name else (s.node q).name } } := by
    refine congrArg (fun f => { s with node := f }) (funext fun q => ?_)
    rw [Function.update_apply]
    split <;> simp_all
  rw [hstate]
  refine { ht with names := ?_, distinct := ?_ }
  · intro c hc hcr
    by_cases hcn : c = node
    · simpa [hcn] using hname
    · simpa [hcn] using ht.names c hc hcr
  · -- the new name is fresh in the one directory where a clash could arise
    intro q hq a ha b hb hab
    have hclash : ∀ c, c ∈ kids q → node ∈ kids q → (s.node c).name ≠ name := by
      intro c hc hnq
      rw [ht.kids_disjoint hq hp hnq hn] at hc
      exact hfree c hc
    by_cases han : a = node <;> by_cases hbn : b = node
    · rw [han, hbn]
    · simp only [han, hbn, if_true, if_false] at hab
      exact absurd hab.symm (hclash b hb (han ▸ ha))
    · simp only [han, hbn, if_true, if_false] at hab
      exact absurd hab (hclash a ha (hbn ▸ hb))
    · simp only [han, hbn, if_false] at hab
      exact ht.distinct q hq a ha b hb hab

end TinyOS.Ramfs
