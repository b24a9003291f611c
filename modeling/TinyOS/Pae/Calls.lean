import TinyOS.Pae.Ownership

/-!
# What the calls do to the owners of frames

One inversion lemma for each call that can take a table (`allocInitialPt_allocated`,
`paeMapPageInto_mapped`), and that every call keeps the invariant. A table that comes from the memory
manager is mapped for the kernel before it is used; the kernel has a table for every page of memory,
so this inner call never takes a table itself.
-/

namespace TinyOS.Pae

open Lib List

variable {s s' : State} {f g t : Frame} {p q : Nat} {loose : List Frame} {space : Space} {v : Page}
  {e : Pte}

/-! ## Writing entries -/

theorem SameShape.refl (s : State) : SameShape s s :=
  ⟨rfl, rfl, rfl, rfl, rfl, fun _ => .inr rfl, fun _ h => h⟩

theorem SameShape.trans {s₁ s₂ s₃ : State} (h : SameShape s₁ s₂) (h' : SameShape s₂ s₃) :
    SameShape s₁ s₃ where
  kernelPd := h'.kernelPd.trans h.kernelPd
  used := h'.used.trans h.used
  taken := h'.taken.trans h.taken
  frames := h'.frames.trans h.frames
  userPdpts := h'.userPdpts.trans h.userPdpts
  mem {_ f} ho := by
    rcases h.mem ho with hpt | heq
    · exact .inl hpt
    · rcases h'.mem (h.owns_iff.mpr ho) with ⟨e, he⟩ | heq'
      · exact .inl ⟨e, heq ▸ he⟩
      · exact .inr (heq'.trans heq)
  isPt ho hpt := h'.isPt (h.owns_iff.mpr ho) (h.isPt ho hpt)

theorem sameShape_setPte (ht : s.IsPt t) (k : Fin paePtEntries) (e : Pte) :
    SameShape s (s.setPte t k e) :=
  sameShape_setPt ht _

theorem sameShape_writePte (ht : s.IsPt t) : SameShape s (writePte s t v e) := by
  unfold writePte
  split
  · exact .refl s
  · exact sameShape_setPte ht _ _

theorem isPt_setPt (entries : Fin paePtEntries → Pte) : (s.setTable f (.pt entries)).IsPt f :=
  ⟨entries, mem_setTable_self _⟩

/-! ## Allocation -/

theorem pmmAlloc_cases (s : State) :
    (∃ n rest, s.answers = some n :: rest ∧ 0 < n ∧ n < s.frames ∧ s.taken n = false ∧
      pmmAlloc s = (some n, { s with answers := rest }.mark true (.phys n))) ∨
    ∃ rest, pmmAlloc s = (none, { s with answers := rest }) := by
  unfold pmmAlloc
  split
  · rename_i n rest hanswers
    split
    · rename_i hok
      exact .inl ⟨n, rest, hanswers, hok.1, hok.2.1, hok.2.2, rfl⟩
    · exact .inr ⟨rest, rfl⟩
  · rename_i rest _
    exact .inr ⟨rest, rfl⟩
  · exact .inr ⟨s.answers, rfl⟩

theorem mapPageAt_kernel (h : s.kernelPd v.pdpt v.pd = some t) (depth : Nat) :
    mapPageAt depth s .kernel v e = writePte s t v e := by
  have hpde : s.pde .kernel v.pdpt v.pd = some t := h
  cases depth <;> simp [mapPageAt, mapPageWith, hpde, sharedWithKernel]

/-- The inner call for a frame of the memory manager. -/
def mapFrameAt (depth : Nat) (s : State) (n : Nat) : State :=
  mapPageAt depth s .kernel (.ofNumber n) (identityPte n)

/-- What `alloc_initial_pt` can do. -/
inductive Allocated (s : State) : Option Frame × State → Prop
  | failed (rest : List (Option Nat)) (hpool : freeTable s = none) (hpmm : (pmmAlloc s).1 = none) :
      Allocated s (none, { s with answers := rest })
  | pool (i : Fin paeInitialTables) (hfree : freeTable s = some i) (hused : s.used i = false) :
      Allocated s (some (.pool i),
        (s.mark true (.pool i)).setTable (.pool i) (.pt fun _ => .zero))
  | phys (n : Nat) (rest : List (Option Nat)) (t : Frame) (hpool : freeTable s = none)
      (hanswers : s.answers = some n :: rest) (hpos : 0 < n) (hlt : n < s.frames)
      (htaken : s.taken n = false)
      (ht : s.kernelPd (Page.ofNumber n).pdpt (Page.ofNumber n).pd = some t) :
      Allocated s (some (.phys n),
        (writePte ({ s with answers := rest }.mark true (.phys n)) t (.ofNumber n)
          (identityPte n)).setTable (.phys n) (.pt fun _ => .zero))

theorem Inv.allocInitialPt_allocated (h : Inv s loose) (depth : Nat) :
    Allocated s (allocInitialPt (some (mapFrameAt depth)) s) := by
  unfold allocInitialPt
  split
  · rename_i i hi
    have hused : s.used i = false := by simpa using find?_some hi
    exact .pool i hi hused
  rename_i hpool
  rcases pmmAlloc_cases s with ⟨n, rest, hanswers, hpos, hlt, htaken, heq⟩ | ⟨rest, heq⟩
  · obtain ⟨t, ht⟩ := h.mapped n hlt
    have ht' : ({ s with answers := rest }.mark true (.phys n)).kernelPd
        (Page.ofNumber n).pdpt (Page.ofNumber n).pd = some t := ht
    rw [heq]
    simp only [mapFrameAt, mapPageAt_kernel ht' depth]
    exact .phys n rest t hpool hanswers hpos hlt htaken ht
  · have hpmm : (pmmAlloc s).1 = none := by rw [heq]
    rw [heq]
    exact .failed rest hpool hpmm

/-- A table that was allocated was free, and is loose now. Apart from that only entries changed. -/
theorem Allocated.spec (hinv : Inv s loose) (h : Allocated s (some f, s')) :
    ¬ s.InUse f ∧ SameShape (s.mark true f) s' ∧ Inv s' (f :: loose) ∧ s'.IsPt f := by
  cases h with
  | pool i _ hused =>
    have hfree : ¬ s.InUse (.pool i) := by simp [State.InUse, hused]
    have htake := hinv.take hfree
    have hshape := htake.sameShape_setLoose mem_cons_self (.pt fun _ => .zero)
    exact ⟨hfree, hshape, htake.sameShape hshape, isPt_setPt _⟩
  | phys n rest t hpool hanswers hpos hlt htaken ht =>
    have hfree : ¬ s.InUse (.phys n) := by simp [State.InUse, htaken]
    have htake := hinv.take hfree
    have hanswer : SameShape (s.mark true (.phys n)) ({ s with answers := rest }.mark true (.phys n)) :=
      ⟨rfl, rfl, rfl, rfl, rfl, fun _ => .inr rfl, fun _ hpt => hpt⟩
    have hpt : s.IsPt t := hinv.pt (show s.exists? .kernel = true from rfl) ht
    have hwrite := hanswer.trans
      (sameShape_writePte (v := .ofNumber n) (e := identityPte n)
        (show ({ s with answers := rest }.mark true (.phys n)).IsPt t from hpt))
    have hshape := hwrite.trans ((htake.sameShape hwrite).sameShape_setLoose mem_cons_self
      (.pt fun _ => .zero))
    exact ⟨hfree, hshape, htake.sameShape hshape, isPt_setPt _⟩

theorem Allocated.pde (hinv : Inv s loose) (h : Allocated s (some f, s'))
    (hspace : s.exists? space = true) : s'.pde space = s.pde space := by
  have hshape := (h.spec hinv).2.1
  rw [hshape.pde (by rw [exists_mark]; exact hspace), pde_mark]

theorem Allocated.exists_eq (hinv : Inv s loose) (h : Allocated s (some f, s')) :
    s'.exists? = s.exists? := by
  rw [(h.spec hinv).2.1.exists_eq, exists_mark]

/-! ## Mapping -/

/-- What `pae_map_page_into` can do. -/
inductive Mapped (s : State) (space : Space) (v : Page) (e : Pte) : State → Prop
  | failed (rest : List (Option Nat)) (hpool : freeTable s = none)
      (hpmm : (pmmAlloc s).1 = none) : Mapped s space v e { s with answers := rest }
  | written (t : Frame) (ht : s.pde space v.pdpt v.pd = some t)
      (hown : space = .kernel ∨ s.kernelPd v.pdpt v.pd ≠ some t) :
      Mapped s space v e (writePte s t v e)
  | copied (t priv : Frame) (s₁ : State) (ht : s.pde space v.pdpt v.pd = some t)
      (hspace : space ≠ .kernel) (hshared : s.kernelPd v.pdpt v.pd = some t)
      (halloc : Allocated s (some priv, s₁)) :
      Mapped s space v e
        (writePte ((s₁.setTable priv (.pt (s₁.pt t))).setPde space v.pdpt v.pd priv) priv v e)
  | created (priv : Frame) (s₁ : State) (ht : s.pde space v.pdpt v.pd = none)
      (halloc : Allocated s (some priv, s₁)) :
      Mapped s space v e (writePte (s₁.setPde space v.pdpt v.pd priv) priv v e)

theorem Inv.paeMapPageInto_mapped (h : Inv s loose) :
    Mapped s space v e (paeMapPageInto s space v e) := by
  have heq : paeMapPageInto s space v e = mapPageWith (some (mapFrameAt 1)) s space v e := rfl
  have halloc := h.allocInitialPt_allocated 1
  rw [heq]
  unfold mapPageWith
  split
  · rename_i t ht
    split
    · rename_i hshared
      simp only [sharedWithKernel, Bool.and_eq_true, decide_eq_true_eq] at hshared
      generalize allocInitialPt (some (mapFrameAt 1)) s = r at halloc
      rcases r with ⟨_ | priv, s₁⟩
      · cases halloc with
        | failed rest hpool hpmm => exact .failed rest hpool hpmm
      · exact .copied t priv s₁ ht hshared.1 hshared.2 halloc
    · rename_i hshared
      apply Mapped.written t ht
      simp only [sharedWithKernel, Bool.and_eq_true, decide_eq_true_eq] at hshared
      by_cases hspace : space = .kernel
      · exact .inl hspace
      · exact .inr fun hk => hshared ⟨hspace, hk⟩
  · rename_i ht
    generalize allocInitialPt (some (mapFrameAt 1)) s = r at halloc
    rcases r with ⟨_ | priv, s₁⟩
    · cases halloc with
      | failed rest hpool hpmm => exact .failed rest hpool hpmm
    · exact .created priv s₁ ht halloc

theorem Inv.enter {s₁ : State} (h : Inv s₁ (g :: loose)) (hg : s₁.IsPt g)
    (hspace : s₁.exists? space = true) (hvacant : Vacant s₁ space v.pdpt v.pd) :
    Inv (writePte (s₁.setPde space v.pdpt v.pd g) g v e) loose := by
  apply (h.link hspace hg hvacant).sameShape
  exact sameShape_writePte (h.isPt_setPde hspace hg)

theorem Mapped.inv (h : Inv s loose) (hspace : s.exists? space = true)
    (hmap : Mapped s space v e s') : Inv s' loose := by
  cases hmap with
  | failed rest _ _ => exact h.sameShape (sameShape_answers rest)
  | written t ht hown => exact h.sameShape (sameShape_writePte (h.pt hspace ht))
  | copied t priv s₁ ht huser hshared halloc =>
    obtain ⟨-, hshape, hinv, hpt⟩ := halloc.spec h
    -- The copy is written while the table is still loose.
    have hcopy := hinv.sameShape_setLoose mem_cons_self (.pt (s₁.pt t))
    have hspace₁ : s₁.exists? space = true := by
      rw [halloc.exists_eq h]
      exact hspace
    apply (hinv.sameShape hcopy).enter (isPt_setPt _)
    · exact hspace₁
    · right
      refine ⟨huser, ?_⟩
      rw [hcopy.pde hspace₁, halloc.pde h hspace, ht, hcopy.kernelPd, hshape.kernelPd,
        kernelPd_mark]
      exact hshared.symm
  | created priv s₁ ht halloc =>
    obtain ⟨-, -, hinv, hpt⟩ := halloc.spec h
    apply hinv.enter hpt
    · rw [halloc.exists_eq h]
      exact hspace
    · left
      rw [halloc.pde h hspace]
      exact ht

/-! ## Unmapping, sealing, synchronising -/

theorem Inv.unmap (h : Inv s loose) (hspace : s.exists? space = true) :
    Inv (paeUnmapPageIn s space v) loose := by
  unfold paeUnmapPageIn
  split
  · exact h
  · rename_i t ht
    exact h.sameShape (sameShape_writePte (h.pt hspace ht))

theorem Inv.sealPage (h : Inv s loose) (hspace : s.exists? space = true) (v : Page) :
    SameShape s (sealPage s space v) := by
  unfold Pae.sealPage
  split
  · exact .refl s
  · rename_i t ht
    exact sameShape_setPte (h.pt hspace ht) _ _

/-- `pae_sync_identity_pte` writes identity entries in the private tables of address spaces. What every
such write keeps it keeps. -/
theorem sync_keeps {P : State → Prop} {phys : UInt32}
    (hwrite : ∀ s p t pte, P s → s.live p = true →
      s.pde (.user p) (Page.ofNumber (phys.toNat / 4096)).pdpt
        (Page.ofNumber (phys.toNat / 4096)).pd = some t →
      ¬(s.pt t (Page.ofNumber (phys.toNat / 4096)).pt).flags.user = true →
      P (s.setPte t (Page.ofNumber (phys.toNat / 4096)).pt pte)) (h : P s) :
    P (paeSyncIdentityPte s phys) := by
  simp only [paeSyncIdentityPte]
  split
  · exact h
  refine List.foldlRecOn _ _ h fun s₁ h₁ r _ => ?_
  split
  · exact h₁
  rename_i p hr
  fun_cases syncOne
  case case4 t ht _ hidentity =>
    exact hwrite s₁ p t _ h₁ (live_iff.mpr ⟨r, hr⟩) ht fun huser => hidentity (.inl huser)
  all_goals exact h₁

theorem Inv.foldl_sameShape {α : Type*} {f : State → α → State} {as : List α} (h : Inv s loose)
    (hturn : ∀ {s₁} a, SameShape s s₁ → Inv s₁ loose → SameShape s₁ (f s₁ a)) :
    SameShape s (as.foldl f s) := by
  refine foldlRecOn as f (.refl s) fun s₁ hshape a _ => ?_
  exact hshape.trans (hturn a hshape (h.sameShape hshape))

theorem Inv.sync (h : Inv s loose) (phys : UInt32) : SameShape s (paeSyncIdentityPte s phys) := by
  refine sync_keeps (P := SameShape s) (fun s₁ p t pte hshape hp ht _ => ?_) (.refl s)
  have hexists : s₁.exists? (.user p) = true := hp
  exact hshape.trans (sameShape_setPte ((h.sameShape hshape).pt hexists ht) _ _)

theorem seal_foldl (pages : List Page) (r : Int × State) :
    (pages.foldl (fun (r : Int × State) v =>
      let isNew := (r.2.pte space v).any fun e => !e.flags.sealed
      (if isNew then r.1 + 1 else r.1, sealPage r.2 space v)) r).2 =
    pages.foldl (fun s v => sealPage s space v) r.2 := by
  induction pages generalizing r with
  | nil => rfl
  | cons v pages ih => exact ih _

theorem Inv.sealMemory (h : Inv s loose) (hspace : s.exists? space = true) (start size : UInt32) :
    SameShape s (paeSealMemoryIn s space start size).2 := by
  unfold paeSealMemoryIn
  split
  · exact .refl s
  split
  · exact .refl s
  rw [seal_foldl]
  apply h.foldl_sameShape
  intro s₁ v hshape hinv
  apply hinv.sealPage
  rw [hshape.exists_eq]
  exact hspace

/-! ## Giving an address space up -/

theorem frameAt_congr (hmem : s'.mem = s.mem) (hkernel : s'.kernelPd = s.kernelPd) :
    frameAt s' = frameAt s := by
  have hpdFrame : s'.pdFrame = s.pdFrame := by
    funext q
    exact pdFrame_congr (congrFun hmem _)
  funext σ
  cases σ with
  | kernelPt i j => simp only [frameAt, hkernel]
  | pdpt q => rfl
  | pd q i => simp only [frameAt, hpdFrame]
  | pt q i j =>
    have hpde : s'.pde (.user q) i j = s.pde (.user q) i j := by
      rw [State.pde, State.pde, hpdFrame]
      exact congrFun (pd_congr (congrFun hmem _)) j
    simp only [frameAt, hpde, hkernel]

theorem freed_frame (fs : List Frame) : (fs.foldl paeFreeUserPt s).mem = s.mem ∧
    (fs.foldl paeFreeUserPt s).kernelPd = s.kernelPd ∧
    (fs.foldl paeFreeUserPt s).userPdpts = s.userPdpts := by
  refine foldlRecOn (motive := fun s' : State => s'.mem = s.mem ∧ s'.kernelPd = s.kernelPd ∧
    s'.userPdpts = s.userPdpts) fs _ ⟨rfl, rfl, rfl⟩ fun s₁ h f _ => ?_
  cases f <;> exact h

theorem returned_freed (fs : List Frame) :
    (fs.foldl paeFreeUserPt s).returned = fs.reverse ++ s.returned := by
  induction fs generalizing s with
  | nil => rfl
  | cons f fs ih =>
    rw [foldl_cons, ih, reverse_cons, append_assoc]
    cases f <;> rfl

theorem inUse_freed (fs : List Frame) :
    (fs.foldl paeFreeUserPt s).InUse g ↔ s.InUse g ∧ g ∉ fs := by
  induction fs generalizing s with
  | nil => simp
  | cons f fs ih =>
    have hmark : (paeFreeUserPt s f).InUse g ↔ (s.mark false f).InUse g := by
      rw [paeFreeUserPt_eq]
      cases g <;> rfl
    rw [foldl_cons, ih, hmark, mem_cons]
    by_cases hgf : g = f
    · subst hgf
      rw [inUse_mark_self]
      simp
    · rw [inUse_mark_ne hgf]
      tauto

theorem freeTables_eq (i : Fin paePdptEntries) :
    freeTables s p i = (((List.finRange paePdEntries).map (Slot.pt p i)).filterMap
      (frameAt s)).foldl paeFreeUserPt s := by
  have hbody : freeTables s p i = (List.finRange paePdEntries).foldl
      (fun s j => (frameAt s (.pt p i j)).elim s (paeFreeUserPt s)) s := by
    unfold freeTables
    congr 1
    funext s j
    simp only [frameAt]
    cases s.pde (.user p) i j with
    | none => rfl
    | some t =>
      by_cases hk : s.kernelPd i j = some t
      · simp [hk]
      · simp [hk]
  -- What is freed is read from the directories, which freeing leaves alone.
  suffices hloop : ∀ (js : List (Fin paePdEntries)) (s₁ : State), frameAt s₁ = frameAt s →
      js.foldl (fun s j => (frameAt s (.pt p i j)).elim s (paeFreeUserPt s)) s₁ =
      ((js.map (Slot.pt p i)).filterMap (frameAt s)).foldl paeFreeUserPt s₁ from
    hbody.trans (hloop _ s rfl)
  intro js
  induction js with
  | nil => exact fun s₁ _ => rfl
  | cons j js ih =>
    intro s₁ hs₁
    rw [foldl_cons, map_cons, hs₁]
    cases hat : frameAt s (.pt p i j) with
    | none =>
      rw [filterMap_cons_none hat]
      exact ih s₁ hs₁
    | some t =>
      rw [filterMap_cons_some hat, foldl_cons]
      refine ih _ ?_
      rw [← hs₁]
      obtain ⟨hmem, hkernel, -⟩ := freed_frame (s := s₁) [t]
      exact frameAt_congr hmem hkernel

theorem paeFreeUserPdpt_eq :
    paeFreeUserPdpt s p = (framesOf s p).foldl paeFreeUserPt (unregister s p) := by
  have hloop : ∀ (is : List (Fin paePdptEntries)) (s₁ : State), frameAt s₁ = frameAt s →
      is.foldl (fun s i => pmmFree (freeTables s p i) (s.pdFrame p i)) s₁ =
      ((is.flatMap fun i => (List.finRange paePdEntries).map (Slot.pt p i) ++ [.pd p i]).filterMap
        (frameAt s)).foldl paeFreeUserPt s₁ := by
    intro is
    induction is with
    | nil => exact fun s₁ _ => rfl
    | cons i is ih =>
      intro s₁ hs₁
      have hpd : frameAt s (.pd p i) = some (.phys (s₁.pdFrame p i)) := by
        rw [← hs₁]
        rfl
      rw [foldl_cons, flatMap_cons, filterMap_append, filterMap_append,
        filterMap_cons_some hpd, filterMap_nil, foldl_append, foldl_append,
        freeTables_eq, hs₁]
      generalize ((List.finRange paePdEntries).map (Slot.pt p i)).filterMap (frameAt s) = fs
      apply ih
      rw [← hs₁]
      obtain ⟨hmem, hkernel, -⟩ := freed_frame (s := s₁) fs
      exact frameAt_congr hmem hkernel
  rw [paeFreeUserPdpt, hloop _ (unregister s p) (frameAt_congr rfl rfl), framesOf, slotsOf,
    filterMap_append, foldl_append]
  rfl

theorem Inv.free (h : Inv s loose) (hp : s.live p = true) : Inv (paeFreeUserPdpt s p) loose := by
  rw [paeFreeUserPdpt_eq]
  apply Inv.giveAll
  exact h.unregister hp

end TinyOS.Pae
