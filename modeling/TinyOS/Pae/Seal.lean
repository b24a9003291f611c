import TinyOS.Pae.Lifetime

/-!
# Sealed pages

`pae_seal_memory_in` clears `READWRITE` and sets a bit that the processor ignores. Every other call
that writes an entry tests the bit, or leaves user entries alone, so a sealed entry keeps its frame and
its flags for as long as its address space exists; a table that is copied takes the sealed entries
along. A call that finds a page it cannot seal writes nothing.
-/

namespace TinyOS.Pae

open Lib List

variable {s s' : State} {f g t : Frame} {p q : Nat} {loose : List Frame} {space : Space} {v w : Page}
  {e e' : Pte}

/-! ## Reading entries -/

theorem pt_setPte (k k' : Fin paePtEntries) :
    (s.setPte t k e).pt g k' = if g = t ∧ k' = k then e else s.pt g k' := by
  by_cases hg : g = t
  · subst hg
    rw [State.setPte, pt_setTable_self]
    by_cases hk : k' = k
    · rw [hk, Function.update_self, if_pos ⟨rfl, rfl⟩]
    · rw [Function.update_of_ne hk, if_neg fun h => hk h.2]
  · rw [State.setPte, pt_setTable_ne hg, if_neg fun h => hg h.1]

theorem pt_mark (b : Bool) (f : Frame) : (s.mark b f).pt = s.pt := by
  cases f <;> rfl

theorem pt_setPde (h : Inv s loose) (hspace : s.exists? space = true) (hf : s.IsPt f)
    {i : Fin paePdptEntries} {j : Fin paePdEntries} : (s.setPde space i j t).pt f = s.pt f := by
  rcases h.mem_setPde hspace with heq | ⟨⟨d, hd⟩, -⟩
  · rw [State.pt, State.pt, heq]
  · exact absurd hf (not_isPt_of_pd hd)

theorem pte_eq_some : s.pte space v = some e ↔
    ∃ t, s.pde space v.pdpt v.pd = some t ∧ s.pt t v.pt = e := by
  simp [State.pte]

/-! ## Sealed entries -/

/-- An entry that ring 3 can read, cannot write, and that is marked as sealed. -/
structure Pte.Sealed (e : Pte) : Prop where
  present : e.flags.present = true
  user : e.flags.user = true
  sealed : e.flags.sealed = true
  readonly : e.flags.readwrite = false

theorem sealedPte_eq_iff : sealedPte e = e ↔ e.flags.sealed = true ∧ e.flags.readwrite = false := by
  constructor
  · intro h
    rw [← h]
    exact ⟨rfl, rfl⟩
  · rintro ⟨hsealed, hreadonly⟩
    rw [sealedPte, ← hsealed, ← hreadonly]

theorem sealed_sealedPte (hpresent : e.flags.present = true) (huser : e.flags.user = true) :
    (sealedPte e).Sealed :=
  ⟨hpresent, huser, rfl, rfl⟩

/-- The address space exists and has this sealed entry for the page. -/
structure Holds (s : State) (p : Nat) (v : Page) (e : Pte) : Prop where
  live : s.live p = true
  pte : s.pte (.user p) v = some e
  sealed : e.Sealed

namespace Holds

variable (h : Holds s p v e)

include h

theorem sameShape (hshape : SameShape s s')
    (hpt : ∀ t, s.pde (.user p) v.pdpt v.pd = some t → s.pt t v.pt = e → s'.pt t v.pt = e) :
    Holds s' p v e := by
  obtain ⟨t, ht, he⟩ := pte_eq_some.mp h.pte
  refine ⟨by rw [hshape.live]; exact h.live, ?_, h.sealed⟩
  apply pte_eq_some.mpr
  refine ⟨t, ?_, hpt t ht he⟩
  rw [hshape.pde (show s.exists? (.user p) = true from h.live)]
  exact ht

theorem setPte (ht : s.IsPt t) {k : Fin paePtEntries} (hkeep : s.pt t k = e → e' = e) :
    Holds (s.setPte t k e') p v e := by
  apply h.sameShape (sameShape_setPte ht k e')
  intro t' _ he
  rw [pt_setPte]
  split
  · rename_i hentry
    obtain ⟨rfl, rfl⟩ := hentry
    exact hkeep he
  · exact he

theorem writePte (ht : s.IsPt t) : Holds (writePte s t w e') p v e := by
  unfold Pae.writePte
  split
  · exact h
  rename_i hunsealed
  apply h.setPte ht
  -- The entry that is written is not sealed.
  rintro rfl
  exact absurd h.sealed.sealed hunsealed

theorem mark (b : Bool) (f : Frame) : Holds (s.mark b f) p v e := by
  refine ⟨?_, ?_, h.sealed⟩
  · cases f <;> exact h.live
  · rw [State.pte, pde_mark, pt_mark]
    exact h.pte

variable (hinv : Inv s loose)

include hinv

theorem setLoose (hf : f ∈ loose) (c : Content) : Holds (s.setTable f c) p v e := by
  apply h.sameShape (hinv.sameShape_setLoose hf c)
  intro t ht he
  rw [pt_setTable_ne, he]
  rintro rfl
  obtain ⟨σ, ho⟩ := pde_owned (show s.exists? (.user p) = true from h.live) ht
  exact hinv.looseFree hf ho

omit hinv in
theorem answers (rest : List (Option Nat)) : Holds { s with answers := rest } p v e :=
  { h with }

theorem allocated (halloc : Allocated s (some f, s')) : Holds s' p v e := by
  cases halloc with
  | pool i _ hused =>
    have hfree : ¬ s.InUse (.pool i) := by simp [State.InUse, hused]
    exact (h.mark true _).setLoose (hinv.take hfree) mem_cons_self _
  | phys n rest t hpool hanswers hpos hlt htaken ht =>
    have hfree : ¬ ({ s with answers := rest } : State).InUse (.phys n) := by
      simp [State.InUse, htaken]
    have hpt : s.IsPt t := hinv.pt (show s.exists? .kernel = true from rfl) ht
    have hpt' : ({ s with answers := rest }.mark true (.phys n)).IsPt t := hpt
    have htake := (hinv.sameShape (sameShape_answers rest)).take hfree
    apply setLoose (((h.answers rest).mark true _).writePte hpt')
      (htake.sameShape (sameShape_writePte hpt')) mem_cons_self

variable (hspace : s.exists? space = true)

include hspace

/-- A table is entered in a directory. Where it replaces one it has the same entry. -/
theorem setPde {i : Fin paePdptEntries} {j : Fin paePdEntries} (hg : s.IsPt g)
    (hcopy : space = .user p → i = v.pdpt → j = v.pd → s.pt g v.pt = e) :
    Holds (s.setPde space i j g) p v e := by
  obtain ⟨t, ht, he⟩ := pte_eq_some.mp h.pte
  have hlive : s.exists? (.user p) = true := h.live
  refine ⟨by rw [live_setPde]; exact h.live, ?_, h.sealed⟩
  apply pte_eq_some.mpr
  rw [hinv.pde_setPde hspace hlive]
  split
  · rename_i hplace
    obtain ⟨rfl, rfl, rfl⟩ := hplace
    refine ⟨g, rfl, ?_⟩
    rw [pt_setPde hinv hspace hg]
    exact hcopy rfl rfl rfl
  · refine ⟨t, ht, ?_⟩
    rw [pt_setPde hinv hspace (hinv.pt hlive ht)]
    exact he

theorem mapped (hmap : Mapped s space w e' s') : Holds s' p v e := by
  cases hmap with
  | failed rest _ _ => exact h.answers rest
  | written t ht hown => exact h.writePte (hinv.pt hspace ht)
  | copied t priv s₁ ht huser hshared halloc =>
    obtain ⟨-, hshape, hinv₁, hpt⟩ := halloc.spec hinv
    have hcopy := hinv₁.sameShape_setLoose mem_cons_self (.pt (s₁.pt t))
    have hspace₂ : (s₁.setTable priv (.pt (s₁.pt t))).exists? space = true := by
      rw [hcopy.exists_eq, halloc.exists_eq hinv]
      exact hspace
    have h₁ := h.allocated hinv halloc
    have hinv₂ := hinv₁.sameShape hcopy
    apply writePte _ (hinv₂.isPt_setPde hspace₂ (isPt_setPt _))
    apply (h₁.setLoose hinv₁ mem_cons_self _).setPde hinv₂ hspace₂ (isPt_setPt _)
    -- The copy was made of the table that had the sealed entry.
    rintro rfl hi hj
    rw [pt_setTable_self]
    obtain ⟨t₁, ht₁, he⟩ := pte_eq_some.mp h₁.pte
    rw [halloc.pde hinv hspace, ← hi, ← hj, ht] at ht₁
    rw [Option.some.inj ht₁]
    exact he
  | created priv s₁ ht halloc =>
    obtain ⟨-, hshape, hinv₁, hpt⟩ := halloc.spec hinv
    have hspace₁ : s₁.exists? space = true := by
      rw [halloc.exists_eq hinv]
      exact hspace
    apply writePte _ (hinv₁.isPt_setPde hspace₁ hpt)
    apply (h.allocated hinv halloc).setPde hinv₁ hspace₁ hpt
    -- There was no table here, so there was no entry.
    rintro rfl hi hj
    obtain ⟨t, ht', -⟩ := pte_eq_some.mp h.pte
    rw [← hi, ← hj, ht] at ht'
    cases ht'

theorem unmap : Holds (paeUnmapPageIn s space w) p v e := by
  unfold paeUnmapPageIn
  split
  · exact h
  · rename_i t ht
    exact h.writePte (hinv.pt hspace ht)

theorem sealPage : Holds (sealPage s space w) p v e := by
  unfold Pae.sealPage
  split
  · exact h
  rename_i t ht
  apply h.setPte (hinv.pt hspace ht)
  rintro rfl
  exact sealedPte_eq_iff.mpr ⟨h.sealed.sealed, h.sealed.readonly⟩

omit hspace

theorem foldl {α : Type*} {f : State → α → State} {as : List α}
    (hshape : ∀ {s₁} a, SameShape s s₁ → Inv s₁ loose → SameShape s₁ (f s₁ a))
    (hturn : ∀ {s₁} a, SameShape s s₁ → Inv s₁ loose → Holds s₁ p v e → Holds (f s₁ a) p v e) :
    Holds (as.foldl f s) p v e := by
  refine (foldlRecOn (motive := fun s₁ => SameShape s s₁ ∧ Holds s₁ p v e) as f ⟨.refl s, h⟩ ?_).2
  rintro s₁ ⟨hs₁, h₁⟩ a -
  have hinv₁ := hinv.sameShape hs₁
  exact ⟨hs₁.trans (hshape a hs₁ hinv₁), hturn a hs₁ hinv₁ h₁⟩

theorem sync (phys : UInt32) : Holds (paeSyncIdentityPte s phys) p v e := by
  refine (sync_keeps (P := fun s₁ => SameShape s s₁ ∧ Holds s₁ p v e) ?_ ⟨.refl s, h⟩).2
  rintro s₁ q t pte ⟨hshape, h₁⟩ hq ht huser
  have hpt := (hinv.sameShape hshape).pt (show s₁.exists? (.user q) = true from hq) ht
  refine ⟨hshape.trans (sameShape_setPte hpt _ _), h₁.setPte hpt ?_⟩
  -- A user entry is not an identity entry.
  rintro rfl
  exact absurd h₁.sealed.user huser

theorem sealPages (hspace : s.exists? space = true) (pages : List Page) :
    Holds (pages.foldl (fun s w => Pae.sealPage s space w) s) p v e := by
  have hspace' : ∀ {s₁}, SameShape s s₁ → s₁.exists? space = true := by
    intro s₁ hs₁
    rw [hs₁.exists_eq]
    exact hspace
  apply h.foldl hinv
  · exact fun w hs₁ hinv₁ => hinv₁.sealPage (hspace' hs₁) w
  · exact fun w hs₁ hinv₁ h₁ => h₁.sealPage hinv₁ (hspace' hs₁)

theorem sealMemory (hspace : s.exists? space = true) (start size : UInt32) :
    Holds (paeSealMemoryIn s space start size).2 p v e := by
  unfold paeSealMemoryIn
  split
  · exact h
  split
  · exact h
  · rw [seal_foldl]
    exact h.sealPages hinv hspace _

omit hinv

theorem intact (hintact : Intact s s') : Holds s' p v e := by
  have hlive : s.exists? (.user p) = true := h.live
  obtain ⟨t, ht, he⟩ := pte_eq_some.mp h.pte
  obtain ⟨σ, ho⟩ := pde_owned hlive ht
  refine ⟨by rw [hintact.live]; exact h.live, ?_, h.sealed⟩
  apply pte_eq_some.mpr
  refine ⟨t, by rw [hintact.pde hlive]; exact ht, ?_⟩
  rw [State.pt, hintact.mem ho]
  exact he

theorem create (hinv : Inv s []) : Holds (paeCreateUserPdpt s).2 p v e := by
  rcases hinv.create with ⟨q, s', heq, -, s₁, r, htook, hr, rfl, -⟩ | ⟨s', heq, -, hintact, -⟩
  · rw [heq]
    have h₁ := h.intact htook.toIntact
    refine ⟨?_, h₁.pte, h₁.sealed⟩
    obtain ⟨r', hr'⟩ := live_iff.mp h₁.live
    refine live_iff.mpr ⟨r', (userPdpts_register_ne ?_).trans hr'⟩
    rintro rfl
    cases hr.symm.trans hr'
  · rw [heq]
    exact h.intact hintact

theorem free (hq : p ≠ q) : Holds (paeFreeUserPdpt s q) p v e := by
  rw [paeFreeUserPdpt_eq]
  have h₁ : Holds (unregister s q) p v e := { h with live := live_unregister.mpr ⟨h.live, hq⟩ }
  exact h₁.intact (intact_freed _)

end Holds

/-! ## Histories -/

/-- A call that is not the end of the address space. -/
def StepBesides (p : Nat) (s : State) (event : Event) (s' : State) : Prop :=
  Step s event s' ∧ event ≠ .free p

theorem Holds.step {event : Event} (hinv : Inv s []) (h : Holds s p v e)
    (hstep : StepBesides p s event s') : Holds s' p v e := by
  obtain ⟨hstep, hnot⟩ := hstep
  cases event with
  | create answers =>
    rw [← Option.some.inj hstep]
    exact (h.answers answers).create (hinv.sameShape (sameShape_answers answers))
  | free q =>
    obtain ⟨hq, heq⟩ := Option.ite_none_right_eq_some.mp hstep
    rw [← Option.some.inj heq]
    apply h.free
    rintro rfl
    exact hnot rfl
  | map space w e' answers =>
    obtain ⟨hspace, heq⟩ := Option.ite_none_right_eq_some.mp hstep
    rw [← Option.some.inj heq]
    have hinv₁ := hinv.sameShape (sameShape_answers answers)
    exact (h.answers answers).mapped hinv₁ hspace hinv₁.paeMapPageInto_mapped
  | unmap space w =>
    obtain ⟨hspace, heq⟩ := Option.ite_none_right_eq_some.mp hstep
    rw [← Option.some.inj heq]
    exact h.unmap hinv hspace
  | sealMemory space start size =>
    obtain ⟨hspace, heq⟩ := Option.ite_none_right_eq_some.mp hstep
    rw [← Option.some.inj heq]
    exact h.sealMemory hinv hspace start size
  | sync phys =>
    rw [← Option.some.inj hstep]
    exact h.sync hinv phys

/-- The invariant and the sealed entry, together. -/
def SealInv (p : Nat) (v : Page) (e : Pte) (s : State) : Prop := Inv s [] ∧ Holds s p v e

theorem SealInv.run {later : List Event} (h : SealInv p v e s)
    (hrun : Run (StepBesides p) s later s') : SealInv p v e s' := by
  apply hrun.invariant _ h
  rintro s event s' ⟨hinv, hholds⟩ hstep
  exact ⟨hinv.step hstep.1, hholds.step hinv hstep⟩

/-! ## The call -/

theorem Holds.walk (h : Holds s p v e) : s.walk (.user p) v = some e := by
  simp [State.walk, h.pte, h.sealed.present]

theorem mem_sealRange {start size : UInt32} {pages : List Page}
    (h : sealRange start size = some pages) {a : Nat} (hlow : start.toNat ≤ a)
    (hhigh : a < start.toNat + size.toNat) : Page.ofNumber (a / 4096) ∈ pages := by
  unfold sealRange at h
  split at h
  · cases h
  dsimp only at h
  split at h
  · cases h
  cases h
  rw [mem_map]
  refine ⟨a / 4096 - start.toNat / 4096, mem_range.mpr (by omega), ?_⟩
  congr 1
  omega

theorem holds_sealPages (hinv : Inv s loose) (hp : s.live p = true) {pages : List Page}
    (hall : ∀ v ∈ pages, sealable s (.user p) v = true) (hv : v ∈ pages) :
    ∃ e, Holds (pages.foldl (fun s w => sealPage s (.user p) w) s) p v e := by
  have hspace : s.exists? (.user p) = true := hp
  induction pages generalizing s with
  | nil => cases hv
  | cons w pages ih =>
    have hshape := hinv.sealPage hspace w
    have hinv₁ := hinv.sameShape hshape
    have hspace₁ : (sealPage s (.user p) w).exists? (.user p) = true := by
      rw [hshape.exists_eq]
      exact hspace
    rcases mem_cons.mp hv with rfl | hv
    · -- The page is sealed now, and the rest of the pass keeps it.
      have hok := hall v mem_cons_self
      simp only [sealable, Option.any_eq_true, Bool.and_eq_true] at hok
      obtain ⟨e, he, hpresent, huser⟩ := hok
      obtain ⟨t, ht, rfl⟩ := pte_eq_some.mp he
      refine ⟨sealedPte (s.pt t v.pt), Holds.sealPages ?_ hinv₁ hspace₁ pages⟩
      refine ⟨hspace₁, ?_, sealed_sealedPte hpresent huser⟩
      apply pte_eq_some.mpr
      refine ⟨t, by rw [hshape.pde hspace]; exact ht, ?_⟩
      simp only [sealPage, ht]
      rw [pt_setPte, if_pos ⟨rfl, rfl⟩]
    · apply ih hinv₁ hspace₁ _ hv hspace₁
      -- Sealing another page leaves what the first pass found.
      intro v' hv'
      have hok := hall v' (mem_cons_of_mem _ hv')
      simp only [sealable, Option.any_eq_true, Bool.and_eq_true] at hok ⊢
      obtain ⟨e, he, hpresent, huser⟩ := hok
      obtain ⟨t, ht, rfl⟩ := pte_eq_some.mp he
      refine ⟨_, pte_eq_some.mpr ⟨t, by rw [hshape.pde hspace]; exact ht, rfl⟩, ?_⟩
      unfold sealPage
      split
      · exact ⟨hpresent, huser⟩
      rw [pt_setPte]
      split
      · rename_i hentry
        obtain ⟨rfl, hk⟩ := hentry
        rw [← hk]
        exact ⟨hpresent, huser⟩
      · exact ⟨hpresent, huser⟩

theorem seal_count_nonneg (pages : List Page) (r : Int × State) (hr : 0 ≤ r.1) :
    0 ≤ (pages.foldl (fun (r : Int × State) v =>
      let isNew := (r.2.pte space v).any fun e => !e.flags.sealed
      (if isNew then r.1 + 1 else r.1, sealPage r.2 space v)) r).1 := by
  refine foldlRecOn (motive := fun r : Int × State => 0 ≤ r.1) pages _ hr fun r hr v _ => ?_
  dsimp only
  split
  · omega
  · exact hr

/-- A call that fails has written nothing; one that succeeds has found every page mapped for the
user and gone over all of them. -/
theorem paeSealMemoryIn_cases (s : State) (space : Space) (start size : UInt32) :
    paeSealMemoryIn s space start size = (-1, s) ∨
    ∃ pages, sealRange start size = some pages ∧ (∀ v ∈ pages, sealable s space v = true) ∧
      0 ≤ (paeSealMemoryIn s space start size).1 ∧
      (paeSealMemoryIn s space start size).2 =
        pages.foldl (fun s v => sealPage s space v) s := by
  unfold paeSealMemoryIn
  split
  · exact .inl rfl
  rename_i pages hpages
  split
  · exact .inl rfl
  rename_i hall
  rw [Bool.not_eq_false, all_eq_true] at hall
  refine .inr ⟨pages, hpages, hall, ?_, ?_⟩
  · exact seal_count_nonneg pages (0, s) le_rfl
  · exact seal_foldl pages (0, s)

theorem sealed_pages_stay_sealed {s₀ : State} {events : List Event} (hboot : Booted s₀)
    (hrun : Run Step s₀ events s) (hp : s.live p = true) (start size : UInt32) :
    (0 ≤ (paeSealMemoryIn s (.user p) start size).1 →
      ∀ a, start.toNat ≤ a → a < start.toNat + size.toNat → ∃ e : Pte, e.Sealed ∧
        ∀ later s', Run (StepBesides p) (paeSealMemoryIn s (.user p) start size).2 later s' →
          s'.walk (.user p) (.ofNumber (a / 4096)) = some e) ∧
    ((paeSealMemoryIn s (.user p) start size).1 < 0 →
      (paeSealMemoryIn s (.user p) start size).2 = s) := by
  have hinv := hboot.run hrun
  have hspace : s.exists? (.user p) = true := hp
  rcases paeSealMemoryIn_cases s (.user p) start size with
    hfail | ⟨pages, hpages, hall, hcount, hend⟩
  · constructor
    · intro hok
      rw [hfail] at hok
      exact absurd hok (by simp)
    · exact fun _ => by rw [hfail]
  · constructor
    · intro _ a hlow hhigh
      obtain ⟨e, he⟩ := holds_sealPages hinv hp hall (mem_sealRange hpages hlow hhigh)
      refine ⟨e, he.sealed, ?_⟩
      intro later s' hlater
      have hinv₁ := hinv.sameShape (hinv.sealMemory hspace start size)
      rw [hend] at hlater hinv₁
      exact (SealInv.run ⟨hinv₁, he⟩ hlater).2.walk
    · omega

/-- The page that was mapped is sealed, and then another frame is mapped there. -/
theorem sealed_page_is_not_mapped_over :
    ∃ s s' : State, Run Step sixteenFrames createAndMap s ∧
      Run (StepBesides 1) (paeSealMemoryIn s (.user 1) 0x9000 0x1000).2
        [.map (.user 1) (.ofNumber 9) (userPte 13) []] s' ∧
      ∃ e : Pte, e.Sealed ∧ s'.walk (.user 1) (.ofNumber 9) = some e := by
  have hend : ((createAndMap.foldlM step sixteenFrames).any fun s =>
      s.live 1 && decide (0 ≤ (paeSealMemoryIn s (.user 1) 0x9000 0x1000).1) &&
      (step (paeSealMemoryIn s (.user 1) 0x9000 0x1000).2
        (.map (.user 1) (.ofNumber 9) (userPte 13) [])).isSome) = true := by decide +kernel
  obtain ⟨s, hs, hok⟩ := (Option.any_eq_true _ _).mp hend
  simp only [Bool.and_eq_true, decide_eq_true_eq, Option.isSome_iff_exists] at hok
  obtain ⟨⟨hlive, hcount⟩, s', hs'⟩ := hok
  have hrun : Run Step sixteenFrames createAndMap s := Run.of_foldlM_some hs
  have hlater : Run (StepBesides 1) (paeSealMemoryIn s (.user 1) 0x9000 0x1000).2
      [.map (.user 1) (.ofNumber 9) (userPte 13) []] s' := Run.single ⟨hs', by simp⟩
  obtain ⟨e, he, hkept⟩ := (sealed_pages_stay_sealed sixteenFrames_booted hrun hlive 0x9000
    0x1000).1 hcount 0x9000 (by decide) (by decide)
  exact ⟨s, s', hrun, hlater, e, he, hkept _ s' hlater⟩

end TinyOS.Pae
