import TinyOS.Pae.Entries

/-!
# Which edits stay inside their address space

A call of `pae_map_page_into`, `pae_unmap_page_in` or `pae_seal_memory_in` that names a user address
space and a page should change the translation of that page there and nothing else. Mapping makes a
private copy of a table that is still the kernel's before it writes. Unmapping and sealing do not: they
write into the kernel's own table, and so into every address space that shares it. Mapping has another
way out of its address space: a table that comes from the memory manager is first mapped for the
kernel at its own address, over whatever the kernel had there.

The conditions below say exactly when each call stays inside.
-/

namespace TinyOS.Pae

open Lib

variable {s s' : State} {f g t : Frame} {p q : Nat} {loose : List Frame} {space space' : Space}
  {v w : Page} {e e' : Pte}

/-! ## Statement -/

/-- Every other page of every address space is translated as before. -/
def Undisturbed (s s' : State) (p : Nat) (v : Page) : Prop :=
  ∀ space w, s.exists? space = true → (space ≠ .user p ∨ w ≠ v) → s'.walk space w = s.walk space w

/-- The page's table is the kernel's. -/
def Shared (s : State) (p : Nat) (v : Page) : Prop :=
  ∃ t, s.pde (.user p) v.pdpt v.pd = some t ∧ s.kernelPd v.pdpt v.pd = some t

/-- Unmapping finds a table of its own, or nothing to clear. -/
def UnmapConfined (s : State) (p : Nat) (v : Page) : Prop :=
  Shared s p v → ∀ e, s.pte (.user p) v = some e → e.flags.present = true → e.flags.sealed = true

/-- Sealing finds a table of its own, or nothing to change. -/
def SealConfined (s : State) (p : Nat) (v : Page) : Prop :=
  Shared s p v → ∀ e, s.pte (.user p) v = some e → e.flags.present = true → e.flags.user = true →
    e.flags.sealed = true ∧ e.flags.readwrite = false

/-- The frame of the memory manager that the next page table is going to be, if it is one. -/
def tableFrame (s : State) : Option Nat :=
  match freeTable s with
  | some _ => none
  | none => (pmmAlloc s).1

/-- Mapping needs no frame of the memory manager for a table, or the kernel has that frame mapped at
its own address already, or has sealed that page. -/
def MapConfined (s : State) (p : Nat) (v : Page) : Prop :=
  s.pde (.user p) v.pdpt v.pd = none ∨ Shared s p v →
    ∀ n, tableFrame s = some n → ∀ e, s.pte .kernel (.ofNumber n) = some e →
      e.flags.sealed = true ∨ e = identityPte n

/-! ## Writing one entry -/

/-- Writing the entry for a page stays inside if the table is not the kernel's, or the processor sees
no difference. -/
theorem Inv.undisturbed_setPte (h : Inv s loose) (hp : s.live p = true)
    (ht : s.pde (.user p) v.pdpt v.pd = some t) :
    Undisturbed s (s.setPte t v.pt e) p v ↔
      (s.kernelPd v.pdpt v.pd = some t → seen e = seen (s.pt t v.pt)) := by
  have hspace : s.exists? (.user p) = true := hp
  constructor
  · intro hsame hk
    have hkernel : s.exists? .kernel = true := rfl
    have hk' : s.pde .kernel v.pdpt v.pd = some t := hk
    have hwalk := hsame .kernel v hkernel (.inl (by simp))
    rw [walk_of_pte (pte_eq_some.mpr ⟨t, hk', rfl⟩)] at hwalk
    rw [← hwalk]
    apply (walk_of_pte _).symm
    rw [h.pte_setPte hspace ht hkernel, if_pos ⟨hk', rfl⟩]
  · intro hsame space w hspace' hother
    by_cases hw : s.pde space v.pdpt v.pd = some t ∧ w = v
    · obtain ⟨hpde, rfl⟩ := hw
      obtain ⟨-, -, hwhere⟩ := h.same_table hspace hspace' ht hpde
      have hk : s.kernelPd w.pdpt w.pd = some t := by
        rcases hwhere with rfl | hk
        · rcases hother with hne | hne
          · exact absurd rfl hne
          · exact absurd rfl hne
        · exact hk
      rw [walk_of_pte (pte_eq_some.mpr ⟨t, hpde, rfl⟩), ← hsame hk]
      apply walk_of_pte
      rw [h.pte_setPte hspace ht hspace', if_pos ⟨hpde, rfl⟩]
    · apply walk_congr
      apply entry_congr
      rw [h.pte_setPte hspace ht hspace', if_neg hw]

theorem undisturbed_refl (s : State) (p : Nat) (v : Page) : Undisturbed s s p v :=
  fun _ _ _ _ => rfl

/-! ## Unmapping and sealing -/

theorem Inv.unmap_undisturbed (h : Inv s loose) (hp : s.live p = true) :
    Undisturbed s (paeUnmapPageIn s (.user p) v) p v ↔ UnmapConfined s p v := by
  unfold paeUnmapPageIn
  split
  · rename_i hnone
    refine ⟨?_, fun _ => undisturbed_refl s p v⟩
    rintro - ⟨t, ht, -⟩
    cases hnone.symm.trans ht
  · rename_i t ht
    have hpte : s.pte (.user p) v = some (s.pt t v.pt) := pte_eq_some.mpr ⟨t, ht, rfl⟩
    unfold writePte
    split
    · rename_i hsealed
      refine ⟨?_, fun _ => undisturbed_refl s p v⟩
      rintro - - e he -
      rw [← Option.some.inj (hpte.symm.trans he)]
      exact hsealed
    · rename_i hunsealed
      rw [h.undisturbed_setPte hp ht]
      constructor
      · rintro hsame ⟨t', ht', hk⟩ e he hpresent
        cases ht.symm.trans ht'
        cases hpte.symm.trans he
        have hnone := hsame hk
        rw [seen_present hpresent, seen_absent rfl] at hnone
        cases hnone
      · intro hconf hk
        have hpresent : (s.pt t v.pt).flags.present = false := by
          by_contra hpresent
          exact hunsealed (hconf ⟨t, ht, hk⟩ _ hpte (by simpa using hpresent))
        rw [seen_absent hpresent, seen_absent rfl]

theorem Inv.seal_undisturbed (h : Inv s loose) (hp : s.live p = true) {start size : UInt32}
    (hrange : sealRange start size = some [v]) :
    Undisturbed s (paeSealMemoryIn s (.user p) start size).2 p v ↔ SealConfined s p v := by
  have hone : (paeSealMemoryIn s (.user p) start size).2 =
      if sealable s (.user p) v = true then Pae.sealPage s (.user p) v else s := by
    simp only [paeSealMemoryIn, hrange]
    by_cases hok : sealable s (.user p) v = true
    · simp [hok]
    · simp [hok]
  rw [hone]
  split
  · rename_i hok
    simp only [sealable, Option.any_eq_true, Bool.and_eq_true] at hok
    obtain ⟨e, he, hpresent, huser⟩ := hok
    obtain ⟨t, ht, rfl⟩ := pte_eq_some.mp he
    simp only [Pae.sealPage, ht]
    rw [h.undisturbed_setPte hp ht]
    have hseen : seen (sealedPte (s.pt t v.pt)) = seen (s.pt t v.pt) ↔
        sealedPte (s.pt t v.pt) = s.pt t v.pt := by
      have hkept : (sealedPte (s.pt t v.pt)).flags.present = true := hpresent
      rw [seen_present hpresent, seen_present hkept, Option.some.injEq]
    rw [hseen, sealedPte_eq_iff]
    constructor
    · rintro hsame ⟨t', ht', hk⟩ e he' - -
      cases ht.symm.trans ht'
      cases he.symm.trans he'
      exact hsame hk
    · exact fun hconf hk => hconf ⟨t, ht, hk⟩ _ he hpresent huser
  · rename_i hnot
    refine ⟨?_, fun _ => undisturbed_refl s p v⟩
    rintro - - e he hpresent huser
    refine absurd ?_ hnot
    simp [sealable, he, hpresent, huser]

/-! ## Mapping -/

theorem SameEntries.undisturbed {s₁ : State} (h : SameEntries s s₁)
    (hspaces : s₁.exists? = s.exists?) (h₁ : Undisturbed s₁ s' p v) : Undisturbed s s' p v := by
  intro space w hspace hother
  rw [h₁ space w (by rw [hspaces]; exact hspace) hother]
  exact walk_congr (entry_congr (h space w hspace))

theorem tableFrame_phys {n : Nat} {rest : List (Option Nat)} (hpool : freeTable s = none)
    (hanswers : s.answers = some n :: rest) (hpos : 0 < n) (hlt : n < s.frames)
    (htaken : s.taken n = false) : tableFrame s = some n := by
  simp [tableFrame, hpool, pmmAlloc, hanswers, hpos, hlt, htaken]

/-- The kernel's entry for the frame of a new table, and every other entry. -/
theorem Allocated.pte (hinv : Inv s loose) (h : Allocated s (some f, s')) :
    (SameEntries s s' ∧ ∀ n, tableFrame s = some n → ∀ e, s.pte .kernel (.ofNumber n) = some e →
      e.flags.sealed = true) ∨
    ∃ n e, tableFrame s = some n ∧ s.pte .kernel (.ofNumber n) = some e ∧
      e.flags.sealed = false ∧ s'.pte .kernel (.ofNumber n) = some (identityPte n) ∧
      (e = identityPte n → SameEntries s s') := by
  have hspec := h.spec hinv
  cases h with
  | pool i hfree hused =>
    have htake := hinv.take hspec.1
    refine .inl ⟨(sameEntries_mark true (.pool i)).trans (exists_mark true) ?_, ?_⟩
    · exact htake.sameEntries_setLoose List.mem_cons_self _
    · intro n hn
      rw [tableFrame, hfree] at hn
      cases hn
  | phys n rest t hpool hanswers hpos hlt htaken ht =>
    have hframe := tableFrame_phys hpool hanswers hpos hlt htaken
    have hkernel : s.exists? .kernel = true := rfl
    have htake := (hinv.sameShape (sameShape_answers rest)).take (f := .phys n)
      (show ¬ ({ s with answers := rest } : State).InUse (.phys n) from hspec.1)
    generalize hs₁ : ({ s with answers := rest } : State).mark true (.phys n) = s₁ at htake
    have hspaces : s₁.exists? = s.exists? := by
      rw [← hs₁]
      exact exists_mark true
    have hentries : SameEntries s s₁ := by
      rw [← hs₁]
      exact sameEntries_mark (s := { s with answers := rest }) true (.phys n)
    have ht₁ : s₁.pde .kernel (Page.ofNumber n).pdpt (Page.ofNumber n).pd = some t := by
      rw [← hs₁]
      exact ht
    have hpt : s₁.IsPt t := htake.pt rfl ht₁
    have hpte : s.pte .kernel (.ofNumber n) = some (s₁.pt t (Page.ofNumber n).pt) := by
      rw [← hentries .kernel _ hkernel]
      exact pte_eq_some.mpr ⟨t, ht₁, rfl⟩
    have hloose := (htake.sameShape (sameShape_writePte (v := .ofNumber n) (e := identityPte n)
      hpt)).sameEntries_setLoose List.mem_cons_self (.pt fun _ => .zero)
    have hspaces₂ : (writePte s₁ t (.ofNumber n) (identityPte n)).exists? = s₁.exists? :=
      (sameShape_writePte hpt).exists_eq
    have hkernel₁ : s₁.exists? .kernel = true := rfl
    by_cases hsealed : (s₁.pt t (Page.ofNumber n).pt).flags.sealed = true
    · -- The kernel's page is sealed, and stays what it was.
      left
      rw [writePte, if_pos hsealed] at hloose
      rw [writePte, if_pos hsealed]
      refine ⟨hentries.trans hspaces hloose, ?_⟩
      intro n' hn' e he
      cases hframe.symm.trans hn'
      cases hpte.symm.trans he
      exact hsealed
    · right
      refine ⟨n, _, hframe, hpte, by simpa using hsealed, ?_, ?_⟩
      · rw [hloose .kernel _ rfl, writePte, if_neg hsealed,
          htake.pte_setPte hkernel₁ ht₁ hkernel₁, if_pos ⟨ht₁, rfl⟩]
      · intro heq
        refine hentries.trans hspaces (SameEntries.trans ?_ hspaces₂ hloose)
        intro space w hspace
        rw [writePte, if_neg hsealed, htake.pte_setPte hkernel₁ ht₁ hspace]
        split
        · rename_i hw
          obtain ⟨hpde, rfl⟩ := hw
          rw [← heq]
          exact (pte_eq_some.mpr ⟨t, hpde, rfl⟩).symm
        · rfl

/-- Apart from what taking a table does, mapping stays inside. -/
theorem Mapped.undisturbed (hinv : Inv s loose) (hp : s.live p = true)
    (hmap : Mapped s (.user p) v e s') :
    (Undisturbed s s' p v ∧
      (s.pde (.user p) v.pdpt v.pd = none ∨ Shared s p v → tableFrame s = none)) ∨
    ((s.pde (.user p) v.pdpt v.pd = none ∨ Shared s p v) ∧
      ∃ f s₁, Allocated s (some f, s₁) ∧ s₁.exists? = s.exists? ∧ Undisturbed s₁ s' p v) := by
  have hplace : ∀ {space : Space} {w : Page}, space ≠ .user p ∨ w ≠ v →
      ¬ (space = .user p ∧ w = v) := by
    rintro space w (hne | hne) ⟨hspace, hw⟩
    · exact hne hspace
    · exact hne hw
  rcases own_or_vacant s p v with ⟨t, ht, hown⟩ | hvacant
  · refine .inl ⟨?_, ?_⟩
    · cases hmap with
      | failed rest _ _ => exact undisturbed_refl s p v
      | written t' ht' _ =>
        cases ht.symm.trans ht'
        intro space w hspace hother
        apply walk_congr
        rw [hinv.entry_private hp ht hown hspace, if_neg fun hboth => hplace hother hboth.1]
      | copied t' _ _ ht' _ hshared _ =>
        cases ht.symm.trans ht'
        exact absurd hshared hown
      | created _ _ ht' _ => cases ht.symm.trans ht'
    · rintro (hnone | ⟨t', ht', hk⟩)
      · cases hnone.symm.trans ht
      · cases ht.symm.trans ht'
        exact absurd hk hown
  · rcases hmap.entry hinv hp hvacant with
      ⟨rest, hpool, hpmm, rfl⟩ | ⟨f, s₁, halloc, hspaces, hentry⟩
    · refine .inl ⟨undisturbed_refl s p v, fun _ => ?_⟩
      rw [tableFrame, hpool]
      exact hpmm
    · refine .inr ⟨?_, f, s₁, halloc, hspaces, ?_⟩
      · rcases hvacant with hnone | ⟨-, hshared⟩
        · exact .inl hnone
        · cases hk : s.kernelPd v.pdpt v.pd with
          | none => exact .inl (hshared.trans hk)
          | some t => exact .inr ⟨t, hshared.trans hk, hk⟩
      · intro space w hspace hother
        rw [hspaces] at hspace
        apply walk_congr
        rw [hentry space w hspace, if_neg fun hboth => hplace hother hboth.1]

theorem Inv.map_undisturbed (h : Inv s loose) (hp : s.live p = true) :
    Undisturbed s (paeMapPageInto s (.user p) v e) p v ↔ MapConfined s p v := by
  have hmap : Mapped s (.user p) v e (paeMapPageInto s (.user p) v e) := h.paeMapPageInto_mapped
  rcases hmap.undisturbed h hp with
    ⟨hsame, hnone⟩ | ⟨hneeds, f, s₁, halloc, hspaces, hsame⟩
  · refine ⟨fun _ hneeds n hn => ?_, fun _ => hsame⟩
    cases (hnone hneeds).symm.trans hn
  · constructor
    · intro hall _ n hn e₀ he₀
      rcases halloc.pte h with ⟨-, hsealed⟩ | ⟨n', e', hn', he', hunsealed, hnew, -⟩
      · exact .inl (hsealed n hn e₀ he₀)
      · cases hn.symm.trans hn'
        right
        have hwalk := hall .kernel (.ofNumber n) rfl (.inl (by simp))
        have hspace₁ : s₁.exists? .kernel = true := rfl
        rw [hsame .kernel (.ofNumber n) hspace₁ (.inl (by simp)), walk_of_pte hnew,
          walk_of_pte he₀, seen_present rfl] at hwalk
        by_cases hpresent : e₀.flags.present = true
        · rw [seen_present hpresent] at hwalk
          exact (Option.some.inj hwalk).symm
        · rw [seen_absent (by simpa using hpresent)] at hwalk
          cases hwalk
    · intro hconf
      rcases halloc.pte h with ⟨hentries, -⟩ | ⟨n, e', hn, he', hunsealed, hnew, hentries⟩
      · exact hentries.undisturbed hspaces hsame
      · rcases hconf hneeds n hn e' he' with hsealed | hid
        · rw [hunsealed] at hsealed
          cases hsealed
        · exact (hentries hid).undisturbed hspaces hsame

/-! ## The three calls -/

theorem page_table_edit_is_isolated_iff {s₀ : State} {events : List Event} (hboot : Booted s₀)
    (hrun : Run Step s₀ events s) (hp : s.live p = true) (v : Page) :
    (∀ e answers, Undisturbed s (paeMapPageInto { s with answers := answers } (.user p) v e) p v ↔
      MapConfined { s with answers := answers } p v) ∧
    (Undisturbed s (paeUnmapPageIn s (.user p) v) p v ↔ UnmapConfined s p v) ∧
    (∀ start size, sealRange start size = some [v] →
      (Undisturbed s (paeSealMemoryIn s (.user p) start size).2 p v ↔ SealConfined s p v)) := by
  have hinv := hboot.run hrun
  refine ⟨?_, hinv.unmap_undisturbed hp, fun start size hrange => hinv.seal_undisturbed hp hrange⟩
  intro e answers
  exact (hinv.sameShape (sameShape_answers answers)).map_undisturbed hp

/-- An address space is created, and the kernel's page 9 is unmapped in it. -/
theorem unmapping_a_shared_page_unmaps_the_kernels :
    ∃ s, Run Step sixteenFrames [.create [some 1, some 2, some 3, some 4, some 5]] s ∧
      s.live 1 = true ∧ s.walk .kernel (.ofNumber 9) = some (identityPte 9) ∧
      (paeUnmapPageIn s (.user 1) (.ofNumber 9)).walk .kernel (.ofNumber 9) = none := by
  have hend : (([Event.create [some 1, some 2, some 3, some 4, some 5]].foldlM step
      sixteenFrames).any fun s => s.live 1 &&
        decide (s.walk .kernel (.ofNumber 9) = some (identityPte 9)) &&
        decide ((paeUnmapPageIn s (.user 1) (.ofNumber 9)).walk .kernel (.ofNumber 9) = none)) =
      true := by decide +kernel
  obtain ⟨s, hs, hok⟩ := (Option.any_eq_true _ _).mp hend
  simp only [Bool.and_eq_true, decide_eq_true_eq] at hok
  exact ⟨s, Run.of_foldlM_some hs, hok.1.1, hok.1.2, hok.2⟩

/-- With a table of its own the address space unmaps only its own page. -/
theorem unmapping_a_private_page_is_isolated :
    ∃ s, Run Step sixteenFrames createAndMap s ∧ s.live 1 = true ∧
      Undisturbed s (paeUnmapPageIn s (.user 1) (.ofNumber 9)) 1 (.ofNumber 9) := by
  have hend : ((createAndMap.foldlM step sixteenFrames).any fun s => s.live 1 &&
      decide (s.pde (.user 1) (Page.ofNumber 9).pdpt (Page.ofNumber 9).pd = some (.pool 1)) &&
      decide (s.kernelPd (Page.ofNumber 9).pdpt (Page.ofNumber 9).pd = some (.pool 0))) =
      true := by decide +kernel
  obtain ⟨s, hs, hok⟩ := (Option.any_eq_true _ _).mp hend
  simp only [Bool.and_eq_true, decide_eq_true_eq] at hok
  obtain ⟨⟨hlive, hpriv⟩, hkernel⟩ := hok
  have hrun : Run Step sixteenFrames createAndMap s := Run.of_foldlM_some hs
  refine ⟨s, hrun, hlive, ?_⟩
  apply (page_table_edit_is_isolated_iff sixteenFrames_booted hrun hlive _).2.1.mpr
  rintro ⟨t, ht, hk⟩
  cases hpriv.symm.trans ht
  cases hkernel.symm.trans hk

end TinyOS.Pae
