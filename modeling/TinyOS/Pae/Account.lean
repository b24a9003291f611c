import TinyOS.Pae.Entries

/-!
# Frames of one address space and of its task

A task takes frames for its stacks and its image, which the page tables do not own, and frames for its
page tables, which its address space owns. `Taking` says what holds while it takes them: the owners
outside the address space are those of the state before. `Giving` says it while they are returned.
When the address space is gone and no frame is left to return, the frames in use are those that were in
use before (`Giving.restored`).
-/

namespace TinyOS.Pae

open Lib

variable {s₀ s s' : State} {f g t : Frame} {p q : Nat} {a : Option Nat} {loose loose' : List Frame}
  {space : Space} {v w : Page} {e : Pte}

/-! ## Other owners -/

/-- Two states that differ in loose frames, in entries and in one address space, if there is one. -/
structure Besides (a : Option Nat) (s s' : State) : Prop where
  frames : s'.frames = s.frames
  owns : ∀ {σ f}, a.map Space.user ≠ some σ.space → (Owns s' σ f ↔ Owns s σ f)
  userPdpts : ∀ r, s'.userPdpts r = s.userPdpts r ∨ (s.userPdpts r = none ∧ s'.userPdpts r = a)

namespace Besides

theorem refl (a : Option Nat) (s : State) : Besides a s s :=
  ⟨rfl, fun _ => Iff.rfl, fun _ => .inl rfl⟩

theorem trans {s₁ s₂ s₃ : State} (h : Besides a s₁ s₂) (h' : Besides a s₂ s₃) :
    Besides a s₁ s₃ where
  frames := h'.frames.trans h.frames
  owns hσ := (h'.owns hσ).trans (h.owns hσ)
  userPdpts r := by
    rcases h'.userPdpts r with heq' | ⟨hnone, hnew⟩
    · rw [heq']
      exact h.userPdpts r
    · rcases h.userPdpts r with heq | ⟨hnone', -⟩
      · exact .inr ⟨heq.symm.trans hnone, hnew⟩
      · exact .inr ⟨hnone', hnew⟩

end Besides

theorem SameShape.besides (h : SameShape s s') : Besides a s s' :=
  ⟨h.frames, fun _ => h.owns_iff, fun r => .inl (congrFun h.userPdpts r)⟩

theorem Intact.besides (h : Intact s s') (hframes : s'.frames = s.frames) : Besides a s s' :=
  ⟨hframes, fun _ => h.owns_iff, fun r => .inl (congrFun h.userPdpts r)⟩

theorem Took.besides (h : Took s s') : Besides a s s' := h.toIntact.besides h.frames

theorem Inv.besides_enter (h : Inv s (g :: loose)) (hp : s.live p = true) (hg : s.IsPt g)
    (hvacant : Vacant s (.user p) v.pdpt v.pd) :
    Besides (some p) s (writePte (s.setPde (.user p) v.pdpt v.pd g) g v e) := by
  have huser : s.exists? (.user p) = true := hp
  have hlink : Besides (some p) s (s.setPde (.user p) v.pdpt v.pd g) := by
    refine ⟨rfl, ?_, fun _ => .inl rfl⟩
    intro σ f hσ
    rw [h.owns_setPde huser hvacant]
    refine ⟨fun ho => ho.resolve_left ?_, .inr⟩
    rintro ⟨rfl, -⟩
    exact hσ rfl
  exact hlink.trans (sameShape_writePte (h.isPt_setPde huser hg)).besides

theorem Allocated.besides (hinv : Inv s loose) (h : Allocated s (some f, s')) : Besides a s s' :=
  (took_mark true f).besides.trans (h.spec hinv).2.1.besides

theorem Mapped.besides (h : Inv s loose) (hp : s.live p = true) (hmap : Mapped s (.user p) v e s') :
    Besides (some p) s s' := by
  have huser : s.exists? (.user p) = true := hp
  cases hmap with
  | failed rest _ _ => exact (took_answers rest).besides
  | written t ht _ => exact (sameShape_writePte (h.pt huser ht)).besides
  | copied t priv s₁ ht _ hshared halloc =>
    obtain ⟨-, hshape, hinv, hpt⟩ := halloc.spec h
    have hcopy := hinv.sameShape_setLoose List.mem_cons_self (.pt (s₁.pt t))
    have huser₁ : s₁.exists? (.user p) = true := by
      rw [halloc.exists_eq h]
      exact huser
    refine (halloc.besides h).trans (hcopy.besides.trans ?_)
    apply (hinv.sameShape hcopy).besides_enter _ (isPt_setPt _)
    · right
      refine ⟨by simp, ?_⟩
      rw [hcopy.pde huser₁, halloc.pde h huser, ht, hcopy.kernelPd, hshape.kernelPd, kernelPd_mark]
      exact hshared.symm
    · exact huser₁
  | created priv s₁ ht halloc =>
    obtain ⟨-, -, hinv, hpt⟩ := halloc.spec h
    refine (halloc.besides h).trans (hinv.besides_enter ?_ hpt ?_)
    · show s₁.exists? (.user p) = true
      rw [halloc.exists_eq h]
      exact huser
    · left
      rw [halloc.pde h huser]
      exact ht

/-- What no mapping touches. -/
def registers (s : State) : (Fin paeMaxUserPdpts → Option Nat) × List Frame × Nat :=
  (s.userPdpts, s.returned, s.frames)

theorem writePte_eq (s : State) (t : Frame) (v : Page) (e : Pte) :
    ∃ mem, writePte s t v e = { s with mem := mem } := by
  unfold writePte
  split
  · exact ⟨s.mem, rfl⟩
  · exact ⟨_, rfl⟩

theorem registers_writePte : registers (writePte s t v e) = registers s := by
  obtain ⟨mem, heq⟩ := writePte_eq s t v e
  rw [heq]
  rfl

theorem Mapped.registers (hmap : Mapped s space v e s') : registers s' = registers s := by
  have halloc : ∀ {f s₁}, Allocated s (some f, s₁) → Pae.registers s₁ = Pae.registers s := by
    intro f s₁ h
    cases h with
    | pool i _ _ => rfl
    | phys n rest t _ _ _ _ _ _ => exact registers_writePte
  have hset : ∀ {s₁ : State} {i j t}, Pae.registers (s₁.setPde space i j t) = Pae.registers s₁ := by
    intro s₁ i j t
    cases space <;> rfl
  cases hmap with
  | failed rest _ _ => rfl
  | written t _ _ => exact registers_writePte
  | copied t priv s₁ _ _ _ h =>
    have hcopy : Pae.registers (s₁.setTable priv (.pt (s₁.pt t))) = Pae.registers s₁ := rfl
    exact ((registers_writePte.trans hset).trans hcopy).trans (halloc h)
  | created priv s₁ _ h => exact (registers_writePte.trans hset).trans (halloc h)

theorem sync_eq (s : State) (phys : UInt32) :
    ∃ mem, paeSyncIdentityPte s phys = { s with mem := mem } := by
  refine sync_keeps (P := fun s₁ => ∃ mem, s₁ = { s with mem := mem }) ?_ ⟨s.mem, rfl⟩
  rintro _ p t pte ⟨mem, rfl⟩ - - -
  exact ⟨_, rfl⟩

theorem registers_sync (s : State) (phys : UInt32) :
    registers (paeSyncIdentityPte s phys) = registers s := by
  obtain ⟨mem, heq⟩ := sync_eq s phys
  rw [heq]
  rfl

theorem live_congr (h : registers s' = registers s) : s'.live = s.live := by
  funext p
  rw [State.live, State.live, show s'.userPdpts = s.userPdpts from congrArg Prod.fst h]

/-! ## Taking -/

theorem Inv.takeAll {run : List Nat} (h : Inv s loose) (hfree : ∀ n ∈ run, s.taken n = false)
    (hnodup : run.Nodup) :
    Inv { s with taken := fun k => s.taken k || decide (k ∈ run) } (run.map .phys ++ loose) := by
  induction run with
  | nil =>
    have hsame : (fun k => s.taken k || decide (k ∈ ([] : List Nat))) = s.taken := by
      simp
    rw [hsame]
    exact h
  | cons n run ih =>
    obtain ⟨hn, hnodup⟩ := List.nodup_cons.mp hnodup
    have htake := (ih (fun k hk => hfree k (List.mem_cons_of_mem _ hk)) hnodup).take
      (f := .phys n) (by simp [State.InUse, hfree n List.mem_cons_self, hn])
    have hsame : (fun k => s.taken k || decide (k ∈ n :: run)) =
        Function.update (fun k => s.taken k || decide (k ∈ run)) n true := by
      funext k
      by_cases hk : k = n
      · simp [hk]
      · simp [hk]
    rw [hsame]
    exact htake

/-- Frames were taken since `s₀`, for an address space and as loose ones. -/
structure Taking (s₀ : State) (a : Option Nat) (s : State) (loose : List Frame) : Prop where
  inv : Inv s loose
  besides : Besides a s₀ s
  returned : s.returned = s₀.returned

namespace Taking

theorem refl (h : Inv s loose) (a : Option Nat) : Taking s a s loose := ⟨h, .refl a s, rfl⟩

theorem took (h : Taking s₀ a s loose) (hinv : Inv s' loose') (htook : Took s s') :
    Taking s₀ a s' loose' :=
  ⟨hinv, h.besides.trans htook.besides, htook.returned.trans h.returned⟩

theorem sameShape (h : Taking s₀ a s loose) (hshape : SameShape s s')
    (hregisters : registers s' = registers s) : Taking s₀ a s' loose where
  inv := h.inv.sameShape hshape
  besides := h.besides.trans hshape.besides
  returned := (congrArg (fun r => r.2.1) hregisters).trans h.returned

theorem perm (h : Taking s₀ a s loose) (hperm : loose.Perm loose') : Taking s₀ a s loose' :=
  { h with inv := h.inv.perm hperm }

theorem mapUser (h : Taking s₀ (some p) s loose) (hp : s.live p = true) :
    Taking s₀ (some p) (paeMapPageInto s (.user p) v e) loose where
  inv := h.inv.paeMapPageInto_mapped.inv h.inv (show s.exists? (.user p) = true from hp)
  besides := h.besides.trans (h.inv.paeMapPageInto_mapped.besides h.inv hp)
  returned := (congrArg (fun r => r.2.1) h.inv.paeMapPageInto_mapped.registers).trans h.returned

theorem create (h : Taking s₀ none s loose) (heq : paeCreateUserPdpt s = (some p, s')) :
    Taking s₀ (some p) s' loose ∧ s'.live p = true ∧ ¬ s₀.live p = true ∧ 0 < p := by
  rcases h.inv.create with ⟨p', s₁, heq', hinv, s₂, r, htook, hr, rfl, hpos, hfree, -⟩ |
      ⟨s₁, heq', -⟩
  · cases heq.symm.trans heq'
    have hregistry : ∀ r', s.userPdpts r' = s₀.userPdpts r' := by
      intro r'
      rcases h.besides.userPdpts r' with heq | ⟨hnone, hnone'⟩
      · exact heq
      · exact hnone'.trans hnone.symm
    have hnot : ¬ s.live p = true := by
      intro hp
      have ho : Owns s (.pdpt p) (.phys p) := ⟨hp, rfl⟩
      exact hfree (h.inv.inUse ho)
    have hlive : ∀ {q}, q ≠ p → ((register s₂ r p).live q = true ↔ s.live q = true) := by
      intro q hq
      rw [live_iff, live_iff, ← htook.userPdpts]
      refine exists_congr fun r' => ?_
      by_cases hr' : r' = r
      · subst hr'
        rw [userPdpts_register_self, hr]
        simp [Ne.symm hq]
      · rw [userPdpts_register_ne hr']
    refine ⟨⟨hinv, ⟨htook.frames.trans h.besides.frames, ?_, ?_⟩, htook.returned.trans h.returned⟩,
      live_iff.mpr ⟨r, userPdpts_register_self⟩, ?_, hpos⟩
    · -- The other owners are as they were.
      intro σ f hσ
      rw [← h.besides.owns (by simp), ← htook.owns_iff]
      cases σ with
      | kernelPt i j => rfl
      | pdpt q =>
        have hq : q ≠ p := fun heq => hσ (by rw [heq]; rfl)
        simp only [Owns, hlive hq, htook.live]
      | pd q i | pt q i j =>
        have hq : q ≠ p := fun heq => hσ (by rw [heq]; rfl)
        simp only [Owns, hlive hq, htook.live]
        rfl
    · intro r'
      by_cases hr' : r' = r
      · subst hr'
        right
        refine ⟨?_, userPdpts_register_self⟩
        rw [← hregistry, ← htook.userPdpts]
        exact hr
      · left
        rw [userPdpts_register_ne hr', htook.userPdpts]
        exact hregistry r'
    · intro hp
      apply hnot
      rw [State.live, show s.userPdpts = s₀.userPdpts from funext hregistry]
      exact hp
  · cases heq.symm.trans heq'

end Taking

/-! ## Giving back -/

/-- Frames were taken since `s₀`, and some returned. -/
structure Giving (s₀ : State) (a : Option Nat) (s : State) (loose : List Frame) : Prop where
  inv : Inv s loose
  besides : Besides a s₀ s
  gave : GaveBack s₀ s

theorem Taking.giving (h : Taking s₀ a s loose) : Giving s₀ a s loose :=
  ⟨h.inv, h.besides, [], h.returned, List.nodup_nil, by simp⟩

namespace Giving

theorem freed {fs : List Frame} (h : Giving s₀ a s (fs ++ loose)) :
    Giving s₀ a (fs.foldl paeFreeUserPt s) loose where
  inv := h.inv.giveAll
  besides := h.besides.trans ((intact_freed fs).besides (frames_freed fs))
  gave := h.gave.freed h.inv

theorem sameShape (h : Giving s₀ a s loose) (hshape : SameShape s s')
    (hregisters : registers s' = registers s) : Giving s₀ a s' loose where
  inv := h.inv.sameShape hshape
  besides := h.besides.trans hshape.besides
  gave := by
    obtain ⟨fs, hreturned, hnodup, hfree⟩ := h.gave
    refine ⟨fs, (congrArg (fun r => r.2.1) hregisters).trans hreturned, hnodup, ?_⟩
    intro f hf hused
    exact hfree f hf (hshape.inUse_iff.mp hused)

theorem free (h : Giving s₀ (some p) s loose) (hp : s.live p = true) (hnew : ¬ s₀.live p = true) :
    Giving s₀ none (paeFreeUserPdpt s p) loose := by
  have hgone : ¬ (unregister s p).live p = true := fun hlive => (live_unregister.mp hlive).2 rfl
  have hnone : ∀ {s : State} {σ f}, ¬ s.live p = true → σ.space = .user p → ¬ Owns s σ f := by
    intro s σ f hnot hσ ho
    cases σ with
    | kernelPt i j => cases hσ
    | pdpt q | pd q i | pt q i j =>
      cases hσ
      exact hnot ho.1
  have hbesides : Besides none s₀ (unregister s p) := by
    refine ⟨h.besides.frames, ?_, ?_⟩
    · intro σ f _
      by_cases hσ : σ.space = .user p
      · exact iff_of_false (hnone hgone hσ) (hnone hnew hσ)
      · rw [owns_unregister, h.besides.owns fun heq => hσ (Option.some.inj heq).symm]
        exact and_iff_left hσ
    · intro r
      left
      simp only [unregister]
      rcases h.besides.userPdpts r with heq | ⟨hnone, hsome⟩
      · rw [if_neg, heq]
        intro hr
        exact hnew (live_iff.mpr ⟨r, heq.symm.trans hr⟩)
      · rw [if_pos hsome, hnone]
  have hinv := h.inv.unregister hp
  have hgave : GaveBack s₀ (unregister s p) := by
    obtain ⟨fs, hreturned, hnodup, hfree⟩ := h.gave
    refine ⟨fs, hreturned, hnodup, ?_⟩
    intro f hf hused
    refine hfree f hf ?_
    cases f <;> exact hused
  rw [paeFreeUserPdpt_eq]
  exact freed ⟨hinv, hbesides, hgave⟩

/-- With the address space gone, what is in use is what was in use before. -/
theorem restored (h : Giving s₀ none s loose) (h₀ : Inv s₀ loose) :
    (∀ f, s.InUse f ↔ s₀.InUse f) ∧ s.userPdpts = s₀.userPdpts ∧ GaveBack s₀ s := by
  have howns : ∀ {σ f}, Owns s σ f ↔ Owns s₀ σ f := h.besides.owns (by simp)
  have hkeep : ∀ {s₁ s₂ : State} {f}, Inv s₁ loose → Inv s₂ loose →
      (∀ {σ f}, Owns s₁ σ f → Owns s₂ σ f) → s₁.InUse f → s₂.InUse f := by
    intro s₁ s₂ f h₁ h₂ hsub hf
    rcases h₁.owned hf with hl | ⟨σ, ho⟩
    · exact h₂.looseInUse hl
    · exact h₂.inUse (hsub ho)
  refine ⟨fun f => ⟨?_, ?_⟩, ?_, h.gave⟩
  · exact hkeep h.inv h₀ howns.mp
  · exact hkeep h₀ h.inv howns.mpr
  · funext r
    rcases h.besides.userPdpts r with heq | ⟨hnone, hnone'⟩
    · exact heq
    · exact hnone'.trans hnone.symm

end Giving

/-- Making an address space fails, and what it took is returned. -/
theorem Taking.create_fails (h : Taking s₀ none s loose) (heq : paeCreateUserPdpt s = (none, s')) :
    Giving s₀ none s' loose := by
  rcases h.inv.create with ⟨p', s₁, heq', -⟩ | ⟨s₁, heq', hinv, hintact, hframes, hgave⟩
  · cases heq.symm.trans heq'
  · cases heq.symm.trans heq'
    refine ⟨hinv, h.besides.trans (hintact.besides hframes), ?_⟩
    rw [GaveBack, ← h.returned]
    exact hgave

/-- An address space that is made, mapped into in any way, with any allocation failing, and given up
leaves in use what was in use before. -/
theorem address_space_gives_back_what_it_took {s₁ : State} {events : List Event}
    {answers : List (Option Nat)} (hboot : Booted s₀) (hrun : Run Step s₀ events s)
    (hcreate : paeCreateUserPdpt { s with answers := answers } = (some p, s₁))
    (maps : List (Page × Pte × List (Option Nat))) :
    let s₂ := maps.foldl
      (fun s m => paeMapPageInto { s with answers := m.2.2 } (.user p) m.1 m.2.1) s₁
    (∀ f, (paeFreeUserPdpt s₂ p).InUse f ↔ s.InUse f) ∧
      (paeFreeUserPdpt s₂ p).userPdpts = s.userPdpts := by
  intro s₂
  have hinv := hboot.run hrun
  obtain ⟨hmade, hlive, hnew, -⟩ :=
    ((Taking.refl hinv none).sameShape (sameShape_answers answers) rfl).create hcreate
  have hend : Taking s (some p) s₂ [] ∧ s₂.live p = true := by
    refine List.foldlRecOn (motive := fun s₂ => Taking s (some p) s₂ [] ∧ s₂.live p = true) maps _
      ⟨hmade, hlive⟩ ?_
    rintro t ⟨htaking, hlive⟩ m -
    have h := htaking.sameShape (sameShape_answers m.2.2) rfl
    refine ⟨h.mapUser hlive, ?_⟩
    rw [live_congr h.inv.paeMapPageInto_mapped.registers]
    exact hlive
  obtain ⟨hused, hregistry, -⟩ := (hend.1.giving.free hend.2 hnew).restored hinv
  exact ⟨hused, hregistry⟩

theorem sixteenFrames_gives_back_what_it_took :
    ∃ s₁, paeCreateUserPdpt
        { sixteenFrames with answers := [some 1, some 2, some 3, some 4, some 5] } = (some 1, s₁) ∧
      ∀ f, (paeFreeUserPdpt (paeMapPageInto { s₁ with answers := [some 6] } (.user 1)
        (.ofNumber 9) (identityPte 9)) 1).InUse f ↔ sixteenFrames.InUse f := by
  obtain ⟨s₁, hcreate⟩ : ∃ s₁, paeCreateUserPdpt
      { sixteenFrames with answers := [some 1, some 2, some 3, some 4, some 5] } = (some 1, s₁) :=
    ⟨_, Prod.ext (by decide +kernel) rfl⟩
  exact ⟨s₁, hcreate, (address_space_gives_back_what_it_took sixteenFrames_booted (.nil _) hcreate
    [(.ofNumber 9, identityPte 9, [some 6])]).1⟩

end TinyOS.Pae
