import TinyOS.Lib.Tally
import TinyOS.Pae.Calls

/-!
# Frames over the life of address spaces

`pae_create_user_pdpt` takes five frames and gives them all back when it cannot finish;
`pae_free_user_pdpt` gives back what the address space owns. Every history of calls keeps the
invariant of `Pae.Ownership`, so what is in use has one owner and nothing is returned twice.
-/

namespace TinyOS.Pae

open Lib List

variable {s s' : State} {f g t : Frame} {p q : Nat} {loose : List Frame}

/-! ## Creating -/

/-- The same address spaces, with the same contents. -/
structure Intact (s s' : State) : Prop where
  kernelPd : s'.kernelPd = s.kernelPd
  userPdpts : s'.userPdpts = s.userPdpts
  mem : ∀ {σ f}, Owns s σ f → s'.mem f = s.mem f

namespace Intact

theorem refl (s : State) : Intact s s := ⟨rfl, rfl, fun _ => rfl⟩

variable (h : Intact s s')

include h

theorem live : s'.live = s.live := by
  funext p
  rw [State.live, State.live, h.userPdpts]

theorem pdFrame (hp : s.live p = true) : s'.pdFrame p = s.pdFrame p := by
  have ho : Owns s (.pdpt p) (.phys p) := ⟨hp, rfl⟩
  exact pdFrame_congr (h.mem ho)

theorem pde {space : Space} (hspace : s.exists? space = true) : s'.pde space = s.pde space := by
  funext i j
  cases space with
  | kernel => exact congrFun (congrFun h.kernelPd i) j
  | user p =>
    have ho : Owns s (.pd p i) (.phys (s.pdFrame p i)) := ⟨hspace, rfl⟩
    rw [State.pde, State.pde, h.pdFrame hspace]
    exact congrFun (pd_congr (h.mem ho)) j

theorem owns_iff {σ : Slot} : Owns s' σ f ↔ Owns s σ f :=
  owns_congr h.kernelPd h.live h.pdFrame h.pde

theorem trans {s₃ : State} (h' : Intact s' s₃) : Intact s s₃ where
  kernelPd := h'.kernelPd.trans h.kernelPd
  userPdpts := h'.userPdpts.trans h.userPdpts
  mem ho := (h'.mem (h.owns_iff.mpr ho)).trans (h.mem ho)

end Intact

theorem intact_freed (fs : List Frame) : Intact s (fs.foldl paeFreeUserPt s) := by
  obtain ⟨hmem, hkernel, hpdpts⟩ := freed_frame (s := s) fs
  exact ⟨hkernel, hpdpts, fun _ => congrFun hmem _⟩

theorem intact_mark (b : Bool) (f : Frame) : Intact s (s.mark b f) := by
  cases f <;> exact ⟨rfl, rfl, fun _ => rfl⟩

theorem intact_answers (rest : List (Option Nat)) : Intact s { s with answers := rest } :=
  ⟨rfl, rfl, fun _ => rfl⟩

theorem Inv.intact_setLoose (h : Inv s loose) (hf : f ∈ loose) (c : Content) :
    Intact s (s.setTable f c) := by
  refine ⟨rfl, rfl, ?_⟩
  intro σ g ho
  apply mem_setTable_ne
  rintro rfl
  exact h.looseFree hf ho

/-- What is in use is known from the owners, when nothing is loose. -/
theorem Inv.inUse_iff (h : Inv s []) : s.InUse f ↔ ∃ σ, Owns s σ f := by
  constructor
  · exact fun hf => (h.owned hf).resolve_left (by simp)
  · exact fun ⟨σ, ho⟩ => h.inUse ho

theorem Intact.inUse_iff (hsame : Intact s s') (h : Inv s []) (h' : Inv s' []) :
    s'.InUse f ↔ s.InUse f := by
  rw [h.inUse_iff, h'.inUse_iff]
  exact exists_congr fun σ => hsame.owns_iff

/-- Frames were taken, and nothing was returned. -/
structure Took (s s' : State) : Prop extends Intact s s' where
  frames : s'.frames = s.frames
  returned : s'.returned = s.returned

theorem Took.refl (s : State) : Took s s := ⟨Intact.refl s, rfl, rfl⟩

theorem Took.trans {s₁ s₂ s₃ : State} (h : Took s₁ s₂) (h' : Took s₂ s₃) : Took s₁ s₃ :=
  ⟨h.toIntact.trans h'.toIntact, h'.frames.trans h.frames, h'.returned.trans h.returned⟩

theorem took_answers (rest : List (Option Nat)) : Took s { s with answers := rest } :=
  ⟨intact_answers rest, rfl, rfl⟩

theorem took_mark (b : Bool) (f : Frame) : Took s (s.mark b f) := by
  cases f <;> exact ⟨intact_mark b _, rfl, rfl⟩

theorem Inv.took_setLoose (h : Inv s loose) (hf : f ∈ loose) (c : Content) :
    Took s (s.setTable f c) :=
  ⟨h.intact_setLoose hf c, rfl, rfl⟩

/-- Frames were returned, each once, and are free. -/
def GaveBack (s s' : State) : Prop :=
  ∃ fs, s'.returned = fs ++ s.returned ∧ fs.Nodup ∧ ∀ f ∈ fs, ¬ s'.InUse f

theorem Took.gaveBack (h : Took s s') : GaveBack s s' := ⟨[], h.returned, nodup_nil, by simp⟩

/-- Loose frames are returned, when others may have been before. -/
theorem GaveBack.freed {fs : List Frame} (h : GaveBack s s') (hinv : Inv s' (fs ++ loose)) :
    GaveBack s (fs.foldl paeFreeUserPt s') := by
  obtain ⟨before, hreturned, hnodup, hfree⟩ := h
  refine ⟨fs.reverse ++ before, ?_, ?_, ?_⟩
  · rw [returned_freed, hreturned, append_assoc]
  · refine nodup_append.mpr
      ⟨nodup_reverse.mpr (nodup_append.mp hinv.nodup).1, hnodup, ?_⟩
    rintro f hf g hg rfl
    exact hfree f hg (hinv.looseInUse (mem_append_left _ (mem_reverse.mp hf)))
  · intro f hf
    rw [inUse_freed]
    rintro ⟨hused, hnot⟩
    rcases mem_append.mp hf with hf | hf
    · exact hnot (mem_reverse.mp hf)
    · exact hfree f hf hused

theorem frames_freed (fs : List Frame) : (fs.foldl paeFreeUserPt s).frames = s.frames := by
  refine foldlRecOn (motive := fun s' : State => s'.frames = s.frames) fs _ rfl fun s₁ h f _ => ?_
  cases f <;> exact h

/-- The memory manager's frame was free and is loose, or nothing happened. -/
theorem Inv.pmmAlloc (h : Inv s loose) :
    (∃ n s', pmmAlloc s = (some n, s') ∧ Inv s' (.phys n :: loose) ∧ Took s s' ∧ 0 < n ∧
      n < s.frames ∧ ¬ s.InUse (.phys n)) ∨
    ∃ s', pmmAlloc s = (none, s') ∧ Inv s' loose ∧ Took s s' := by
  rcases pmmAlloc_cases s with ⟨n, rest, -, hpos, hlt, htaken, heq⟩ | ⟨rest, heq⟩
  · have hfree : ¬ ({ s with answers := rest } : State).InUse (.phys n) := by
      simp [State.InUse, htaken]
    refine .inl ⟨n, _, heq, (h.sameShape (sameShape_answers rest)).take hfree, ?_, hpos, hlt, hfree⟩
    exact (took_answers rest).trans (took_mark true _)
  · exact .inr ⟨_, heq, h.sameShape (sameShape_answers rest), took_answers rest⟩

/-- The directories are taken, or those that were are returned. -/
theorem Inv.allocPds {n : Nat} {pds : List Nat} (h : Inv s (pds.map Frame.phys ++ loose)) :
    (∃ pds' s', allocPds n s pds = (some pds', s') ∧ pds'.length = pds.length + n ∧
      Inv s' (pds'.map Frame.phys ++ loose) ∧ Took s s') ∨
    ∃ s', allocPds n s pds = (none, s') ∧ Inv s' loose ∧ Intact s s' ∧ s'.frames = s.frames ∧
      GaveBack s s' := by
  induction n generalizing s pds with
  | zero => exact .inl ⟨pds, s, rfl, rfl, h, Took.refl _⟩
  | succ n ih =>
    simp only [Pae.allocPds]
    rcases h.pmmAlloc with ⟨m, s₁, heq, hinv, htook, -⟩ | ⟨s₁, heq, hinv, htook⟩
    · rw [heq]
      have hperm : Inv s₁ ((pds ++ [m]).map Frame.phys ++ loose) := by
        apply hinv.perm
        rw [map_append, append_assoc]
        exact perm_middle.symm
      rcases ih hperm with
        ⟨pds', s', heq', hlen, hinv', htook'⟩ | ⟨s', heq', hinv', hintact, hframes, hgave⟩
      · refine .inl ⟨pds', s', heq', ?_, hinv', htook.trans htook'⟩
        rw [hlen, length_append, length_singleton]
        omega
      · refine .inr ⟨s', heq', hinv', htook.toIntact.trans hintact, hframes.trans htook.frames, ?_⟩
        rw [GaveBack, ← htook.returned]
        exact hgave
    · rw [heq]
      have hfold : pds.foldl pmmFree s₁ = (pds.map Frame.phys).foldl paeFreeUserPt s₁ := by
        rw [foldl_map]
        rfl
      simp only [hfold]
      refine .inr ⟨_, rfl, hinv.giveAll, htook.toIntact.trans (intact_freed _), ?_,
        htook.gaveBack.freed hinv⟩
      rw [frames_freed, htook.frames]

/-- A PDPT and its four directories, none of them entered anywhere yet. -/
structure Prepared (s : State) (p : Nat) (pds : Fin paePdptEntries → Nat) (loose : List Frame) :
    Prop where
  inv : Inv s loose
  pdpt : s.mem (.phys p) = .pdpt pds
  mem : ∀ i, .phys (pds i) ∈ loose
  inj : Function.Injective pds
  ne : ∀ i, pds i ≠ p

variable {pds : Fin paePdptEntries → Nat}

theorem Prepared.pdFrame (h : Prepared s p pds loose) : s.pdFrame p = pds := by
  funext i
  rw [State.pdFrame, h.pdpt]

theorem Prepared.fill (h : Prepared s p pds loose) (i : Fin paePdptEntries) (c : Content) :
    Prepared (s.setTable (.phys (pds i)) c) p pds loose :=
  { h with
    inv := h.inv.sameShape (h.inv.sameShape_setLoose (h.mem i) c)
    pdpt := by
      rw [mem_setTable_ne, h.pdpt]
      exact fun heq => h.ne i (Frame.phys.inj heq).symm }

theorem Prepared.fillPds (h : Prepared s p pds loose) :
    Prepared (fillPds s p) p pds loose ∧ Took s (fillPds s p) ∧
      (fillPds s p).kernelPd = s.kernelPd ∧
      ∀ i, (fillPds s p).mem (.phys (pds i)) = .pd (s.kernelPd i) := by
  -- A directory that is filled stays filled: the others are other frames.
  have hloop : ∀ (is : List (Fin paePdptEntries)) (s₁ : State), Prepared s₁ p pds loose →
      let s' := is.foldl (fun s i => s.setTable (.phys (s.pdFrame p i)) (.pd (s.kernelPd i))) s₁
      Prepared s' p pds loose ∧ Took s₁ s' ∧ s'.kernelPd = s₁.kernelPd ∧
        ∀ i, i ∈ is ∨ s₁.mem (.phys (pds i)) = .pd (s₁.kernelPd i) →
          s'.mem (.phys (pds i)) = .pd (s₁.kernelPd i) := by
    intro is
    induction is with
    | nil =>
      intro s₁ h₁
      refine ⟨h₁, Took.refl _, rfl, ?_⟩
      rintro i (hi | hi)
      · cases hi
      · exact hi
    | cons k is ih =>
      intro s₁ h₁
      rw [foldl_cons, h₁.pdFrame]
      have hfill := h₁.fill k (.pd (s₁.kernelPd k))
      obtain ⟨hprep, hsame, hkernel, hmem⟩ := ih _ hfill
      have howners : Took s₁ (s₁.setTable (.phys (pds k)) (.pd (s₁.kernelPd k))) :=
        h₁.inv.took_setLoose (h₁.mem k) _
      refine ⟨hprep, howners.trans hsame, hkernel, ?_⟩
      intro i hi
      apply hmem
      by_cases hik : i = k
      · right
        rw [hik, mem_setTable_self]
        rfl
      · rcases hi with hi | hi
        · exact .inl ((mem_cons.mp hi).resolve_left hik)
        · right
          rw [mem_setTable_ne]
          · exact hi
          · exact fun heq => hik (h₁.inj (Frame.phys.inj heq))
  obtain ⟨hprep, hsame, hkernel, hmem⟩ := hloop (List.finRange paePdptEntries) s h
  exact ⟨hprep, hsame, hkernel, fun i => hmem i (.inl (mem_finRange i))⟩

def register (s : State) (r : Fin paeMaxUserPdpts) (p : Nat) : State :=
  { s with userPdpts := Function.update s.userPdpts r (some p) }

/-- The frames of an address space without tables of its own. -/
def bareFrames (p : Nat) (pds : Fin paePdptEntries → Nat) : List Frame :=
  (List.finRange paePdptEntries).map (fun i => .phys (pds i)) ++ [.phys p]

theorem mem_bareFrames :
    f ∈ bareFrames p pds ↔ f = .phys p ∨ ∃ i, f = .phys (pds i) := by
  simp [bareFrames, or_comm, eq_comm]

theorem userPdpts_register_self {r : Fin paeMaxUserPdpts} :
    (register s r p).userPdpts r = some p :=
  Function.update_self ..

theorem userPdpts_register_ne {r r' : Fin paeMaxUserPdpts} (h : r' ≠ r) :
    (register s r p).userPdpts r' = s.userPdpts r' :=
  Function.update_of_ne h ..

section register

variable {r : Fin paeMaxUserPdpts}
  (h : Prepared s p pds (bareFrames p pds ++ loose))
  (hpds : ∀ i, s.mem (.phys (pds i)) = .pd (s.kernelPd i))

include h

theorem Prepared.not_live : ¬ s.live p = true := by
  intro hlive
  have ho : Owns s (.pdpt p) (.phys p) := ⟨hlive, rfl⟩
  exact h.inv.looseFree (mem_append_left _ (mem_bareFrames.mpr (.inl rfl))) ho

theorem Prepared.live_register (hr : s.userPdpts r = none) :
    (register s r p).live q = true ↔ s.live q = true ∨ q = p := by
  simp only [live_iff]
  constructor
  · rintro ⟨r', hr'⟩
    by_cases hrr : r' = r
    · subst hrr
      exact .inr (Option.some.inj (userPdpts_register_self.symm.trans hr')).symm
    · exact .inl ⟨r', (userPdpts_register_ne hrr).symm.trans hr'⟩
  · rintro (⟨r', hr'⟩ | rfl)
    · refine ⟨r', (userPdpts_register_ne ?_).trans hr'⟩
      rintro rfl
      cases hr.symm.trans hr'
    · exact ⟨r, userPdpts_register_self⟩

include hpds

theorem Prepared.pde (i : Fin paePdptEntries) (j : Fin paePdEntries) :
    s.pde (.user p) i j = s.kernelPd i j := by
  rw [State.pde, h.pdFrame, State.pd, hpds]

theorem Prepared.owns_register (hr : s.userPdpts r = none) {σ : Slot} :
    Owns (register s r p) σ f ↔
      Owns s σ f ∨ (σ = .pdpt p ∧ f = .phys p) ∨ ∃ i, σ = .pd p i ∧ f = .phys (pds i) := by
  have hnot := h.not_live
  cases σ with
  | kernelPt i j => simp [Owns, register]
  | pdpt q =>
    simp only [Owns, h.live_register hr, Slot.pdpt.injEq, reduceCtorEq, false_and, exists_false,
      or_false]
    constructor
    · rintro ⟨hq | rfl, hf⟩
      · exact .inl ⟨hq, hf⟩
      · exact .inr ⟨rfl, hf⟩
    · rintro (⟨hq, hf⟩ | ⟨rfl, hf⟩)
      · exact ⟨.inl hq, hf⟩
      · exact ⟨.inr rfl, hf⟩
  | pd q i =>
    have hframe : (register s r p).pdFrame = s.pdFrame := rfl
    simp only [Owns, h.live_register hr, hframe, reduceCtorEq, false_and, false_or,
      Slot.pd.injEq]
    constructor
    · rintro ⟨hq | rfl, hf⟩
      · exact .inl ⟨hq, hf⟩
      · rw [h.pdFrame] at hf
        exact .inr ⟨i, ⟨rfl, rfl⟩, hf⟩
    · rintro (⟨hq, hf⟩ | ⟨i', ⟨rfl, rfl⟩, hf⟩)
      · exact ⟨.inl hq, hf⟩
      · refine ⟨.inr rfl, ?_⟩
        rw [h.pdFrame]
        exact hf
  | pt q i j =>
    have hpde : (register s r p).pde (.user q) = s.pde (.user q) := rfl
    have hkernel : (register s r p).kernelPd = s.kernelPd := rfl
    simp only [Owns, h.live_register hr, hpde, hkernel, reduceCtorEq, false_and, exists_false,
      or_false]
    constructor
    · rintro ⟨hq | rfl, hp, hk⟩
      · exact ⟨hq, hp, hk⟩
      · rw [h.pde hpds] at hp
        exact absurd hp hk
    · rintro ⟨hq, hrest⟩
      exact ⟨.inl hq, hrest⟩

theorem Prepared.register (hr : s.userPdpts r = none) : Inv (register s r p) loose := by
  have hinv := h.inv
  have hloose : ∀ {σ f}, f ∈ bareFrames p pds → ¬ Owns s σ f := fun hf =>
    hinv.looseFree (mem_append_left _ hf)
  have hnodup := nodup_append.mp hinv.nodup
  have hused : ∀ {f}, (Pae.register s r p).InUse f ↔ s.InUse f := fun {f} => by
    cases f <;> rfl
  have hnew : ∀ {σ f}, Owns (Pae.register s r p) σ f →
      Owns s σ f ∨ f ∈ bareFrames p pds ∧
        ((σ = .pdpt p ∧ f = .phys p) ∨ ∃ i, σ = .pd p i ∧ f = .phys (pds i)) := by
    intro σ f ho
    rcases (h.owns_register hpds hr).mp ho with ho | hnew
    · exact .inl ho
    · refine .inr ⟨mem_bareFrames.mpr ?_, hnew⟩
      rcases hnew with ⟨-, hf⟩ | ⟨i, -, hf⟩
      · exact .inl hf
      · exact .inr ⟨i, hf⟩
  constructor
  case unique =>
    intro σ σ' f h₁ h₂
    rcases hnew h₁ with h₁ | ⟨hf, h₁⟩
    · rcases hnew h₂ with h₂ | ⟨hf, -⟩
      · exact hinv.unique h₁ h₂
      · exact absurd h₁ (hloose hf)
    · rcases hnew h₂ with h₂ | ⟨-, h₂⟩
      · exact absurd h₂ (hloose hf)
      · rcases h₁ with ⟨rfl, rfl⟩ | ⟨i, rfl, rfl⟩
        · rcases h₂ with ⟨rfl, -⟩ | ⟨i, rfl, hi⟩
          · rfl
          · exact absurd (Frame.phys.inj hi).symm (h.ne i)
        · rcases h₂ with ⟨rfl, hi⟩ | ⟨i', rfl, hi⟩
          · exact absurd (Frame.phys.inj hi) (h.ne i)
          · rw [h.inj (Frame.phys.inj hi)]
  case inUse =>
    intro σ f ho
    rcases hnew ho with ho | ⟨hf, -⟩
    · exact hused.mpr (hinv.inUse ho)
    · exact hused.mpr (hinv.looseInUse (mem_append_left _ hf))
  case looseInUse =>
    intro f hf
    exact hused.mpr (hinv.looseInUse (mem_append_right _ hf))
  case looseFree =>
    intro f σ hf ho
    rcases hnew ho with ho | ⟨hbare, -⟩
    · exact hinv.looseFree (mem_append_right _ hf) ho
    · exact hnodup.2.2 f hbare f hf rfl
  case nodup => exact hnodup.2.1
  case owned =>
    intro f hf
    rcases hinv.owned (hused.mp hf) with hl | ⟨σ, ho⟩
    · rcases mem_append.mp hl with hl | hl
      · right
        rcases mem_bareFrames.mp hl with rfl | ⟨i, rfl⟩
        · exact ⟨.pdpt p, (h.owns_register hpds hr).mpr (.inr (.inl ⟨rfl, rfl⟩))⟩
        · exact ⟨.pd p i, (h.owns_register hpds hr).mpr (.inr (.inr ⟨i, rfl, rfl⟩))⟩
      · exact .inl hl
    · exact .inr ⟨σ, (h.owns_register hpds hr).mpr (.inl ho)⟩
  case pdpt =>
    intro q hq
    rcases (h.live_register hr).mp hq with hq | rfl
    · exact hinv.pdpt hq
    · exact ⟨pds, h.pdpt⟩
  case pd =>
    intro q hq i
    rcases (h.live_register hr).mp hq with hq | rfl
    · exact hinv.pd hq i
    · refine ⟨s.kernelPd i, ?_⟩
      show s.mem (.phys (s.pdFrame q i)) = _
      rw [h.pdFrame]
      exact hpds i
  case pt =>
    intro space i j t hspace hpde
    cases space with
    | kernel => exact hinv.pt (show s.exists? .kernel = true from rfl) hpde
    | user q =>
      have hpde' : s.pde (.user q) i j = some t := hpde
      rcases (h.live_register hr).mp hspace with hq | rfl
      · exact hinv.pt (show s.exists? (.user q) = true from hq) hpde'
      · rw [h.pde hpds] at hpde'
        exact hinv.pt (show s.exists? .kernel = true from rfl) hpde'
  case once =>
    intro r₁ r₂ q
    refine Lib.once_step (fun _ _ _ => hinv.once) (fun _ => userPdpts_register_ne) ?_ r₁ r₂ q
    -- The PDPT was in no other place of the registry.
    intro q hq r' _ hr'
    cases userPdpts_register_self.symm.trans hq
    exact h.not_live (live_iff.mpr ⟨r', hr'⟩)
  case mapped => exact hinv.mapped

end register

theorem unregister_of_not_live (h : ¬ s.live p = true) : unregister s p = s := by
  have hregistry : (fun r => if s.userPdpts r = some p then none else s.userPdpts r) =
      s.userPdpts := by
    funext r
    rw [if_neg]
    exact fun hr => h (live_iff.mpr ⟨r, hr⟩)
  rw [unregister, hregistry]

/-- An address space without tables of its own gives back its five frames. -/
theorem Prepared.framesOf {pds : Fin paePdptEntries → Nat}
    (h : Prepared s p pds (bareFrames p pds ++ loose))
    (hpds : ∀ i, s.mem (.phys (pds i)) = .pd (s.kernelPd i)) :
    framesOf s p = bareFrames p pds := by
  have hshared : ∀ i j, frameAt s (.pt p i j) = none := by
    intro i j
    rw [frameAt, h.pde hpds]
    split
    · rfl
    · rename_i t ht
      rw [if_pos ht]
  have hdir : ∀ i, frameAt s (.pd p i) = some (.phys (pds i)) := by
    intro i
    rw [frameAt, h.pdFrame]
  have htables : ∀ i, ((List.finRange paePdEntries).map (Slot.pt p i)).filterMap (frameAt s) =
      [] := by
    intro i
    rw [filterMap_eq_nil_iff]
    intro σ hσ
    obtain ⟨j, -, rfl⟩ := mem_map.mp hσ
    exact hshared i j
  have hpdpt : frameAt s (.pdpt p) = some (.phys p) := rfl
  simp only [Pae.framesOf, slotsOf, bareFrames, filterMap_append, filterMap_flatMap,
    htables, filterMap_cons_some (hdir _), filterMap_cons_some hpdpt, filterMap_nil,
    nil_append]
  rw [map_eq_flatMap]

theorem Inv.prepare {pds : List Nat} (h : Inv s (pds.map Frame.phys ++ .phys p :: loose))
    (hlen : pds.length = paePdptEntries) :
    Prepared (s.setTable (.phys p) (.pdpt fun i => pds.getD i 0)) p (fun i => pds.getD i 0)
      (bareFrames p (fun i => pds.getD i 0) ++ loose) := by
  have hlist : pds =
      (List.finRange paePdptEntries).map fun i : Fin paePdptEntries => pds.getD i 0 := by
    apply ext_getElem
    · simp [hlen]
    · intro k hk hk'
      simp [hk]
  have hframes : pds.map Frame.phys ++ .phys p :: loose =
      bareFrames p (fun i : Fin paePdptEntries => pds.getD i 0) ++ loose := by
    conv_lhs => rw [hlist, map_map]
    rfl
  rw [hframes] at h
  have hmem : ∀ {f}, f ∈ bareFrames p (fun i : Fin paePdptEntries => pds.getD i 0) →
      f ∈ bareFrames p (fun i : Fin paePdptEntries => pds.getD i 0) ++ loose :=
    mem_append_left _
  have hnodup := nodup_append.mp (nodup_append.mp h.nodup).1
  constructor
  case inv => exact h.sameShape (h.sameShape_setLoose (hmem (mem_bareFrames.mpr (.inl rfl))) _)
  case pdpt => exact mem_setTable_self _
  case mem => exact fun i => hmem (mem_bareFrames.mpr (.inr ⟨i, rfl⟩))
  case inj =>
    intro i j hij
    exact inj_on_of_nodup_map hnodup.1 (mem_finRange i) (mem_finRange j)
      (congrArg Frame.phys hij)
  case ne =>
    intro i heq
    exact hnodup.2.2 _ (mem_map_of_mem (mem_finRange i)) _ mem_cons_self
      (congrArg Frame.phys heq)

/-- Creating an address space leaves the others alone, and leaves nothing behind when it fails. The new
one begins with the kernel's tables. -/
theorem Inv.create (h : Inv s loose) :
    (∃ p s', paeCreateUserPdpt s = (some p, s') ∧ Inv s' loose ∧
      ∃ s₁ r, Took s s₁ ∧ s₁.userPdpts r = none ∧ s' = register s₁ r p ∧ 0 < p ∧
        ¬ s.InUse (.phys p) ∧ ∀ i j, s₁.pde (.user p) i j = s₁.kernelPd i j) ∨
    ∃ s', paeCreateUserPdpt s = (none, s') ∧ Inv s' loose ∧ Intact s s' ∧ s'.frames = s.frames ∧
      GaveBack s s' := by
  simp only [paeCreateUserPdpt]
  rcases h.pmmAlloc with ⟨p, s₁, heq, hinv, htook, hpos, -, hfree⟩ | ⟨s₁, heq, hinv, htook⟩
  · simp only [heq]
    have hbase : Inv s₁ (([] : List Nat).map Frame.phys ++ .phys p :: loose) := hinv
    rcases hbase.allocPds (n := paePdptEntries) with
      ⟨pds, s₂, heq₂, hlen, hinv₂, htook₂⟩ | ⟨s₂, heq₂, hinv₂, hintact, hframes, hgave⟩
    · simp only [heq₂]
      have hp : Frame.phys p ∈ pds.map Frame.phys ++ .phys p :: loose :=
        mem_append_right _ mem_cons_self
      obtain ⟨hprep, hfill, hkernel, hpds⟩ := (hinv₂.prepare (by simpa using hlen)).fillPds
      have htook₃ := ((htook.trans htook₂).trans (hinv₂.took_setLoose hp _)).trans hfill
      rw [← hkernel] at hpds
      generalize fillPds (s₂.setTable (.phys p) (.pdpt fun i => pds.getD i 0)) p = s₃
        at hprep hpds htook₃
      split
      · -- The registry is full.
        rw [paeFreeUserPdpt_eq, unregister_of_not_live hprep.not_live, hprep.framesOf hpds]
        refine .inr ⟨_, rfl, hprep.inv.giveAll, htook₃.toIntact.trans (intact_freed _), ?_,
          htook₃.gaveBack.freed hprep.inv⟩
        rw [frames_freed, htook₃.frames]
      · rename_i r hfind
        have hr : s₃.userPdpts r = none := by simpa using find?_some hfind
        exact .inl ⟨p, _, rfl, hprep.register hpds hr, s₃, r, htook₃, hr, rfl, hpos, hfree,
          hprep.pde hpds⟩
    · simp only [heq₂]
      have hgave' : GaveBack s s₂ := by
        rw [GaveBack, ← htook.returned]
        exact hgave
      have hone : Inv s₂ ([.phys p] ++ loose) := hinv₂
      refine .inr ⟨_, rfl, hinv₂.give.returned _, ?_, hframes.trans htook.frames, hgave'.freed hone⟩
      exact (htook.toIntact.trans hintact).trans (intact_freed [.phys p])
  · simp only [heq]
    exact .inr ⟨s₁, rfl, hinv, htook.toIntact, htook.frames, htook.gaveBack⟩

/-! ## Histories -/

/-- One call. -/
def Step (s : State) (event : Event) (s' : State) : Prop := step s event = some s'

theorem Inv.step {event : Event} (h : Inv s []) (hstep : Step s event s') : Inv s' [] := by
  cases event with
  | create answers =>
    rw [← Option.some.inj hstep]
    have h₁ := h.sameShape (sameShape_answers answers)
    rcases h₁.create with ⟨p, s', heq, hinv, -⟩ | ⟨s', heq, hinv, -⟩
    · rw [heq]
      exact hinv
    · rw [heq]
      exact hinv
  | free p =>
    obtain ⟨hp, heq⟩ := Option.ite_none_right_eq_some.mp hstep
    rw [← Option.some.inj heq]
    exact h.free hp
  | map space v e answers =>
    obtain ⟨hspace, heq⟩ := Option.ite_none_right_eq_some.mp hstep
    rw [← Option.some.inj heq]
    have h₁ := h.sameShape (sameShape_answers answers)
    exact h₁.paeMapPageInto_mapped.inv h₁ hspace
  | unmap space v =>
    obtain ⟨hspace, heq⟩ := Option.ite_none_right_eq_some.mp hstep
    rw [← Option.some.inj heq]
    exact h.unmap hspace
  | sealMemory space start size =>
    obtain ⟨hspace, heq⟩ := Option.ite_none_right_eq_some.mp hstep
    rw [← Option.some.inj heq]
    exact h.sameShape (h.sealMemory hspace start size)
  | sync phys =>
    rw [← Option.some.inj hstep]
    exact h.sameShape (h.sync phys)

/-- The state after `pae_init`: the kernel has a table for every page of memory, each in one place,
and there is no user address space. -/
structure Booted (s : State) : Prop where
  userPdpts : ∀ r, s.userPdpts r = none
  isPt : ∀ {i j t}, s.kernelPd i j = some t → s.IsPt t
  once : ∀ {i j i' j' t}, s.kernelPd i j = some t → s.kernelPd i' j' = some t → i = i' ∧ j = j'
  inUse : ∀ f, s.InUse f ↔ ∃ i j, s.kernelPd i j = some f
  mapped : ∀ n < s.frames, ∃ t, s.kernelPd (Page.ofNumber n).pdpt (Page.ofNumber n).pd = some t

theorem Booted.not_live (h : Booted s) : ¬ s.live p = true := by
  rw [live_iff]
  rintro ⟨r, hr⟩
  cases (h.userPdpts r).symm.trans hr

theorem Booted.owns (h : Booted s) {σ : Slot} (ho : Owns s σ f) :
    ∃ i j, σ = .kernelPt i j ∧ s.kernelPd i j = some f := by
  cases σ with
  | kernelPt i j => exact ⟨i, j, rfl, ho⟩
  | pdpt p | pd p i | pt p i j => exact absurd ho.1 h.not_live

theorem Booted.inv (h : Booted s) : Inv s [] where
  unique h₁ h₂ := by
    obtain ⟨i, j, rfl, hij⟩ := h.owns h₁
    obtain ⟨i', j', rfl, hij'⟩ := h.owns h₂
    obtain ⟨rfl, rfl⟩ := h.once hij hij'
    rfl
  inUse ho := by
    obtain ⟨i, j, -, hij⟩ := h.owns ho
    exact (h.inUse _).mpr ⟨i, j, hij⟩
  looseInUse hf := by cases hf
  looseFree hf := by cases hf
  nodup := nodup_nil
  owned hf := by
    obtain ⟨i, j, hij⟩ := (h.inUse _).mp hf
    exact .inr ⟨.kernelPt i j, hij⟩
  pdpt hp := absurd hp h.not_live
  pd hp := absurd hp h.not_live
  pt {space _ _ _} hspace hpde := by
    cases space with
    | kernel => exact h.isPt hpde
    | user p => exact absurd hspace h.not_live
  once h₁ := by cases (h.userPdpts _).symm.trans h₁
  mapped := h.mapped

theorem Booted.run {s₀ : State} {events : List Event} (h : Booted s₀) (hrun : Run Step s₀ events s) :
    Inv s [] := by
  apply hrun.invariant _ h.inv
  intro s event s' hinv hstep
  exact hinv.step hstep

/-! ## Owners -/

/-- The frame is one of those of the address space. -/
def BelongsTo (s : State) (f : Frame) (space : Space) : Prop :=
  ∃ σ : Slot, σ.space = space ∧ Owns s σ f

/-- The processor or the code can come to the frame from the address space. -/
def Reaches (s : State) : Space → Frame → Prop
  | .kernel, f => ∃ i j, s.kernelPd i j = some f
  | .user p, f =>
    f = .phys p ∨ (∃ i, f = .phys (s.pdFrame p i)) ∨ ∃ i j, s.pde (.user p) i j = some f

/-- What an address space reaches is its own or the kernel's. -/
theorem reaches_belongs {space : Space} (hspace : s.exists? space = true)
    (h : Reaches s space f) : BelongsTo s f space ∨ BelongsTo s f .kernel := by
  cases space with
  | kernel =>
    obtain ⟨i, j, hij⟩ := h
    exact .inl ⟨.kernelPt i j, rfl, hij⟩
  | user p =>
    rcases h with rfl | ⟨i, rfl⟩ | ⟨i, j, hij⟩
    · exact .inl ⟨.pdpt p, rfl, hspace, rfl⟩
    · exact .inl ⟨.pd p i, rfl, hspace, rfl⟩
    · rcases pde_owner hspace hij with ho | ho
      · exact .inr ⟨_, rfl, ho⟩
      · exact .inl ⟨_, rfl, ho⟩

theorem Inv.belongs_unique {space space' : Space} (h : Inv s loose) (h₁ : BelongsTo s f space)
    (h₂ : BelongsTo s f space') : space = space' := by
  obtain ⟨σ, rfl, ho⟩ := h₁
  obtain ⟨σ', rfl, ho'⟩ := h₂
  rw [h.unique ho ho']

/-- Giving an address space up returns its frames, each once, and no frame that is reached from
elsewhere. -/
structure GivesUpItsOwn (s : State) (p : Nat) (fs : List Frame) : Prop where
  returned : (paeFreeUserPdpt s p).returned = fs ++ s.returned
  nodup : fs.Nodup
  mem : ∀ f, f ∈ fs ↔ BelongsTo s f (.user p)
  inUse : ∀ f, (paeFreeUserPdpt s p).InUse f ↔ s.InUse f ∧ f ∉ fs
  unreached : ∀ f ∈ fs, ∀ space, s.exists? space = true → space ≠ .user p → ¬ Reaches s space f

theorem Inv.givesUpItsOwn (h : Inv s []) (hp : s.live p = true) :
    GivesUpItsOwn s p (framesOf s p).reverse where
  returned := by
    rw [paeFreeUserPdpt_eq, returned_freed]
    rfl
  nodup := nodup_reverse.mpr (h.nodup_framesOf hp)
  mem f := by
    rw [mem_reverse]
    exact mem_framesOf hp
  inUse f := by
    rw [paeFreeUserPdpt_eq, inUse_freed, mem_reverse]
    cases f <;> rfl
  unreached f hf space hspace hne hreach := by
    have hown : BelongsTo s f (.user p) := (mem_framesOf hp).mp (mem_reverse.mp hf)
    rcases reaches_belongs hspace hreach with hb | hb
    · exact hne (h.belongs_unique hb hown)
    · cases h.belongs_unique hb hown

theorem page_table_frames_have_one_owner {s₀ : State} {events : List Event} (hboot : Booted s₀)
    (hrun : Run Step s₀ events s) :
    (∀ f, s.InUse f → ∃! space, s.exists? space = true ∧ BelongsTo s f space) ∧
    (∀ p, s.live p = true → ∃ fs, GivesUpItsOwn s p fs) ∧
    (∀ answers s', paeCreateUserPdpt { s with answers := answers } = (none, s') →
      ∀ f, s'.InUse f ↔ s.InUse f) := by
  have hinv := hboot.run hrun
  refine ⟨?_, ?_, ?_⟩
  · intro f hf
    obtain ⟨σ, ho⟩ := hinv.inUse_iff.mp hf
    refine ⟨σ.space, ⟨?_, σ, rfl, ho⟩, ?_⟩
    · cases σ with
      | kernelPt i j => rfl
      | pdpt p => exact ho.1
      | pd p i => exact ho.1
      | pt p i j => exact ho.1
    · rintro space ⟨-, hb⟩
      exact hinv.belongs_unique hb ⟨σ, rfl, ho⟩
  · intro p hp
    exact ⟨_, hinv.givesUpItsOwn hp⟩
  · intro answers s' hfail f
    have h₁ := hinv.sameShape (sameShape_answers answers)
    rcases h₁.create with ⟨p, s₁, heq, -⟩ | ⟨s₁, heq, hinv₁, hintact, -⟩
    · cases hfail.symm.trans heq
    · cases hfail.symm.trans heq
      have hsame := hintact.inUse_iff (f := f) h₁ hinv₁
      rw [hsame]
      cases f <;> rfl

/-! ## A machine with sixteen frames -/

/-- One table of the kernel covers all memory. -/
def sixteenFrames : State where
  mem := fun f => if f = .pool 0 then .pt fun k => identityPte k else .unknown
  kernelPd := fun i j => if i = 0 ∧ j = 0 then some (.pool 0) else none
  used := fun i => i == 0
  taken := fun _ => false
  frames := 16
  answers := []
  userPdpts := fun _ => none
  returned := []

theorem sixteenFrames_kernelPd {i : Fin paePdptEntries} {j : Fin paePdEntries}
    (h : sixteenFrames.kernelPd i j = some t) : i = 0 ∧ j = 0 ∧ t = .pool 0 := by
  simp only [sixteenFrames] at h
  split at h
  · rename_i hij
    exact ⟨hij.1, hij.2, (Option.some.inj h).symm⟩
  · cases h

theorem sixteenFrames_booted : Booted sixteenFrames where
  userPdpts _ := rfl
  isPt h := by
    obtain ⟨-, -, rfl⟩ := sixteenFrames_kernelPd h
    exact ⟨fun k => identityPte k, rfl⟩
  once h h' := by
    obtain ⟨rfl, rfl, -⟩ := sixteenFrames_kernelPd h
    obtain ⟨rfl, rfl, -⟩ := sixteenFrames_kernelPd h'
    exact ⟨rfl, rfl⟩
  inUse f := by
    constructor
    · intro hf
      cases f with
      | pool i =>
        have hi : i = 0 := by simpa [State.InUse, sixteenFrames] using hf
        subst hi
        exact ⟨0, 0, rfl⟩
      | phys n => cases hf
    · rintro ⟨i, j, h⟩
      obtain ⟨-, -, rfl⟩ := sixteenFrames_kernelPd h
      rfl
  mapped n hn := by
    have hall : ∀ n < 16, sixteenFrames.kernelPd (Page.ofNumber n).pdpt (Page.ofNumber n).pd =
        some (.pool 0) := by decide
    exact ⟨.pool 0, hall n hn⟩

/-- A user page: `PRESENT | READWRITE | USER`. -/
def userPte (n : Nat) : Pte := ⟨n, { present := true, readwrite := true, user := true }⟩

/-- An address space is created and a page is mapped in it, over a page of the kernel. -/
def createAndMap : List Event :=
  [.create [some 1, some 2, some 3, some 4, some 5], .map (.user 1) (.ofNumber 9) (userPte 12) []]

theorem private_table_is_given_back :
    ∃ s, Run Step sixteenFrames createAndMap s ∧ s.live 1 = true ∧
      s.pde (.user 1) 0 0 = some (.pool 1) ∧ ∃ fs, GivesUpItsOwn s 1 fs := by
  have hend : ((createAndMap.foldlM step sixteenFrames).any fun s =>
      s.live 1 && decide (s.pde (.user 1) 0 0 = some (.pool 1))) = true := by decide +kernel
  obtain ⟨s, hs, hok⟩ := (Option.any_eq_true _ _).mp hend
  simp only [Bool.and_eq_true, decide_eq_true_eq] at hok
  have hrun : Run Step sixteenFrames createAndMap s := Run.of_foldlM_some hs
  exact ⟨s, hrun, hok.1, hok.2,
    (page_table_frames_have_one_owner sixteenFrames_booted hrun).2.1 1 hok.1⟩

end TinyOS.Pae
