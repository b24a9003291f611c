import TinyOS.Pae.Tables

/-!
# Who owns a page-table frame

Every frame that is in use as a page table, a page directory or a PDPT has one owner: a place in the
kernel's directories or a place in one user address space. Ownership is not recorded. A user's table
is its own when the kernel's directory does not name it in the same place.

The invariant `Inv` speaks of a state in the middle of a call: `loose` are the frames that the call
has taken and not yet entered anywhere, or has already taken out.
-/

namespace TinyOS.Pae

open Function List State

variable {s s' : State} {f g t : Frame} {p q : Nat} {loose : List Frame}

/-! ## Places -/

/-- The places where a frame can be entered. -/
inductive Slot
  | kernelPt (i : Fin paePdptEntries) (j : Fin paePdEntries)
  | pdpt (p : Nat)
  | pd (p : Nat) (i : Fin paePdptEntries)
  | pt (p : Nat) (i : Fin paePdptEntries) (j : Fin paePdEntries)
  deriving DecidableEq

/-- The address space that a place belongs to. -/
def Slot.space : Slot → Space
  | .kernelPt _ _ => .kernel
  | .pdpt p => .user p
  | .pd p _ => .user p
  | .pt p _ _ => .user p

/-- The frame is entered there, and belongs there: a table that the kernel's directory names in the
same place is the kernel's. -/
def Owns (s : State) : Slot → Frame → Prop
  | .kernelPt i j, f => s.kernelPd i j = some f
  | .pdpt p, f => s.live p = true ∧ f = .phys p
  | .pd p i, f => s.live p = true ∧ f = .phys (s.pdFrame p i)
  | .pt p i j, f => s.live p = true ∧ s.pde (.user p) i j = some f ∧ s.kernelPd i j ≠ some f

def State.InUse (s : State) : Frame → Prop
  | .pool i => s.used i = true
  | .phys n => s.taken n = true

/-- The frame holds page-table entries. -/
def State.IsPt (s : State) (f : Frame) : Prop := ∃ entries, s.mem f = .pt entries

structure Inv (s : State) (loose : List Frame) : Prop where
  unique : ∀ {σ σ' f}, Owns s σ f → Owns s σ' f → σ = σ'
  inUse : ∀ {σ f}, Owns s σ f → s.InUse f
  looseInUse : ∀ {f}, f ∈ loose → s.InUse f
  looseFree : ∀ {f σ}, f ∈ loose → ¬ Owns s σ f
  nodup : loose.Nodup
  owned : ∀ {f}, s.InUse f → f ∈ loose ∨ ∃ σ, Owns s σ f
  pdpt : ∀ {p}, s.live p = true → ∃ e, s.mem (.phys p) = .pdpt e
  pd : ∀ {p}, s.live p = true → ∀ i, ∃ d, s.mem (.phys (s.pdFrame p i)) = .pd d
  pt : ∀ {space i j t}, s.exists? space = true → s.pde space i j = some t → s.IsPt t
  once : ∀ {r r' p}, s.userPdpts r = some p → s.userPdpts r' = some p → r = r'
  /-- The kernel has a table for every page of memory. -/
  mapped : ∀ n < s.frames, ∃ t, s.kernelPd (Page.ofNumber n).pdpt (Page.ofNumber n).pd = some t

theorem live_iff : s.live p = true ↔ ∃ r, s.userPdpts r = some p := by
  simp [live]

/-- A table that an address space names is the kernel's or its own. -/
theorem pde_owner (hlive : s.live p = true) {i : Fin paePdptEntries} {j : Fin paePdEntries}
    (h : s.pde (.user p) i j = some t) : Owns s (.kernelPt i j) t ∨ Owns s (.pt p i j) t := by
  by_cases hk : s.kernelPd i j = some t
  · exact .inl hk
  · exact .inr ⟨hlive, h, hk⟩

theorem pde_owned {space : Space} (hspace : s.exists? space = true) {i : Fin paePdptEntries}
    {j : Fin paePdEntries} (h : s.pde space i j = some t) : ∃ σ, Owns s σ t := by
  cases space with
  | kernel => exact ⟨.kernelPt i j, h⟩
  | user p =>
    rcases pde_owner hspace h with ho | ho
    · exact ⟨_, ho⟩
    · exact ⟨_, ho⟩

/-! ## Reading and writing tables -/

@[simp] theorem mem_setTable_self (c : Content) : (s.setTable f c).mem f = c := by
  simp [setTable]

theorem mem_setTable_ne (h : g ≠ f) (c : Content) : (s.setTable f c).mem g = s.mem g := by
  simp [setTable, h]

@[simp] theorem pt_setTable_self (entries : Fin paePtEntries → Pte) :
    (s.setTable f (.pt entries)).pt f = entries := by
  simp [pt]

theorem pt_setTable_ne (h : g ≠ f) (c : Content) : (s.setTable f c).pt g = s.pt g := by
  rw [pt, mem_setTable_ne h, pt]

theorem pdFrame_congr (h : s'.mem (.phys p) = s.mem (.phys p)) : s'.pdFrame p = s.pdFrame p := by
  funext i
  rw [pdFrame, pdFrame, h]

theorem pd_congr {m : Nat} (h : s'.mem (.phys m) = s.mem (.phys m)) : s'.pd m = s.pd m := by
  rw [pd, pd, h]

/-- What two states agree on when they differ in the entries of page tables, and in frames that are
entered nowhere. -/
structure SameShape (s s' : State) : Prop where
  kernelPd : s'.kernelPd = s.kernelPd
  used : s'.used = s.used
  taken : s'.taken = s.taken
  frames : s'.frames = s.frames
  userPdpts : s'.userPdpts = s.userPdpts
  /-- What holds directories or directory pointers is as it was. -/
  mem : ∀ {σ f}, Owns s σ f → s.IsPt f ∨ s'.mem f = s.mem f
  isPt : ∀ {σ f}, Owns s σ f → s.IsPt f → s'.IsPt f

theorem sameShape_setPt (h : s.IsPt f) (entries : Fin paePtEntries → Pte) :
    SameShape s (s.setTable f (.pt entries)) where
  kernelPd := rfl
  used := rfl
  taken := rfl
  frames := rfl
  userPdpts := rfl
  mem {_ g} _ := by
    by_cases hg : g = f
    · exact .inl (hg ▸ h)
    · exact .inr (mem_setTable_ne hg _)
  isPt {_ g} _ hg := by
    by_cases hgf : g = f
    · exact ⟨entries, by rw [hgf, mem_setTable_self]⟩
    · obtain ⟨e, he⟩ := hg
      exact ⟨e, by rw [mem_setTable_ne hgf, he]⟩

theorem Inv.sameShape_setLoose (h : Inv s loose) (hf : f ∈ loose) (c : Content) :
    SameShape s (s.setTable f c) where
  kernelPd := rfl
  used := rfl
  taken := rfl
  frames := rfl
  userPdpts := rfl
  mem {_ g} hg := by
    right
    apply mem_setTable_ne
    rintro rfl
    exact h.looseFree hf hg
  isPt {_ g} hg hpt := by
    obtain ⟨e, he⟩ := hpt
    refine ⟨e, ?_⟩
    rw [mem_setTable_ne, he]
    rintro rfl
    exact h.looseFree hf hg

theorem sameShape_answers (answers : List (Option Nat)) :
    SameShape s { s with answers := answers } :=
  ⟨rfl, rfl, rfl, rfl, rfl, fun _ => .inr rfl, fun _ h => h⟩

theorem owns_congr {σ : Slot} (hkernel : s'.kernelPd = s.kernelPd) (hlive : s'.live = s.live)
    (hframe : ∀ {p}, s.live p = true → s'.pdFrame p = s.pdFrame p)
    (hpde : ∀ {space}, s.exists? space = true → s'.pde space = s.pde space) :
    Owns s' σ f ↔ Owns s σ f := by
  cases σ with
  | kernelPt i j => simp only [Owns, hkernel]
  | pdpt p => simp only [Owns, hlive]
  | pd p i =>
    simp only [Owns, hlive]
    refine and_congr_right fun hp => ?_
    rw [hframe hp]
  | pt p i j =>
    simp only [Owns, hlive, hkernel]
    refine and_congr_right fun hp => ?_
    have hspace : s.exists? (.user p) = true := hp
    rw [hpde hspace]

namespace SameShape

variable (h : SameShape s s')

include h

theorem live : s'.live = s.live := by
  funext p
  rw [State.live, State.live, h.userPdpts]

theorem exists_eq : s'.exists? = s.exists? := by
  funext space
  cases space with
  | kernel => rfl
  | user p => rw [exists?, exists?, h.live]

theorem pdFrame (hp : s.live p = true) : s'.pdFrame p = s.pdFrame p := by
  have ho : Owns s (.pdpt p) (.phys p) := ⟨hp, rfl⟩
  funext i
  rcases h.mem ho with ⟨e, he⟩ | heq
  · obtain ⟨e', he'⟩ := h.isPt ho ⟨e, he⟩
    simp only [State.pdFrame, he, he']
  · simp only [State.pdFrame, heq]

theorem pde {space : Space} (hspace : s.exists? space = true) : s'.pde space = s.pde space := by
  funext i j
  cases space with
  | kernel => exact congrFun (congrFun h.kernelPd i) j
  | user p =>
    have ho : Owns s (.pd p i) (.phys (s.pdFrame p i)) := ⟨hspace, rfl⟩
    rw [State.pde, State.pde, h.pdFrame hspace]
    rcases h.mem ho with ⟨e, he⟩ | heq
    · obtain ⟨e', he'⟩ := h.isPt ho ⟨e, he⟩
      simp only [pd, he, he']
    · simp only [pd, heq]

theorem owns_iff {σ : Slot} : Owns s' σ f ↔ Owns s σ f :=
  owns_congr h.kernelPd h.live h.pdFrame h.pde

theorem inUse_iff : s'.InUse f ↔ s.InUse f := by
  cases f <;> simp only [State.InUse, h.used, h.taken]

end SameShape

theorem not_isPt_of_pdpt {e : Fin paePdptEntries → Nat} (h : s.mem f = .pdpt e) : ¬ s.IsPt f := by
  rintro ⟨e', he'⟩
  rw [h] at he'
  cases he'

theorem not_isPt_of_pd {d : Fin paePdEntries → Option Frame} (h : s.mem f = .pd d) :
    ¬ s.IsPt f := by
  rintro ⟨e', he'⟩
  rw [h] at he'
  cases he'

theorem Inv.sameShape (hinv : Inv s loose) (h : SameShape s s') : Inv s' loose where
  unique h₁ h₂ := hinv.unique (h.owns_iff.mp h₁) (h.owns_iff.mp h₂)
  inUse h₁ := h.inUse_iff.mpr (hinv.inUse (h.owns_iff.mp h₁))
  looseInUse h₁ := h.inUse_iff.mpr (hinv.looseInUse h₁)
  looseFree h₁ h₂ := hinv.looseFree h₁ (h.owns_iff.mp h₂)
  nodup := hinv.nodup
  owned h₁ := by
    rcases hinv.owned (h.inUse_iff.mp h₁) with hl | ⟨σ, hσ⟩
    · exact .inl hl
    · exact .inr ⟨σ, h.owns_iff.mpr hσ⟩
  pdpt {p} hp := by
    rw [h.live] at hp
    obtain ⟨e, he⟩ := hinv.pdpt hp
    have ho : Owns s (.pdpt p) (.phys p) := ⟨hp, rfl⟩
    exact ⟨e, ((h.mem ho).resolve_left (not_isPt_of_pdpt he)).trans he⟩
  pd {p} hp i := by
    rw [h.live] at hp
    obtain ⟨d, hd⟩ := hinv.pd hp i
    have ho : Owns s (.pd p i) (.phys (s.pdFrame p i)) := ⟨hp, rfl⟩
    rw [h.pdFrame hp]
    exact ⟨d, ((h.mem ho).resolve_left (not_isPt_of_pd hd)).trans hd⟩
  pt {space i j t} hspace hpde := by
    rw [h.exists_eq] at hspace
    rw [h.pde hspace] at hpde
    obtain ⟨σ, hσ⟩ := pde_owned hspace hpde
    exact h.isPt hσ (hinv.pt hspace hpde)
  once h₁ h₂ := by
    rw [h.userPdpts] at h₁ h₂
    exact hinv.once h₁ h₂
  mapped n hn := by
    rw [h.frames] at hn
    rw [h.kernelPd]
    exact hinv.mapped n hn

/-! ## Taking and returning frames -/

/-- Mark a frame as used or as free. -/
def State.mark (s : State) (b : Bool) : Frame → State
  | .pool i => { s with used := update s.used i b }
  | .phys n => { s with taken := update s.taken n b }

theorem pde_mark (b : Bool) : (s.mark b f).pde = s.pde := by
  funext space
  cases f <;> cases space <;> rfl

theorem exists_mark (b : Bool) : (s.mark b f).exists? = s.exists? := by
  funext space
  cases f <;> cases space <;> rfl

theorem kernelPd_mark (b : Bool) : (s.mark b f).kernelPd = s.kernelPd := by
  cases f <;> rfl

theorem isPt_mark (b : Bool) : (s.mark b f).IsPt g ↔ s.IsPt g := by
  cases f <;> rfl

theorem owns_mark {b : Bool} {σ : Slot} : Owns (s.mark b f) σ g ↔ Owns s σ g := by
  cases f <;> cases σ <;> rfl

theorem inUse_mark_self {b : Bool} : (s.mark b f).InUse f ↔ b = true := by
  cases f <;> simp [mark, State.InUse]

theorem inUse_mark_ne {b : Bool} (h : g ≠ f) : (s.mark b f).InUse g ↔ s.InUse g := by
  cases f <;> cases g <;> simp_all [mark, State.InUse, update]

/-- The parts of the invariant that are not about which frames are used. -/
theorem Inv.mark_parts (h : Inv s loose) (b : Bool) (f : Frame) {loose' : List Frame}
    (inUse : ∀ {σ g}, Owns s σ g → (s.mark b f).InUse g)
    (looseInUse : ∀ {g}, g ∈ loose' → (s.mark b f).InUse g)
    (looseFree : ∀ {g σ}, g ∈ loose' → ¬ Owns s σ g) (nodup : loose'.Nodup)
    (owned : ∀ {g}, (s.mark b f).InUse g → g ∈ loose' ∨ ∃ σ, Owns s σ g) :
    Inv (s.mark b f) loose' where
  unique h₁ h₂ := h.unique (owns_mark.mp h₁) (owns_mark.mp h₂)
  inUse h₁ := inUse (owns_mark.mp h₁)
  looseInUse := looseInUse
  looseFree h₁ h₂ := looseFree h₁ (owns_mark.mp h₂)
  nodup := nodup
  owned h₁ := by
    rcases owned h₁ with hl | ⟨σ, hσ⟩
    · exact .inl hl
    · exact .inr ⟨σ, owns_mark.mpr hσ⟩
  pdpt := by cases f <;> exact h.pdpt
  pd := by cases f <;> exact h.pd
  pt {space _ _ _} hspace hpde := by
    rw [exists_mark] at hspace
    rw [pde_mark] at hpde
    exact (isPt_mark _).mpr (h.pt hspace hpde)
  once := by cases f <;> exact h.once
  mapped := by cases f <;> exact h.mapped

theorem Inv.take (h : Inv s loose) (hf : ¬ s.InUse f) : Inv (s.mark true f) (f :: loose) := by
  have hkeep : ∀ {g}, s.InUse g → (s.mark true f).InUse g := by
    intro g hg
    refine (inUse_mark_ne ?_).mpr hg
    rintro rfl
    exact hf hg
  apply h.mark_parts
  case inUse => exact fun ho => hkeep (h.inUse ho)
  case looseInUse =>
    intro g hg
    rcases mem_cons.mp hg with rfl | hg
    · exact inUse_mark_self.mpr rfl
    · exact hkeep (h.looseInUse hg)
  case looseFree =>
    intro g σ hg ho
    rcases mem_cons.mp hg with rfl | hg
    · exact hf (h.inUse ho)
    · exact h.looseFree hg ho
  case nodup => exact nodup_cons.mpr ⟨fun hmem => hf (h.looseInUse hmem), h.nodup⟩
  case owned =>
    intro g hg
    by_cases hgf : g = f
    · exact .inl (hgf ▸ mem_cons_self)
    rcases h.owned ((inUse_mark_ne hgf).mp hg) with hl | ho
    · exact .inl (mem_cons_of_mem _ hl)
    · exact .inr ho

theorem Inv.give (h : Inv s (f :: loose)) : Inv (s.mark false f) loose := by
  have hnodup := nodup_cons.mp h.nodup
  apply h.mark_parts
  case inUse =>
    intro σ g ho
    refine (inUse_mark_ne ?_).mpr (h.inUse ho)
    rintro rfl
    exact h.looseFree mem_cons_self ho
  case looseInUse =>
    intro g hg
    refine (inUse_mark_ne ?_).mpr (h.looseInUse (mem_cons_of_mem _ hg))
    rintro rfl
    exact hnodup.1 hg
  case looseFree => exact fun hg => h.looseFree (mem_cons_of_mem _ hg)
  case nodup => exact hnodup.2
  case owned =>
    intro g hg
    have hgf : g ≠ f := by
      rintro rfl
      exact Bool.false_ne_true (inUse_mark_self.mp hg)
    rcases h.owned ((inUse_mark_ne hgf).mp hg) with hl | ho
    · rcases mem_cons.mp hl with rfl | hl
      · exact absurd rfl hgf
      · exact .inl hl
    · exact .inr ho

theorem Inv.perm {loose' : List Frame} (h : Inv s loose) (hperm : loose.Perm loose') :
    Inv s loose' :=
  { h with
    looseInUse := fun hf => h.looseInUse (hperm.mem_iff.mpr hf)
    looseFree := fun hf => h.looseFree (hperm.mem_iff.mpr hf)
    nodup := hperm.nodup_iff.mp h.nodup
    owned := fun hf => (h.owned hf).imp_left hperm.mem_iff.mp }

theorem Inv.returned (h : Inv s loose) (returned : List Frame) :
    Inv { s with returned := returned } loose :=
  h.sameShape ⟨rfl, rfl, rfl, rfl, rfl, fun _ => .inr rfl, fun _ hpt => hpt⟩

theorem paeFreeUserPt_eq :
    paeFreeUserPt s f = { s.mark false f with returned := f :: s.returned } := by
  cases f <;> rfl

theorem Inv.giveAll {fs : List Frame} (h : Inv s (fs ++ loose)) :
    Inv (fs.foldl paeFreeUserPt s) loose := by
  induction fs generalizing s with
  | nil => exact h
  | cons f fs ih =>
    apply ih
    rw [paeFreeUserPt_eq]
    exact h.give.returned _

/-! ## Entering a table -/

/-- The place that a directory entry of an address space is. -/
def Space.slot : Space → Fin paePdptEntries → Fin paePdEntries → Slot
  | .kernel, i, j => .kernelPt i j
  | .user p, i, j => .pt p i j

section link

variable {space : Space} {i : Fin paePdptEntries} {j : Fin paePdEntries}

/-- The frames of two directories, or of a directory and a PDPT, are different. -/
theorem Inv.pdFrame_inj (h : Inv s loose) (hp : s.live p = true) (hq : s.live q = true)
    {i i' : Fin paePdptEntries} (heq : s.pdFrame q i' = s.pdFrame p i) : q = p ∧ i' = i := by
  have hpo : Owns s (.pd p i) (.phys (s.pdFrame p i)) := ⟨hp, rfl⟩
  have hqo : Owns s (.pd q i') (.phys (s.pdFrame p i)) := ⟨hq, by rw [heq]⟩
  cases h.unique hqo hpo
  exact ⟨rfl, rfl⟩

theorem Inv.pdFrame_ne_pdpt (h : Inv s loose) (hp : s.live p = true) (hq : s.live q = true) :
    Frame.phys q ≠ .phys (s.pdFrame p i) := by
  intro heq
  have hpo : Owns s (.pd p i) (.phys q) := ⟨hp, heq⟩
  have hqo : Owns s (.pdpt q) (.phys q) := ⟨hq, rfl⟩
  cases h.unique hqo hpo

theorem Inv.pdFrame_setPde (h : Inv s loose) (hspace : s.exists? space = true)
    (hq : s.live q = true) : (s.setPde space i j t).pdFrame q = s.pdFrame q := by
  cases space with
  | kernel => rfl
  | user p =>
    apply pdFrame_congr
    exact mem_setTable_ne (h.pdFrame_ne_pdpt hspace hq) _

theorem kernelPd_setPde_kernel (i' : Fin paePdptEntries) (j' : Fin paePdEntries) :
    (s.setPde .kernel i j t).kernelPd i' j' =
      if i' = i ∧ j' = j then some t else s.kernelPd i' j' := by
  simp only [setPde]
  by_cases hi : i' = i
  · subst hi
    rw [update_self]
    by_cases hj : j' = j
    · rw [hj, update_self, if_pos ⟨rfl, rfl⟩]
    · rw [update_of_ne hj, if_neg fun hij => hj hij.2]
  · rw [update_of_ne hi, if_neg fun hij => hi hij.1]

/-- Only the entry that is written changes, in the directory that is written. -/
theorem Inv.pde_setPde_user (h : Inv s loose) (hp : s.live p = true) (hq : s.live q = true)
    (i' : Fin paePdptEntries) (j' : Fin paePdEntries) :
    (s.setPde (.user p) i j t).pde (.user q) i' j' =
      if q = p ∧ i' = i ∧ j' = j then some t else s.pde (.user q) i' j' := by
  have hframe : (s.setPde (.user p) i j t).pdFrame q = s.pdFrame q :=
    h.pdFrame_setPde (show s.exists? (.user p) = true from hp) hq
  rw [pde, hframe]
  by_cases hdir : s.pdFrame q i' = s.pdFrame p i
  · obtain ⟨rfl, rfl⟩ := h.pdFrame_inj hp hq hdir
    simp only [State.setPde, State.pd, mem_setTable_self, State.pde, true_and]
    by_cases hj : j' = j
    · rw [hj, update_self, if_pos rfl]
    · rw [update_of_ne hj, if_neg hj]
  · have hne : Frame.phys (s.pdFrame q i') ≠ .phys (s.pdFrame p i) := fun heq =>
      hdir (Frame.phys.inj heq)
    rw [if_neg]
    · exact congrFun (pd_congr (mem_setTable_ne hne _)) j'
    · rintro ⟨rfl, rfl, -⟩
      exact hdir rfl

theorem Inv.pde_setPde (h : Inv s loose) (hspace : s.exists? space = true) {space' : Space}
    (hspace' : s.exists? space' = true) (i' : Fin paePdptEntries) (j' : Fin paePdEntries) :
    (s.setPde space i j t).pde space' i' j' =
      if space' = space ∧ i' = i ∧ j' = j then some t else s.pde space' i' j' := by
  cases space with
  | kernel =>
    cases space' with
    | kernel =>
      simp only [true_and]
      exact kernelPd_setPde_kernel i' j'
    | user q => rfl
  | user p =>
    cases space' with
    | kernel => rfl
    | user q =>
      simp only [Space.user.injEq]
      exact h.pde_setPde_user hspace hspace' i' j'

/-- The entry is empty, or still the kernel's. -/
def Vacant (s : State) (space : Space) (i : Fin paePdptEntries) (j : Fin paePdEntries) : Prop :=
  s.pde space i j = none ∨ (space ≠ .kernel ∧ s.pde space i j = s.kernelPd i j)

theorem Vacant.not_owns (h : Vacant s space i j) : ¬ Owns s (space.slot i j) f := by
  intro ho
  cases space with
  | kernel =>
    rcases h with hnone | ⟨hne, -⟩
    · cases hnone.symm.trans ho
    · exact hne rfl
  | user p =>
    obtain ⟨-, hpde, hpriv⟩ := ho
    rcases h with hnone | ⟨-, hshared⟩
    · cases hnone.symm.trans hpde
    · exact hpriv (hshared.symm.trans hpde)

theorem kernelPd_setPde_user : (s.setPde (.user p) i j t).kernelPd = s.kernelPd := rfl

theorem live_setPde : (s.setPde space i j t).live = s.live := by
  cases space <;> rfl

theorem exists_setPde : (s.setPde space i j t).exists? = s.exists? := by
  cases space <;> rfl

theorem inUse_setPde : (s.setPde space i j t).InUse f ↔ s.InUse f := by
  cases space <;> cases f <;> rfl

/-- Entering a loose table gives the place its owner and takes nothing from another place. -/
theorem Inv.owns_setPde (h : Inv s (t :: loose)) (hspace : s.exists? space = true)
    (hvacant : Vacant s space i j) {σ : Slot} :
    Owns (s.setPde space i j t) σ f ↔ (σ = space.slot i j ∧ f = t) ∨ Owns s σ f := by
  have hloose : ∀ {σ}, ¬ Owns s σ t := h.looseFree mem_cons_self
  cases space with
  | kernel =>
    have hnone : s.kernelPd i j = none := hvacant.resolve_right fun hk => hk.1 rfl
    cases σ with
    | kernelPt i' j' =>
      simp only [Owns, kernelPd_setPde_kernel, Space.slot, Slot.kernelPt.injEq]
      by_cases hij : i' = i ∧ j' = j
      · obtain ⟨rfl, rfl⟩ := hij
        simp [hnone, eq_comm]
      · simp [hij]
    | pdpt q => simp [Owns, Space.slot, live_setPde]
    | pd q k =>
      simp only [Owns, live_setPde, Space.slot, reduceCtorEq, false_and, false_or]
      exact Iff.rfl
    | pt q i' j' =>
      -- A user's own table stays its own: the kernel's new table is another one.
      have hkeep : s.live q = true → s.pde (.user q) i' j' = some f →
          ((s.setPde .kernel i j t).kernelPd i' j' ≠ some f ↔ s.kernelPd i' j' ≠ some f) := by
        intro hq hpde
        rw [kernelPd_setPde_kernel]
        by_cases hij : i' = i ∧ j' = j
        · obtain ⟨rfl, rfl⟩ := hij
          have hft : t ≠ f := by
            rintro rfl
            obtain ⟨σ, ho⟩ := pde_owned (show s.exists? (.user q) = true from hq) hpde
            exact hloose ho
          simp [hnone, hft]
        · rw [if_neg hij]
      constructor
      · rintro ⟨hq, hpde, hpriv⟩
        exact .inr ⟨hq, hpde, (hkeep hq hpde).mp hpriv⟩
      · rintro (⟨hslot, -⟩ | ⟨hq, hpde, hpriv⟩)
        · cases hslot
        · exact ⟨hq, hpde, (hkeep hq hpde).mpr hpriv⟩
  | user p =>
    cases σ with
    | kernelPt i' j' => simp [Owns, Space.slot, kernelPd_setPde_user]
    | pdpt q => simp [Owns, Space.slot, live_setPde]
    | pd q k =>
      simp only [Owns, live_setPde, Space.slot, reduceCtorEq, false_and, false_or]
      refine and_congr_right fun hq => ?_
      rw [h.pdFrame_setPde hspace hq]
    | pt q i' j' =>
      simp only [Owns, live_setPde, kernelPd_setPde_user, Space.slot, Slot.pt.injEq]
      by_cases hq : s.live q = true
      · rw [h.pde_setPde_user hspace hq]
        by_cases hplace : q = p ∧ i' = i ∧ j' = j
        · rw [if_pos hplace]
          obtain ⟨rfl, rfl, rfl⟩ := hplace
          have hnot : ¬ Owns s (.pt q i' j') f := hvacant.not_owns
          have hpriv : ¬ Owns s (.kernelPt i' j') t := hloose
          constructor
          · rintro ⟨-, heq, -⟩
            exact .inl ⟨⟨rfl, rfl, rfl⟩, (Option.some.inj heq).symm⟩
          · rintro (⟨-, rfl⟩ | ho)
            · exact ⟨hq, rfl, hpriv⟩
            · exact absurd ho hnot
        · rw [if_neg hplace]
          exact ⟨.inr, fun ho => ho.resolve_left fun hslot => hplace hslot.1⟩
      · constructor
        · exact fun ho => absurd ho.1 hq
        · rintro (⟨⟨rfl, -, -⟩, -⟩ | ho)
          · exact absurd hspace hq
          · exact absurd ho.1 hq

theorem Inv.mem_setPde (h : Inv s loose) (hspace : s.exists? space = true) :
    (s.setPde space i j t).mem f = s.mem f ∨
      ((∃ d, s.mem f = .pd d) ∧ ∃ d, (s.setPde space i j t).mem f = .pd d) := by
  cases space with
  | kernel => exact .inl rfl
  | user p =>
    by_cases hf : f = .phys (s.pdFrame p i)
    · subst hf
      exact .inr ⟨h.pd hspace i, _, mem_setTable_self _⟩
    · exact .inl (mem_setTable_ne hf _)

theorem Inv.isPt_setPde (h : Inv s loose) (hspace : s.exists? space = true) (hf : s.IsPt f) :
    (s.setPde space i j t).IsPt f := by
  rcases h.mem_setPde hspace with heq | ⟨⟨d, hd⟩, -⟩
  · obtain ⟨e, he⟩ := hf
    exact ⟨e, heq.trans he⟩
  · exact absurd hf (not_isPt_of_pd hd)

theorem Inv.link (h : Inv s (t :: loose)) (hspace : s.exists? space = true) (ht : s.IsPt t)
    (hvacant : Vacant s space i j) : Inv (s.setPde space i j t) loose := by
  have hloose : ∀ {σ}, ¬ Owns s σ t := h.looseFree mem_cons_self
  have hnodup := nodup_cons.mp h.nodup
  constructor
  case unique =>
    intro σ σ' f h₁ h₂
    rw [h.owns_setPde hspace hvacant] at h₁ h₂
    rcases h₁ with ⟨rfl, rfl⟩ | h₁
    · rcases h₂ with ⟨rfl, -⟩ | h₂
      · rfl
      · exact absurd h₂ hloose
    · rcases h₂ with ⟨rfl, rfl⟩ | h₂
      · exact absurd h₁ hloose
      · exact h.unique h₁ h₂
  case inUse =>
    intro σ f ho
    rw [inUse_setPde]
    rcases (h.owns_setPde hspace hvacant).mp ho with ⟨-, rfl⟩ | ho
    · exact h.looseInUse mem_cons_self
    · exact h.inUse ho
  case looseInUse => exact fun hf => inUse_setPde.mpr (h.looseInUse (mem_cons_of_mem _ hf))
  case looseFree =>
    intro f σ hf ho
    rcases (h.owns_setPde hspace hvacant).mp ho with ⟨-, rfl⟩ | ho
    · exact hnodup.1 hf
    · exact h.looseFree (mem_cons_of_mem _ hf) ho
  case nodup => exact hnodup.2
  case owned =>
    intro f hf
    rcases h.owned (inUse_setPde.mp hf) with hl | ⟨σ, ho⟩
    · rcases mem_cons.mp hl with rfl | hl
      · exact .inr ⟨_, (h.owns_setPde hspace hvacant).mpr (.inl ⟨rfl, rfl⟩)⟩
      · exact .inl hl
    · exact .inr ⟨σ, (h.owns_setPde hspace hvacant).mpr (.inr ho)⟩
  case pdpt =>
    intro q hq
    rw [live_setPde] at hq
    obtain ⟨e, he⟩ := h.pdpt hq
    rcases h.mem_setPde hspace with heq | ⟨⟨d, hd⟩, -⟩
    · exact ⟨e, heq.trans he⟩
    · cases hd.symm.trans he
  case pd =>
    intro q hq k
    rw [live_setPde] at hq
    rw [h.pdFrame_setPde hspace hq]
    obtain ⟨d, hd⟩ := h.pd hq k
    rcases h.mem_setPde hspace with heq | ⟨-, hd'⟩
    · exact ⟨d, heq.trans hd⟩
    · exact hd'
  case pt =>
    intro space' i' j' t' hspace' hpde
    rw [exists_setPde] at hspace'
    rw [h.pde_setPde hspace hspace'] at hpde
    apply h.isPt_setPde hspace
    split at hpde
    · cases hpde
      exact ht
    · exact h.pt hspace' hpde
  case once => cases space <;> exact h.once
  case mapped =>
    intro n hn
    have hframes : (s.setPde space i j t).frames = s.frames := by cases space <;> rfl
    rw [hframes] at hn
    obtain ⟨t', ht'⟩ := h.mapped n hn
    have hpde := h.pde_setPde (t := t) (i := i) (j := j) hspace
      (show s.exists? .kernel = true from rfl) (Page.ofNumber n).pdpt (Page.ofNumber n).pd
    split at hpde
    · exact ⟨_, hpde⟩
    · exact ⟨t', hpde.trans ht'⟩

end link

/-! ## Address spaces -/

/-- The places of an address space, in the order in which they are given up. -/
def slotsOf (p : Nat) : List Slot :=
  ((List.finRange paePdptEntries).flatMap fun i =>
    (List.finRange paePdEntries).map (Slot.pt p i) ++ [.pd p i]) ++ [.pdpt p]

theorem mem_slotsOf {σ : Slot} : σ ∈ slotsOf p ↔ σ.space = .user p := by
  cases σ <;> simp [slotsOf, Slot.space, eq_comm]

theorem nodup_slotsOf : (slotsOf p).Nodup := by
  rw [slotsOf, nodup_append]
  refine ⟨?_, nodup_singleton _, ?_⟩
  · rw [nodup_flatMap]
    constructor
    · intro i _
      rw [nodup_append]
      refine ⟨(nodup_finRange _).map fun _ _ h => (Slot.pt.inj h).2.2,
        nodup_singleton _, ?_⟩
      simp
    · apply (nodup_finRange _).imp
      intro i i' hne
      refine disjoint_left.mpr fun σ hσ hσ' => ?_
      simp only [mem_append, mem_map, mem_singleton] at hσ hσ'
      rcases hσ with ⟨j, -, rfl⟩ | rfl
      · rcases hσ' with ⟨j', -, heq⟩ | heq
        · exact hne (Slot.pt.inj heq).2.1.symm
        · cases heq
      · rcases hσ' with ⟨j', -, heq⟩ | heq
        · cases heq
        · exact hne (Slot.pd.inj heq).2
  · simp only [mem_flatMap, mem_append, mem_map, mem_singleton]
    rintro σ ⟨i, -, ⟨j, -, rfl⟩ | rfl⟩ σ' rfl heq
    · cases heq
    · cases heq

/-- What an address space has in a place. -/
def frameAt (s : State) : Slot → Option Frame
  | .kernelPt i j => s.kernelPd i j
  | .pdpt p => some (.phys p)
  | .pd p i => some (.phys (s.pdFrame p i))
  | .pt p i j =>
    match s.pde (.user p) i j with
    | none => none
    | some t => if s.kernelPd i j = some t then none else some t

/-- The frames of an address space, in the order in which they are returned. -/
def framesOf (s : State) (p : Nat) : List Frame := (slotsOf p).filterMap (frameAt s)

theorem frameAt_pt {i : Fin paePdptEntries} {j : Fin paePdEntries} :
    frameAt s (.pt p i j) = some f ↔ s.pde (.user p) i j = some f ∧ s.kernelPd i j ≠ some f := by
  simp only [frameAt]
  split
  · simp [*]
  rename_i t ht
  rw [ht]
  by_cases hk : s.kernelPd i j = some t
  · rw [if_pos hk]
    simp only [reduceCtorEq, Option.some.injEq, false_iff, not_and, not_not]
    rintro rfl
    exact hk
  · rw [if_neg hk]
    simp only [Option.some.injEq, ne_eq, iff_self_and]
    rintro rfl
    exact hk

theorem frameAt_iff (hp : s.live p = true) {σ : Slot} (hσ : σ.space = .user p) :
    frameAt s σ = some f ↔ Owns s σ f := by
  cases σ with
  | kernelPt i j => cases hσ
  | pdpt q | pd q i =>
    cases hσ
    simp [frameAt, Owns, hp, eq_comm]
  | pt q i j =>
    cases hσ
    rw [frameAt_pt]
    exact ⟨fun h => ⟨hp, h⟩, fun h => h.2⟩

theorem mem_framesOf (hp : s.live p = true) :
    f ∈ framesOf s p ↔ ∃ σ, σ.space = .user p ∧ Owns s σ f := by
  rw [framesOf, mem_filterMap]
  constructor
  · rintro ⟨σ, hσ, hf⟩
    have hspace := mem_slotsOf.mp hσ
    exact ⟨σ, hspace, (frameAt_iff hp hspace).mp hf⟩
  · rintro ⟨σ, hspace, ho⟩
    exact ⟨σ, mem_slotsOf.mpr hspace, (frameAt_iff hp hspace).mpr ho⟩

theorem Inv.nodup_framesOf (h : Inv s loose) (hp : s.live p = true) : (framesOf s p).Nodup := by
  rw [framesOf, List.Nodup, pairwise_filterMap]
  apply nodup_slotsOf.imp_of_mem
  rintro σ σ' hσ hσ' hne f hf f' hf' rfl
  have hspace := mem_slotsOf.mp hσ
  have hspace' := mem_slotsOf.mp hσ'
  exact hne (h.unique ((frameAt_iff hp hspace).mp hf) ((frameAt_iff hp hspace').mp hf'))

theorem live_unregister : (unregister s p).live q = true ↔ s.live q = true ∧ q ≠ p := by
  simp only [live_iff, unregister]
  constructor
  · rintro ⟨r, hr⟩
    split at hr
    · cases hr
    rename_i hne
    refine ⟨⟨r, hr⟩, ?_⟩
    rintro rfl
    exact hne hr
  · rintro ⟨⟨r, hr⟩, hne⟩
    refine ⟨r, ?_⟩
    rw [if_neg, hr]
    rw [hr]
    exact fun heq => hne (Option.some.inj heq)

theorem owns_unregister {σ : Slot} :
    Owns (unregister s p) σ f ↔ Owns s σ f ∧ σ.space ≠ .user p := by
  cases σ with
  | kernelPt i j => simp [Owns, unregister, Slot.space]
  | pdpt q =>
    simp only [Owns, live_unregister, Slot.space, ne_eq, Space.user.injEq]
    tauto
  | pd q i =>
    have hframe : (unregister s p).pdFrame = s.pdFrame := rfl
    simp only [Owns, live_unregister, hframe, Slot.space, ne_eq, Space.user.injEq]
    tauto
  | pt q i j =>
    have hpde : (unregister s p).pde (.user q) = s.pde (.user q) := rfl
    have hkernel : (unregister s p).kernelPd = s.kernelPd := rfl
    simp only [Owns, live_unregister, hpde, hkernel, Slot.space, ne_eq, Space.user.injEq]
    tauto

/-- An address space that is given up leaves its frames, all of them and no others. -/
theorem Inv.unregister (h : Inv s loose) (hp : s.live p = true) :
    Inv (unregister s p) (framesOf s p ++ loose) where
  unique h₁ h₂ := h.unique (owns_unregister.mp h₁).1 (owns_unregister.mp h₂).1
  inUse {σ f} ho := by
    have hused := h.inUse (owns_unregister.mp ho).1
    cases f <;> exact hused
  looseInUse {f} hf := by
    have hused : s.InUse f := by
      rcases mem_append.mp hf with hf | hf
      · obtain ⟨σ, -, ho⟩ := (mem_framesOf hp).mp hf
        exact h.inUse ho
      · exact h.looseInUse hf
    cases f <;> exact hused
  looseFree hf ho := by
    obtain ⟨ho, hspace⟩ := owns_unregister.mp ho
    rcases mem_append.mp hf with hf | hf
    · obtain ⟨σ, hσ, ho'⟩ := (mem_framesOf hp).mp hf
      exact hspace (h.unique ho ho' ▸ hσ)
    · exact h.looseFree hf ho
  nodup := by
    refine nodup_append.mpr ⟨h.nodup_framesOf hp, h.nodup, ?_⟩
    rintro f hf g hg rfl
    obtain ⟨σ, -, ho⟩ := (mem_framesOf hp).mp hf
    exact h.looseFree hg ho
  owned {f} hf := by
    have hused : s.InUse f := by cases f <;> exact hf
    rcases h.owned hused with hl | ⟨σ, ho⟩
    · exact .inl (mem_append_right _ hl)
    · by_cases hσ : σ.space = .user p
      · exact .inl (mem_append_left _ ((mem_framesOf hp).mpr ⟨σ, hσ, ho⟩))
      · exact .inr ⟨σ, owns_unregister.mpr ⟨ho, hσ⟩⟩
  pdpt hq := h.pdpt (live_unregister.mp hq).1
  pd hq := h.pd (live_unregister.mp hq).1
  pt {space i j t} hspace hpde := by
    cases space with
    | kernel => exact h.pt (show s.exists? .kernel = true from rfl) hpde
    | user q => exact h.pt (show s.exists? (.user q) = true from (live_unregister.mp hspace).1) hpde
  once {r r' q} h₁ h₂ := by
    simp only [Pae.unregister] at h₁ h₂
    split at h₁
    · cases h₁
    split at h₂
    · cases h₂
    · exact h.once h₁ h₂
  mapped := h.mapped

end TinyOS.Pae
