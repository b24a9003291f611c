import TinyOS.Pae.Seal

/-!
# Entries

What each call does to the entries of pages, in every address space. A page for which there is no table
has the entry zero, so that taking a table, or a copy of one, changes no entry by itself. The one entry
that mapping may write besides its own is the kernel's for a frame of memory, at the frame's own
address; `Above` says of a page that it is at the address of no frame.
-/

namespace TinyOS.Pae

open Lib State

variable {s s' : State} {f g t : Frame} {p q : Nat} {loose : List Frame} {space space' : Space}
  {v w : Page} {e e' : Pte}

/-! ## Entries of one table -/

section table

variable (h : Inv s loose) (hspace : s.exists? space = true)

include h hspace

/-- Two places that name one table are the same entry of two directories, and the table is the
kernel's unless they are one place. -/
theorem Inv.same_table (hspace' : s.exists? space' = true)
    {i i' : Fin paePdptEntries} {j j' : Fin paePdEntries}
    (ht : s.pde space i j = some t) (ht' : s.pde space' i' j' = some t) :
    i' = i ∧ j' = j ∧ (space' = space ∨ s.kernelPd i j = some t) := by
  have howner : ∀ {space i j}, s.exists? space = true → s.pde space i j = some t →
      Owns s (.kernelPt i j) t ∨ ∃ p, space = .user p ∧ Owns s (.pt p i j) t := by
    intro space i j hspace ht
    cases space with
    | kernel => exact .inl ht
    | user p => exact (pde_owner hspace ht).imp_right fun ho => ⟨p, rfl, ho⟩
  rcases howner hspace ht with ho | ⟨p, rfl, ho⟩
  · rcases howner hspace' ht' with ho' | ⟨p', rfl, ho'⟩
    · cases h.unique ho ho'
      exact ⟨rfl, rfl, .inr ho⟩
    · cases h.unique ho ho'
  · rcases howner hspace' ht' with ho' | ⟨p', rfl, ho'⟩
    · cases h.unique ho ho'
    · cases h.unique ho ho'
      exact ⟨rfl, rfl, .inl rfl⟩

/-- One entry of a table that an address space names is written. -/
theorem Inv.pte_setPte (ht : s.pde space v.pdpt v.pd = some t)
    (hspace' : s.exists? space' = true) :
    (s.setPte t v.pt e).pte space' w =
      if s.pde space' v.pdpt v.pd = some t ∧ w = v then some e else s.pte space' w := by
  have hshape := sameShape_setPte (h.pt hspace ht) v.pt e
  rw [pte, pte, hshape.pde hspace']
  by_cases hw : s.pde space' w.pdpt w.pd = some t ∧ w.pt = v.pt
  · obtain ⟨hpde, hk⟩ := hw
    obtain ⟨hi, hj, -⟩ := h.same_table hspace hspace' ht hpde
    have hwv : w = v := by
      cases w
      simp_all
    subst hwv
    rw [if_pos ⟨hpde, rfl⟩, hpde, Option.map_some, pt_setPte, if_pos ⟨rfl, rfl⟩]
  · rw [if_neg]
    · refine Option.map_congr ?_
      intro g hg
      rw [pt_setPte, if_neg]
      rintro ⟨rfl, hk⟩
      exact hw ⟨hg, hk⟩
    · rintro ⟨hpde, rfl⟩
      exact hw ⟨hpde, rfl⟩

end table

/-! ## What the processor sees -/

/-- What the processor makes of an entry. -/
def seen (e : Pte) : Option Pte := (some e).filter fun e => e.flags.present

theorem seen_present (h : e.flags.present = true) : seen e = some e := by
  simp [seen, Option.filter, h]

theorem seen_absent (h : e.flags.present = false) : seen e = none := by
  simp [seen, Option.filter, h]

theorem walk_of_pte (h : s.pte space w = some e) : s.walk space w = seen e := by
  rw [walk, h, seen]

/-- The entry for a page. -/
def State.entry (s : State) (space : Space) (v : Page) : Pte := (s.pte space v).getD .zero

theorem entry_of_pte (h : s.pte space w = some e) : s.entry space w = e := by
  rw [entry, h, Option.getD_some]

theorem entry_of_pde (h : s.pde space w.pdpt w.pd = some t) : s.entry space w = s.pt t w.pt :=
  entry_of_pte (pte_eq_some.mpr ⟨t, h, rfl⟩)

theorem entry_of_no_table (h : s.pde space w.pdpt w.pd = none) : s.entry space w = .zero := by
  rw [entry, pte, h]
  rfl

theorem entry_congr (h : s'.pte space w = s.pte space w) : s'.entry space w = s.entry space w := by
  rw [entry, entry, h]

theorem walk_eq_seen (s : State) (space : Space) (w : Page) :
    s.walk space w = seen (s.entry space w) := by
  cases hpte : s.pte space w with
  | none =>
    rw [walk, entry, hpte, Option.getD_none, seen_absent rfl]
    rfl
  | some e => rw [walk_of_pte hpte, entry_of_pte hpte]

theorem walk_congr (h : s'.entry space w = s.entry space w) : s'.walk space w = s.walk space w := by
  rw [walk_eq_seen, walk_eq_seen, h]

/-! ## Taking a table -/

/-- Every entry of every address space is as before. -/
def SameEntries (s s' : State) : Prop :=
  ∀ space w, s.exists? space = true → s'.pte space w = s.pte space w

theorem Inv.sameEntries_setLoose (h : Inv s loose) (hf : f ∈ loose) (c : Content) :
    SameEntries s (s.setTable f c) := by
  intro space w hspace
  rw [pte, pte, (h.sameShape_setLoose hf c).pde hspace]
  refine Option.map_congr ?_
  intro t ht
  rw [pt_setTable_ne]
  rintro rfl
  obtain ⟨σ, ho⟩ := pde_owned hspace ht
  exact h.looseFree hf ho

theorem sameEntries_mark (b : Bool) (f : Frame) : SameEntries s (s.mark b f) := by
  intro space w _
  rw [pte, pde_mark, pt_mark, pte]

theorem SameEntries.trans {s₁ : State} (h : SameEntries s s₁) (hspaces : s₁.exists? = s.exists?)
    (h' : SameEntries s₁ s') : SameEntries s s' := by
  intro space w hspace
  rw [h' space w (by rw [hspaces]; exact hspace), h space w hspace]

theorem Allocated.pt_zero (h : Allocated s (some f, s')) : s'.pt f = fun _ => .zero := by
  cases h with
  | pool i _ _ => exact pt_setTable_self _
  | phys n rest t _ _ _ _ _ _ => exact pt_setTable_self _

/-! ## Mapping -/

/-- A new table with the entries that the address space has is entered, and written. -/
theorem Inv.entry_enter {s₁ : State} (h : Inv s₁ (g :: loose)) (hp : s₁.live p = true)
    (hg : s₁.IsPt g) (hvacant : Vacant s₁ (.user p) v.pdpt v.pd)
    (hsame : ∀ w, w.pdpt = v.pdpt → w.pd = v.pd → s₁.pt g w.pt = s₁.entry (.user p) w)
    (hspace : s₁.exists? space = true) :
    (writePte (s₁.setPde (.user p) v.pdpt v.pd g) g v e).entry space w =
      if (space = .user p ∧ w = v) ∧ (s₁.entry (.user p) v).flags.sealed = false then e
      else s₁.entry space w := by
  have huser : s₁.exists? (.user p) = true := hp
  have hinv₂ := h.link huser hg hvacant
  have hentered : (s₁.setPde (.user p) v.pdpt v.pd g).entry space w = s₁.entry space w := by
    by_cases hplace : space = .user p ∧ w.pdpt = v.pdpt ∧ w.pd = v.pd
    · obtain ⟨rfl, hi, hj⟩ := hplace
      rw [← hsame w hi hj, ← pt_setPde h huser hg]
      apply entry_of_pde
      rw [h.pde_setPde huser huser, if_pos ⟨rfl, hi, hj⟩]
    · apply entry_congr
      rw [pte, pte, h.pde_setPde huser hspace, if_neg hplace]
      refine Option.map_congr ?_
      intro t ht
      rw [pt_setPde h huser (h.pt hspace ht)]
  have hpde₂ : (s₁.setPde (.user p) v.pdpt v.pd g).pde (.user p) v.pdpt v.pd = some g := by
    rw [h.pde_setPde huser huser, if_pos ⟨rfl, rfl, rfl⟩]
  have hpt : (s₁.setPde (.user p) v.pdpt v.pd g).pt g v.pt = s₁.entry (.user p) v := by
    rw [pt_setPde h huser hg]
    exact hsame v rfl rfl
  have huser₂ : (s₁.setPde (.user p) v.pdpt v.pd g).exists? (.user p) = true := by
    exact huser
  have hspace₂ : (s₁.setPde (.user p) v.pdpt v.pd g).exists? space = true := by
    exact hspace
  unfold writePte
  rw [hpt]
  split
  · rename_i hsealed
    rw [hentered, if_neg]
    rintro ⟨-, hopen⟩
    cases hopen.symm.trans hsealed
  · rename_i hopen
    rw [entry, hinv₂.pte_setPte huser₂ hpde₂ hspace₂]
    by_cases hplace : space = .user p ∧ w = v
    · obtain ⟨rfl, rfl⟩ := hplace
      rw [if_pos ⟨hpde₂, rfl⟩, if_pos ⟨⟨rfl, rfl⟩, by simpa using hopen⟩]
      rfl
    · rw [if_neg, if_neg fun hboth => hplace hboth.1]
      · exact hentered
      · -- Only the address space that was mapped into names the new table.
        rintro ⟨hpde, rfl⟩
        obtain ⟨-, -, hwhere⟩ := hinv₂.same_table huser₂ hspace₂ hpde₂ hpde
        rcases hwhere with rfl | hk
        · exact hplace ⟨rfl, rfl⟩
        · have ho : Owns s₁ (.kernelPt w.pdpt w.pd) g := hk
          exact h.looseFree List.mem_cons_self ho

/-- The table is the address space's own, or the place is vacant. -/
theorem own_or_vacant (s : State) (p : Nat) (v : Page) :
    (∃ t, s.pde (.user p) v.pdpt v.pd = some t ∧ s.kernelPd v.pdpt v.pd ≠ some t) ∨
      Vacant s (.user p) v.pdpt v.pd := by
  cases hpde : s.pde (.user p) v.pdpt v.pd with
  | none => exact .inr (.inl hpde)
  | some t =>
    by_cases hk : s.kernelPd v.pdpt v.pd = some t
    · exact .inr (.inr ⟨by simp, hpde.trans hk.symm⟩)
    · exact .inl ⟨t, rfl, hk⟩

/-- In a table of its own the entry is written unless it is sealed, and no other one. -/
theorem Inv.entry_private (h : Inv s loose) (hp : s.live p = true)
    (ht : s.pde (.user p) v.pdpt v.pd = some t) (hown : s.kernelPd v.pdpt v.pd ≠ some t)
    (hspace : s.exists? space = true) :
    (writePte s t v e).entry space w =
      if (space = .user p ∧ w = v) ∧ (s.entry (.user p) v).flags.sealed = false then e
      else s.entry space w := by
  have huser : s.exists? (.user p) = true := hp
  rw [entry_of_pde ht]
  unfold writePte
  split
  · rename_i hsealed
    rw [if_neg]
    rintro ⟨-, hopen⟩
    cases hopen.symm.trans hsealed
  · rename_i hopen
    rw [entry, h.pte_setPte huser ht hspace]
    by_cases hplace : space = .user p ∧ w = v
    · obtain ⟨rfl, rfl⟩ := hplace
      rw [if_pos ⟨ht, rfl⟩, if_pos ⟨⟨rfl, rfl⟩, by simpa using hopen⟩]
      rfl
    · rw [if_neg, if_neg fun hboth => hplace hboth.1]
      · rfl
      · rintro ⟨hpde, rfl⟩
        obtain ⟨-, -, hwhere⟩ := h.same_table huser hspace ht hpde
        rcases hwhere with rfl | hk
        · exact hplace ⟨rfl, rfl⟩
        · exact hown hk

/-- Mapping with a new table: it is taken, holds what the address space had, and is written. -/
theorem Mapped.entry (hinv : Inv s loose) (hp : s.live p = true)
    (hvacant : Vacant s (.user p) v.pdpt v.pd) (hmap : Mapped s (.user p) v e s') :
    (∃ rest, freeTable s = none ∧ (pmmAlloc s).1 = none ∧ s' = { s with answers := rest }) ∨
    ∃ f s₁, Allocated s (some f, s₁) ∧ s₁.exists? = s.exists? ∧
      ∀ space w, s.exists? space = true → s'.entry space w =
        if (space = .user p ∧ w = v) ∧ (s₁.entry (.user p) v).flags.sealed = false then e
        else s₁.entry space w := by
  have huser : s.exists? (.user p) = true := hp
  cases hmap with
  | failed rest hpool hpmm => exact .inl ⟨rest, hpool, hpmm, rfl⟩
  | written t ht hown =>
    have hpriv : s.kernelPd v.pdpt v.pd ≠ some t := hown.resolve_left (by simp)
    have ho : Owns s (.pt p v.pdpt v.pd) t := ⟨hp, ht, hpriv⟩
    exact absurd ho hvacant.not_owns
  | copied t priv s₁ ht _ hshared halloc =>
    obtain ⟨-, hshape, hinv₁, hpt⟩ := halloc.spec hinv
    have hspaces := halloc.exists_eq hinv
    have hcopy := hinv₁.sameShape_setLoose List.mem_cons_self (.pt (s₁.pt t))
    have hentries := hinv₁.sameEntries_setLoose List.mem_cons_self (.pt (s₁.pt t))
    have huser₁ : s₁.exists? (.user p) = true := by
      rw [hspaces]
      exact huser
    have hpde₁ : s₁.pde (.user p) v.pdpt v.pd = some t := by
      rw [halloc.pde hinv huser]
      exact ht
    have hpde₂ : (s₁.setTable priv (.pt (s₁.pt t))).pde (.user p) v.pdpt v.pd = some t := by
      rw [hcopy.pde huser₁]
      exact hpde₁
    have hkernel₂ : (s₁.setTable priv (.pt (s₁.pt t))).kernelPd v.pdpt v.pd = some t := by
      rw [hcopy.kernelPd, hshape.kernelPd, kernelPd_mark]
      exact hshared
    refine .inr ⟨priv, s₁, halloc, hspaces, fun space w hspace => ?_⟩
    have hspace₁ : s₁.exists? space = true := by
      rw [hspaces]
      exact hspace
    rw [(hinv₁.sameShape hcopy).entry_enter, entry_congr (hentries (.user p) v huser₁),
      entry_congr (hentries space w hspace₁)]
    · exact huser₁
    · exact isPt_setPt _
    · exact .inr ⟨by simp, hpde₂.trans hkernel₂.symm⟩
    · -- The copy has the entries of the kernel's table.
      intro w hi hj
      rw [pt_setTable_self, entry_congr (hentries (.user p) w huser₁)]
      refine (entry_of_pde ?_).symm
      rw [hi, hj]
      exact hpde₁
    · exact hspace₁
  | created priv s₁ ht halloc =>
    obtain ⟨-, -, hinv₁, hpt⟩ := halloc.spec hinv
    have hspaces := halloc.exists_eq hinv
    have hpde := halloc.pde hinv huser
    refine .inr ⟨priv, s₁, halloc, hspaces, fun space w hspace => ?_⟩
    apply hinv₁.entry_enter (show s₁.exists? (.user p) = true by rw [hspaces]; exact huser) hpt
    · left
      rw [hpde]
      exact ht
    · -- The new table is empty, and there was none.
      intro w hi hj
      rw [halloc.pt_zero]
      refine (entry_of_no_table ?_).symm
      rw [hpde, hi, hj]
      exact ht
    · rw [hspaces]
      exact hspace

/-! ## The kernel's identity map -/

/-- Mapping a frame for the kernel writes the kernel's own table. -/
theorem Inv.map_kernel (h : Inv s loose) {n : Nat} (hn : n < s.frames) :
    ∃ t, s.kernelPd (Page.ofNumber n).pdpt (Page.ofNumber n).pd = some t ∧ s.IsPt t ∧
      paeMapPageInto s .kernel (.ofNumber n) e = writePte s t (.ofNumber n) e := by
  obtain ⟨t, ht⟩ := h.mapped n hn
  exact ⟨t, ht, h.pt (show s.exists? .kernel = true from rfl) ht, mapPageAt_kernel ht 2⟩

end TinyOS.Pae
