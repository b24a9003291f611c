import TinyOS.Elf.Load
import TinyOS.Pae.Account

/-!
# What the steps of a load do to frames

For every function that loading calls: which frames it takes and which it returns, in the terms of
`Pae.Account`. Frames of a task are written down as numbers, with 0 for no frame; `held` are those that
are frames.
-/

namespace TinyOS.Elf

open Pae List

variable {s₀ s s' : Pae.State} {a : Option Nat} {n p : Nat} {loose : List Frame} {flags : Flags}

def held (ns : List Nat) : List Frame := (ns.filter (· ≠ 0)).map .phys

theorem held_append (ns ms : List Nat) : held (ns ++ ms) = held ns ++ held ms := by
  simp [held]

theorem held_single (h : 0 < n) : held [n] = [.phys n] := by
  simp [held, Nat.ne_of_gt h]

theorem held_nil : held [] = [] := rfl

theorem held_zero : held [0] = [] := rfl

theorem held_of_pos {ns : List Nat} (h : ∀ n ∈ ns, 0 < n) : held ns = ns.map .phys := by
  rw [held, filter_eq_self.mpr]
  intro n hn
  simpa using Nat.ne_of_gt (h n hn)

/-! ## Returning -/

theorem pmmFreeAll_eq (ns : List Nat) : pmmFreeAll s ns = (held ns).foldl paeFreeUserPt s := by
  rw [pmmFreeAll, held, foldl_map]
  rfl

theorem foldl_pmmFree_eq {ns : List Nat} (h : ∀ n ∈ ns, 0 < n) :
    ns.foldl pmmFree s = (held ns).foldl paeFreeUserPt s := by
  rw [held_of_pos h, foldl_map]
  rfl

theorem giving_freeAll {ns : List Nat} (h : Giving s₀ a s (held ns ++ loose)) :
    Giving s₀ a (pmmFreeAll s ns) loose := by
  rw [pmmFreeAll_eq]
  exact h.freed

/-! ## The kernel's view of a frame -/

theorem identityMap_shape (flags : Flags) (h : Inv s loose) (hn : n < s.frames) :
    SameShape s (kernelIdentityMap s n flags) ∧
      registers (kernelIdentityMap s n flags) = registers s := by
  obtain ⟨t, -, hpt, heq⟩ := h.map_kernel (e := ⟨n, flags⟩) hn
  have hwrite : SameShape s (writePte s t (.ofNumber n) ⟨n, flags⟩) := sameShape_writePte hpt
  rw [kernelIdentityMap, heq]
  refine ⟨hwrite.trans ((h.sameShape hwrite).sync _), ?_⟩
  exact (registers_sync _ _).trans registers_writePte

theorem guardMark_shape (h : Inv s loose) :
    SameShape s (guardPageMark s n) ∧ registers (guardPageMark s n) = registers s := by
  simp only [guardPageMark]
  split
  · exact ⟨.refl s, rfl⟩
  rename_i t ht
  have hpt : s.IsPt t := h.pt (show s.exists? .kernel = true from rfl) ht
  have hwrite : SameShape s (s.setPte t (Page.ofNumber n).pt ⟨n, { readwrite := true }⟩) :=
    sameShape_setPte hpt _ _
  exact ⟨hwrite.trans ((h.sameShape hwrite).sync _), registers_sync _ _⟩

theorem taking_mapKernelStack (guard : Nat) {stack : List Nat} (h : Taking s₀ a s loose)
    (hstack : ∀ n ∈ stack, n < s.frames) :
    Taking s₀ a (mapKernelStack s guard stack) loose := by
  have hloop : Taking s₀ a (stack.foldl (fun s n => kernelIdentityMap s n kernelData) s) loose := by
    induction stack generalizing s with
    | nil => exact h
    | cons n stack ih =>
      obtain ⟨hshape, hregisters⟩ :=
        identityMap_shape kernelData h.inv (hstack n mem_cons_self)
      apply ih (h.sameShape hshape hregisters)
      intro k hk
      rw [hshape.frames]
      exact hstack k (mem_cons_of_mem _ hk)
  obtain ⟨hshape, hregisters⟩ := guardMark_shape (n := guard) hloop.inv
  exact hloop.sameShape hshape hregisters

theorem giving_guardRelease (h : Giving s₀ a s (held [n] ++ loose)) (hn : n < s.frames) :
    Giving s₀ a (guardPageRelease s n) loose := by
  unfold guardPageRelease
  split
  · rename_i hzero
    rw [hzero, held_zero] at h
    exact h
  rename_i hpos
  obtain ⟨hshape, hregisters⟩ := identityMap_shape kernelData h.inv hn
  rw [held_single (Nat.pos_of_ne_zero hpos)] at h
  exact (h.sameShape hshape hregisters).freed

/-! ## Taking -/

theorem allocContiguous_cases (h : Inv s loose) (count : Nat) :
    (∃ run s', pmmAllocContiguous s count = (some run, s') ∧ Inv s' (held run ++ loose) ∧
      Took s s' ∧ ∀ n ∈ run, 0 < n ∧ n < s.frames) ∨
    ∃ s', pmmAllocContiguous s count = (none, s') ∧ Inv s' loose ∧ Took s s' := by
  unfold pmmAllocContiguous
  split
  · rename_i n rest _
    simp only
    split
    · rename_i hok
      obtain ⟨hpos, hlt, hall⟩ := hok
      have hrun : ∀ k ∈ List.range' n count, 0 < k ∧ k < s.frames := by
        intro k hk
        have := mem_range'_1.mp hk
        omega
      have hfree : ∀ k ∈ List.range' n count, s.taken k = false := by
        intro k hk
        simpa using all_eq_true.mp hall k hk
      refine .inl ⟨_, _, rfl, ?_, ⟨⟨rfl, rfl, fun _ => rfl⟩, rfl, rfl⟩, hrun⟩
      rw [held_of_pos fun k hk => (hrun k hk).1]
      exact (h.sameShape (sameShape_answers rest)).takeAll hfree nodup_range'
    · exact .inr ⟨_, rfl, h.sameShape (sameShape_answers rest), took_answers rest⟩
  · rename_i rest _
    exact .inr ⟨_, rfl, h.sameShape (sameShape_answers rest), took_answers rest⟩
  · exact .inr ⟨_, rfl, h, Took.refl _⟩

theorem allocUserStack_cases (count : Nat) (frames : List Nat)
    (h : Inv s (held frames ++ loose)) :
    ∃ r s' frames', allocUserStack count s frames = (r, s') ∧
      (r = .ok frames' ∨ r = .error frames') ∧ Inv s' (held frames' ++ loose) ∧ Took s s' ∧
      ((∀ n ∈ frames, 0 < n) → ∀ n ∈ frames', 0 < n) := by
  induction count generalizing s frames with
  | zero => exact ⟨_, s, frames, rfl, .inl rfl, h, Took.refl _, fun hpos => hpos⟩
  | succ count ih =>
    simp only [allocUserStack]
    rcases h.pmmAlloc with ⟨n, s₁, heq, hinv, htook, hpos, -, -⟩ | ⟨s₁, heq, hinv, htook⟩
    · rw [heq]
      have hperm : Inv s₁ (held (frames ++ [n]) ++ loose) := by
        apply hinv.perm
        rw [held_append, held_single hpos, append_assoc]
        exact perm_middle.symm
      obtain ⟨r, s', frames', heq', hr, hinv', htook', hpos'⟩ := ih _ hperm
      refine ⟨r, s', frames', heq', hr, hinv', htook.trans htook', ?_⟩
      intro hframes
      apply hpos'
      refine forall_mem_append.mpr ⟨hframes, forall_mem_singleton.mpr ?_⟩
      exact hpos
    · rw [heq]
      exact ⟨_, s₁, frames, rfl, .inr rfl, hinv, htook, fun hpos => hpos⟩

end TinyOS.Elf
