import TinyOS.Elf.Unwind

/-!
# A task is created when there is memory

The request passes the checks, and the memory manager has frames to give. Then no exit of
`task_create_user_argv` is taken but the last one: if every page of the user's stack has its entry,
clearing the stack does not fault, and the argument block fits on it.
-/

namespace TinyOS.Elf

open Pae List

variable {s s' : Pae.State} {m m' : Machine} {n p : Nat} {slot : Slot} {x : Request}

def aslrStackMin : Nat := 0x40000000
def aslrStackMax : Nat := 0xC0000000

/-- What `aslr_get_random_stack_base` can return. -/
def AslrStack (x : Request) : Prop := aslrStackMin ≤ x.stackBase ∧ x.stackBase ≤ aslrStackMax

/-! ## The user's stack -/

theorem pagesTouched_page (page : Nat) : pagesTouched (page * pageBytes) pageBytes = [page] := by
  have hfirst : page * pageBytes / pageBytes = page := Nat.mul_div_cancel _ (by decide)
  have hlast : (page * pageBytes + pageBytes - 1) / pageBytes = page := by
    simp only [pageBytes]
    omega
  rw [pagesTouched, if_neg (by decide), hfirst, hlast, Nat.sub_self]
  rfl

theorem clearUserStack_some {pages : Nat}
    (h : ∀ i < pages, ∃ e, m.pae.walk (.user p) (.ofNumber (stackTop x - (i + 1))) = some e ∧
      e.flags.readwrite = true) :
    ∃ bytes, clearUserStack m p x pages = some { m with bytes := bytes } := by
  unfold clearUserStack
  have hall : ∀ i ∈ List.range pages, ∃ e,
      m.pae.walk (.user p) (.ofNumber (stackTop x - (i + 1))) = some e ∧
        e.flags.readwrite = true := fun i hi => h i (mem_range.mp hi)
  generalize List.range pages = is at hall
  induction is generalizing m with
  | nil => exact ⟨m.bytes, rfl⟩
  | cons i is ih =>
    obtain ⟨e, hwalk, hrw⟩ := hall i mem_cons_self
    have hwrite : ∃ bytes, write p ((stackTop x - (i + 1)) * pageBytes) pageBytes (fun _ => 0) m =
        some { m with bytes := bytes } := by
      rw [write, pagesTouched_page, foldlM_cons]
      simp only [writePage, hwalk, if_pos hrw]
      exact ⟨_, rfl⟩
    obtain ⟨bytes, hwrite⟩ := hwrite
    rw [foldlM_cons, hwrite]
    exact ih (m := { m with bytes := bytes }) (fun j hj => h j hj)
      (fun j hj => hall j (mem_cons_of_mem _ hj))

/-! ## The arguments -/

theorem argvBytes_le {argv : List (Option (List UInt8))} {total bytes : Nat}
    (htotal : total ≤ userArgvMaxBytes) (h : argvBytes argv total = some bytes) :
    bytes ≤ userArgvMaxBytes := by
  induction argv generalizing total with
  | nil =>
    cases h
    exact htotal
  | cons str argv ih =>
    cases str with
    | none => cases h
    | some str =>
      simp only [argvBytes] at h
      split at h
      · cases h
      · exact ih (by omega) h

theorem checkArgv_le {bytes : Nat} (h : checkArgv x = some bytes) :
    bytes ≤ userArgvMaxBytes ∧ x.argc.toNat ≤ userArgvMax := by
  unfold checkArgv at h
  split at h
  · cases h
  refine ⟨?_, by omega⟩
  split at h
  · split at h
    · cases h
    · cases h
      exact Nat.zero_le _
  · exact argvBytes_le (Nat.zero_le _) h

theorem argvFits_large {bytes : Nat} (h : checkArgv x = some bytes) (hstack : AslrStack x) :
    argvFits x bytes userStackLarge = true := by
  obtain ⟨hbytes, hargc⟩ := checkArgv_le h
  have hmin : aslrStackMin = 1073741824 := rfl
  have := hstack.1
  simp only [userArgvMaxBytes, userArgvMax] at hbytes hargc
  have htop : stackTop x = (x.stackBase + 4095) / 4096 := rfl
  have hlow : stackTop x * pageBytes - userStackLarge * pageBytes =
      stackTop x * 4096 - 128 * 4096 := rfl
  unfold argvFits
  rw [Bool.and_eq_true, decide_eq_true_iff, decide_eq_true_iff, hlow]
  omega

/-! ## The call -/

theorem taskAllocPid_ne_zero (m : Machine) (draws : Nat → UInt16) : taskAllocPid m draws ≠ 0 := by
  have hsmall : ∀ d : UInt16, 100 + d.toUInt32 % 65436 ≠ 0 := by
    intro d heq
    have hnat := congrArg UInt32.toNat heq
    simp only [UInt32.toNat_add, UInt32.toNat_mod, UInt16.toNat_toUInt32, UInt32.toNat_ofNat,
      Nat.reducePow, Nat.reduceMod] at hnat
    omega
  unfold taskAllocPid
  cases hdraw : ((List.range 1000).map fun i => 100 + (draws i).toUInt32 % 65436).find?
      fun pid => !pidInUse m pid with
  | some pid =>
    obtain ⟨i, -, rfl⟩ := mem_map.mp (mem_of_find?_eq_some hdraw)
    exact hsmall _
  | none =>
    cases hseq : ((List.range' 100 65436).map UInt32.ofNat).find? fun pid => !pidInUse m pid with
    | some pid =>
      obtain ⟨i, hi, rfl⟩ := mem_map.mp (mem_of_find?_eq_some hseq)
      intro heq
      have hrange := mem_range'_1.mp hi
      have := congrArg UInt32.toNat heq
      simp only [Option.getD_none, Option.getD_some, UInt32.toNat_ofNat', UInt32.toNat_ofNat] at this
      omega
    | none => decide

/-- The new address space, and the memory when the stacks are mapped in it, if the frames were there:
guard page and kernel stack, page directory, guard page and user stack. -/
def afterStacks (x : Request) (m : Machine) : Option (Nat × Pae.State) :=
  match pmmAlloc m.pae with
  | (none, _) => none
  | (some guard, s) =>
    match pmmAllocContiguous s kernelStackPages with
    | (none, _) => none
    | (some stack, s) =>
      match paeCreateUserPdpt (mapKernelStack s guard stack) with
      | (none, _) => none
      | (some p, s) =>
        match pmmAlloc s with
        | (none, _) => none
        | (some userGuard, s) =>
          match allocUserStack userStackLarge s [] with
          | (.error _, _) => none
          | (.ok frames, s) => some (p, (mapUserStack (m.setPae s) p x userGuard frames).pae)

/-- Mapping the stack changes page tables and allocator, in a way that depends on them only. -/
theorem mapUserStack_eq (s : Pae.State) (p : Nat) (x : Request) (guard : Nat) (frames : List Nat) :
    ∃ s', ∀ m : Machine, m.pae = s → mapUserStack m p x guard frames = m.setPae s' := by
  have hfold : ∀ (is : List (Nat × Nat)) (s : Pae.State), ∃ s', ∀ m : Machine, m.pae = s →
      is.foldl (fun m i => mapPage m p (stackTop x - (i.2 + 1)) ⟨i.1, userStackFlags⟩) m =
        m.setPae s' := by
    intro is
    induction is with
    | nil => exact fun s => ⟨s, fun m h => by rw [← h]; rfl⟩
    | cons i is ih =>
      intro s
      obtain ⟨s', h'⟩ := ih
        (paeMapPageInto s (.user p) (.ofNumber (stackTop x - (i.2 + 1))) ⟨i.1, userStackFlags⟩)
      refine ⟨s', fun m h => ?_⟩
      rw [foldl_cons, h' _ (by rw [← h]; rfl)]
      rfl
  obtain ⟨s', h'⟩ := hfold frames.zipIdx (paeMapPageInto (paeMapPageInto s (.user p)
      (.ofNumber (stackTop x - (frames.length + 1))) ⟨guard, userStackFlags⟩) (.user p)
      (.ofNumber (stackTop x - (frames.length + 1)))
      ⟨guard, { userStackFlags with present := false }⟩)
  exact ⟨s', fun m h => h' _ (by rw [← h]; rfl)⟩

theorem afterStacks_congr (h : m.pae = m'.pae) : afterStacks x m = afterStacks x m' := by
  have hmap : ∀ s p guard frames, (mapUserStack (m.setPae s) p x guard frames).pae =
      (mapUserStack (m'.setPae s) p x guard frames).pae := by
    intro s p guard frames
    obtain ⟨s', h'⟩ := mapUserStack_eq s p x guard frames
    rw [h' _ rfl, h' _ rfl]
    rfl
  simp only [afterStacks, h, hmap]

/-- A request that is admitted: the allocations come in the order of the source, and one that fails ends the
call. -/
theorem taskCreateUserArgv_admitted (hadmitted : Admitted m x) :
    (afterStacks x m = none ∧
      ∃ m', taskCreateUserArgv x userStackLarge m = some (.error (-1), m')) ∨
    ∃ p s m₁ bytes slot, afterStacks x m = some (p, s) ∧ checkArgv x = some bytes ∧ m₁.pae = s ∧
      m₁.nodes = m.nodes ∧ m₁.ramfs = m.ramfs ∧ taskCreateUserArgv x userStackLarge m =
        (clearUserStack m₁ p x userStackLarge).map (furnishTask x bytes userStackLarge slot) := by
  obtain ⟨hargv, hlimits, hrate, hfree⟩ := hadmitted
  obtain ⟨bytes, hargv⟩ := Option.isSome_iff_exists.mp hargv
  obtain ⟨slot, hfree⟩ := Option.isSome_iff_exists.mp hfree
  have hpid : ((claimSlot m x slot).tasks slot).pid ≠ 0 := by
    rw [pid_claimSlot]
    exact taskAllocPid_ne_zero _ _
  have hpages : min (max userStackLarge userStackMin) userStackMax = userStackLarge := by decide
  have hpae : (claimSlot m x slot).pae = m.pae := rfl
  simp only [taskCreateUserArgv, hargv, hlimits, hrate, hfree, hpages, Bool.true_eq_false, if_false,
    if_neg hpid, hpae, afterStacks]
  rcases hguard : pmmAlloc m.pae with ⟨_ | guard, s₁⟩ <;> simp only
  · exact .inl ⟨trivial, _, rfl⟩
  rcases hrun : pmmAllocContiguous s₁ kernelStackPages with ⟨_ | stack, s₂⟩ <;> simp only
  · exact .inl ⟨trivial, _, rfl⟩
  simp only [createUserSpace, Machine.setPae]
  rcases hcreate : paeCreateUserPdpt (mapKernelStack s₂ guard stack) with ⟨_ | p, s₃⟩ <;> simp only
  · exact .inl ⟨trivial, _, rfl⟩
  rcases huser : pmmAlloc s₃ with ⟨_ | userGuard, s₄⟩ <;> simp only
  · exact .inl ⟨trivial, _, rfl⟩
  rcases hframes : allocUserStack userStackLarge s₄ [] with ⟨_ | frames, s₅⟩ <;> simp only
  · exact .inl ⟨trivial, _, rfl⟩
  obtain ⟨s₆, hmap⟩ := mapUserStack_eq s₅ p x userGuard frames
  rw [hmap _ rfl, hmap _ rfl]
  refine .inr ⟨p, s₆, (((claimSlot m x slot).setPae s₅).modifyTask slot
    (stackedTask guard stack p userGuard frames)).setPae s₆, bytes, slot, rfl, rfl, rfl, rfl, rfl, ?_⟩
  split
  · rename_i hclear
    exact (congrArg (Option.map _) hclear).symm
  · rename_i hclear
    exact (congrArg (Option.map _) hclear).symm

/-- RAMFS accepts the private directory, and a frame is left for its node. -/
def MakesDirectory (x : Request) (m : Machine) (s : Pae.State) : Prop :=
  tmpAccepts x m.ramfs = true ∧ (pmmAlloc s).1.isSome = true

theorem mkdirPrivateTmp_nodes (x : Request) (m : Machine) :
    (mkdirPrivateTmp x m).nodes = m.nodes ↔ ¬ MakesDirectory x m m.pae := by
  unfold mkdirPrivateTmp MakesDirectory
  dsimp only
  rcases halloc : pmmAlloc m.pae with ⟨_ | n, s⟩ <;> split <;> simp_all [Machine.setPae]

theorem furnishTask_nodes {bytes : Nat} {r : Except Int UInt32}
    (hfits : argvFits x bytes userStackLarge = true)
    (heq : furnishTask x bytes userStackLarge slot m = (r, m')) :
    (∃ pid, r = .ok pid) ∧ (m'.nodes = m.nodes ↔ ¬ MakesDirectory x m m.pae) := by
  simp only [furnishTask, hfits, Bool.true_eq_false, if_false] at heq
  cases heq
  exact ⟨⟨_, rfl⟩, mkdirPrivateTmp_nodes x m⟩

/-- An admitted request gets its task just if the frames are there. What RAMFS keeps is known then. -/
theorem taskCreateUserArgv_result {r : Except Int UInt32} (hadmitted : Admitted m x)
    (hstack : AslrStack x) (heq : taskCreateUserArgv x userStackLarge m = some (r, m')) :
    ((∃ e, r = .error e) ∧ afterStacks x m = none) ∨
      ((∃ pid, r = .ok pid) ∧ ∃ p s, afterStacks x m = some (p, s) ∧
        (m'.nodes = m.nodes ↔ ¬ MakesDirectory x m s)) := by
  rcases taskCreateUserArgv_admitted hadmitted with
    ⟨hnone, m₁, hfails⟩ | ⟨p, s, m₁, bytes, slot, hs, hargv, hpae, hnodes, hramfs, hcall⟩
  · cases hfails.symm.trans heq
    exact .inl ⟨⟨_, rfl⟩, hnone⟩
  rw [hcall] at heq
  obtain ⟨m₂, hclear, hfurnish⟩ := Option.map_eq_some_iff.mp heq
  obtain ⟨hok, hmade⟩ := furnishTask_nodes (argvFits_large hargv hstack) hfurnish
  rw [clearUserStack_eq hclear] at hmade
  refine .inr ⟨hok, p, s, hs, ?_⟩
  rw [← hnodes, ← hpae]
  simpa only [MakesDirectory, hramfs] using hmade

/-- And it gets the task if the pages of the stack can be written to. -/
theorem taskCreateUserArgv_some (hadmitted : Admitted m x) (hstack : AslrStack x)
    (hs : afterStacks x m = some (p, s))
    (hwalk : ∀ i < userStackLarge, ∃ e,
      s.walk (.user p) (.ofNumber (stackTop x - (i + 1))) = some e ∧ e.flags.readwrite = true) :
    ∃ pid m', taskCreateUserArgv x userStackLarge m = some (.ok pid, m') := by
  rcases taskCreateUserArgv_admitted hadmitted with
    ⟨hnone, -⟩ | ⟨p', s', m₁, bytes, slot, hs', hargv, rfl, -, -, hcall⟩
  · cases hnone.symm.trans hs
  cases hs.symm.trans hs'
  obtain ⟨bytes', hclear⟩ := clearUserStack_some hwalk
  rcases hfurnish : furnishTask x bytes userStackLarge slot { m₁ with bytes := bytes' } with ⟨r, m'⟩
  obtain ⟨⟨pid, rfl⟩, -⟩ := furnishTask_nodes (argvFits_large hargv hstack) hfurnish
  refine ⟨pid, m', ?_⟩
  rw [hcall, hclear, Option.map_some, hfurnish]

end TinyOS.Elf
