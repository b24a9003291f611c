import TinyOS.Elf.Frames

/-!
# What creating a task leaves

`task_create_user_argv` either fails, and then the frames in use are those from before and the slot is
free again, or it makes a task whose frames are all written down in the task, except for one: the node of
the private directory under `/tmp`.
-/

namespace TinyOS.Elf

open Pae List

variable {s₀ s s' : Pae.State} {m m' m'' : Machine} {a : Option Nat} {n p : Nat}
  {loose : List Frame} {slot : Slot} {x : Request}

/-! ## The rest of the machine -/

/-- Everything but the frames and one task. -/
structure Elsewhere (slot : Slot) (m m' : Machine) : Prop where
  tasks : ∀ i, i ≠ slot → m'.tasks i = m.tasks i
  freeSlots : ∀ i, i ≠ slot → m'.freeSlots i = m.freeSlots i
  ready : m'.ready = m.ready

namespace Elsewhere

theorem trans (h : Elsewhere slot m m') (h' : Elsewhere slot m' m'') : Elsewhere slot m m'' where
  tasks i hi := (h'.tasks i hi).trans (h.tasks i hi)
  freeSlots i hi := (h'.freeSlots i hi).trans (h.freeSlots i hi)
  ready := h'.ready.trans h.ready

end Elsewhere

theorem elsewhere_setPae (slot : Slot) (m : Machine) (s : Pae.State) :
    Elsewhere slot m (m.setPae s) :=
  ⟨fun _ _ => rfl, fun _ _ => rfl, rfl⟩

theorem elsewhere_modifyTask (slot : Slot) (m : Machine) (g : Task → Task) :
    Elsewhere slot m (m.modifyTask slot g) :=
  ⟨fun i hi => by simp [Machine.modifyTask, hi], fun _ _ => rfl, rfl⟩

theorem tasks_modifyTask (slot : Slot) (m : Machine) (g : Task → Task) :
    (m.modifyTask slot g).tasks slot = g (m.tasks slot) := by
  simp [Machine.modifyTask]

theorem elsewhere_freeSlot (slot : Slot) (m : Machine) : Elsewhere slot m (taskFreeSlot m slot) :=
  ⟨fun _ _ => rfl, fun i hi => by simp [taskFreeSlot, hi], rfl⟩

theorem elsewhere_releaseSlot (slot : Slot) (m : Machine) : Elsewhere slot m (releaseSlot m slot) :=
  (elsewhere_modifyTask slot m _).trans (elsewhere_freeSlot slot _)

theorem freeSlots_releaseSlot (slot : Slot) (m : Machine) :
    (releaseSlot m slot).freeSlots slot = true := by
  simp [releaseSlot, taskFreeSlot]

theorem elsewhere_freeResources (slot : Slot) (m : Machine) :
    Elsewhere slot m (taskFreeResources m slot) :=
  (elsewhere_modifyTask slot m _).trans (elsewhere_setPae slot _ _)

/-! ## Writing -/

theorem write_eq {a len : Nat} {content : Nat → UInt8} (h : write p a len content m = some m') :
    m' = { m with bytes := m'.bytes } := by
  unfold write at h
  generalize pagesTouched a len = pages at h
  induction pages generalizing m with
  | nil =>
    cases h
    rfl
  | cons page pages ih =>
    obtain ⟨m₁, hpage, hrest⟩ := Option.bind_eq_some_iff.mp h
    have heq := ih hrest
    unfold writePage at hpage
    split at hpage
    · cases hpage
    split at hpage
    · rw [← Option.some.inj hpage] at heq
      exact heq
    · cases hpage

variable {pages : Nat}

theorem clearUserStack_eq (h : clearUserStack m p x pages = some m') :
    m' = { m with bytes := m'.bytes } := by
  unfold clearUserStack at h
  generalize List.range pages = is at h
  induction is generalizing m with
  | nil =>
    cases h
    rfl
  | cons i is ih =>
    rw [foldlM_cons] at h
    obtain ⟨m₁, hpage, hrest⟩ := Option.bind_eq_some_iff.mp h
    have heq := ih hrest
    rw [write_eq hpage] at heq
    exact heq

/-! ## Mapping -/

theorem taking_mapPage (page : Nat) (e : Pte) (h : Taking s₀ (some p) m.pae loose)
    (hp : m.pae.live p = true) :
    Taking s₀ (some p) (mapPage m p page e).pae loose ∧ (mapPage m p page e).pae.live p = true := by
  refine ⟨h.mapUser hp, ?_⟩
  show (paeMapPageInto m.pae (.user p) (.ofNumber page) e).live p = true
  rw [live_congr h.inv.paeMapPageInto_mapped.registers]
  exact hp

theorem taking_mapPages {α : Type} (pages : List α) (page : α → Nat) (e : α → Pte)
    (h : Taking s₀ (some p) m.pae loose) (hp : m.pae.live p = true) :
    ∃ s, pages.foldl (fun m i => mapPage m p (page i) (e i)) m = m.setPae s ∧
      Taking s₀ (some p) s loose ∧ s.live p = true := by
  induction pages generalizing m with
  | nil => exact ⟨m.pae, rfl, h, hp⟩
  | cons i pages ih =>
    obtain ⟨htaking, hlive⟩ := taking_mapPage (page i) (e i) h hp
    obtain ⟨s, heq, hs⟩ := ih htaking hlive
    exact ⟨s, heq, hs⟩

theorem taking_mapUserStack (x : Request) (guard : Nat) (stack : List Nat)
    (h : Taking s₀ (some p) m.pae loose) (hp : m.pae.live p = true) :
    ∃ s, mapUserStack m p x guard stack = m.setPae s ∧ Taking s₀ (some p) s loose ∧
      s.live p = true := by
  obtain ⟨h₁, hp₁⟩ := taking_mapPage (stackTop x - (stack.length + 1))
    ⟨guard, userStackFlags⟩ h hp
  obtain ⟨h₂, hp₂⟩ := taking_mapPage (stackTop x - (stack.length + 1))
    ⟨guard, { userStackFlags with present := false }⟩ h₁ hp₁
  exact taking_mapPages stack.zipIdx (fun i => stackTop x - (i.2 + 1))
    (fun i => ⟨i.1, userStackFlags⟩) h₂ hp₂

/-! ## Freeing what a task holds -/

/-- The frames that a task has written down. -/
def Task.frames (t : Task) : List Nat :=
  [t.guardPagePhys] ++ t.stackPagesPhys ++ [t.userGuardPagePhys] ++ t.userStackPagesPhys ++
    t.imagePagesPhys ++ [t.edrAdvanced] ++ [t.env]

theorem live_freeAll (ns : List Nat) : (pmmFreeAll s ns).live = s.live := by
  rw [pmmFreeAll_eq]
  exact (intact_freed _).live

theorem live_guardRelease (h : Inv s loose) (hn : n < s.frames) :
    (guardPageRelease s n).live = s.live := by
  unfold guardPageRelease
  split
  · rfl
  have hfree : ∀ s : Pae.State, (pmmFree s n).live = s.live := fun _ => rfl
  rw [hfree]
  exact live_congr (identityMap_shape _ h hn).2

theorem giving_freeResources (htask : (m.tasks slot).isKernelTask = false)
    (hdir : (m.tasks slot).pageDirectory = p) (hpos : 0 < p)
    (h : Giving s₀ (some p) m.pae (held (m.tasks slot).frames ++ loose))
    (hp : m.pae.live p = true) (hnew : ¬ s₀.live p = true)
    (hguard : (m.tasks slot).guardPagePhys < m.pae.frames) :
    Giving s₀ none (taskFreeResources m slot).pae loose := by
  have hpae : (taskFreeResources m slot).pae =
      let t := m.tasks slot
      let s := guardPageRelease m.pae t.guardPagePhys
      let s := pmmFreeAll s t.stackPagesPhys
      let s := if t.isKernelTask then s else freeUserResources s t
      pmmFreeAll (pmmFreeAll s [t.edrAdvanced]) [t.env] := rfl
  rw [hpae]
  simp only [htask, Bool.false_eq_true, if_false, freeUserResources, hdir,
    if_pos (Nat.ne_of_gt hpos)]
  simp only [Task.frames, held_append, append_assoc] at h
  -- The kernel's part, the user's part, the address space, and the two pages that come last.
  have hlive := live_guardRelease h.inv hguard
  have h := giving_guardRelease h hguard
  have h := giving_freeAll (giving_freeAll (giving_freeAll (giving_freeAll h)))
  refine giving_freeAll (giving_freeAll (h.free ?_ hnew))
  rw [live_freeAll, live_freeAll, live_freeAll, live_freeAll, hlive]
  exact hp

/-! ## Creating -/

/-- A task that was made in a slot, with the frames it has taken since `s₀`. -/
structure Created (s₀ : Pae.State) (loose : List Frame) (m : Machine) (slot : Slot) (m' : Machine) :
    Prop where
  elsewhere : Elsewhere slot m m'
  freeSlots : m'.freeSlots slot = m.freeSlots slot
  pid : (m'.tasks slot).pid = (m.tasks slot).pid
  user : (m'.tasks slot).isKernelTask = false
  killable : (m'.tasks slot).unkillable = false
  state : (m'.tasks slot).state = .ready
  image : (m'.tasks slot).imagePagesPhys = []
  guard : (m'.tasks slot).guardPagePhys < m'.pae.frames
  directory : 0 < (m'.tasks slot).pageDirectory
  live : m'.pae.live (m'.tasks slot).pageDirectory = true
  new : ¬ s₀.live (m'.tasks slot).pageDirectory = true
  /-- Its frames are written down, up to those of RAMFS. -/
  taking : ∃ nodes, m'.nodes = nodes ++ m.nodes ∧
    Taking s₀ (some (m'.tasks slot).pageDirectory) m'.pae
      (held (m'.tasks slot).frames ++ nodes.map .phys ++ loose)

/-- A creation that failed, with nothing left behind. -/
structure Undone (s₀ : Pae.State) (loose : List Frame) (m : Machine) (slot : Slot) (m' : Machine) :
    Prop where
  elsewhere : Elsewhere slot m m'
  freeSlots : m'.freeSlots slot = true
  nodes : m'.nodes = m.nodes
  giving : Giving s₀ none m'.pae loose

theorem Undone.release (h : Giving s₀ none s loose) :
    Undone s₀ loose m slot (releaseSlot (m.setPae s) slot) where
  elsewhere := (elsewhere_setPae slot m s).trans (elsewhere_releaseSlot slot _)
  freeSlots := freeSlots_releaseSlot slot _
  nodes := rfl
  giving := h

theorem mkdirPrivateTmp_cases (x : Request) (h : Taking s₀ a m.pae loose) :
    ∃ nodes s ramfs,
      mkdirPrivateTmp x m = { m.setPae s with ramfs := ramfs, nodes := nodes ++ m.nodes } ∧
      Taking s₀ a s (nodes.map .phys ++ loose) ∧ s.live = m.pae.live := by
  unfold mkdirPrivateTmp
  dsimp only
  split
  · rcases h.inv.pmmAlloc with ⟨n, s, heq, hinv, htook, -, hlt, -⟩ | ⟨s, heq, hinv, htook⟩
    · rw [heq]
      have htaking : Taking s₀ a s ([n].map .phys ++ loose) := h.took hinv htook
      have hn : n < s.frames := by
        rw [htook.frames]
        exact hlt
      obtain ⟨t, -, hpt, hmap⟩ := hinv.map_kernel (e := ⟨n, kernelData⟩) hn
      simp only [hmap]
      refine ⟨[n], _, _, rfl, htaking.sameShape (sameShape_writePte hpt) registers_writePte, ?_⟩
      rw [live_congr registers_writePte, htook.live]
    · rw [heq]
      exact ⟨[], s, _, rfl, h.took hinv htook, htook.live⟩
  · exact ⟨[], m.pae, m.ramfs, rfl, h, rfl⟩

theorem pmmAllocOrZero_cases (h : Taking s₀ a s loose) :
    ∃ n s', pmmAllocOrZero s = (n, s') ∧ Taking s₀ a s' (held [n] ++ loose) ∧ s'.live = s.live := by
  unfold pmmAllocOrZero
  rcases h.inv.pmmAlloc with ⟨n, s', heq, hinv, htook, hpos, -, -⟩ | ⟨s', heq, hinv, htook⟩
  · rw [heq]
    refine ⟨n, s', rfl, ?_, htook.live⟩
    rw [held_single hpos]
    exact h.took hinv htook
  · rw [heq]
    exact ⟨0, s', rfl, h.took hinv htook, htook.live⟩

variable {guard : Nat} {stack : List Nat}

theorem giving_giveBack
    (h : Giving s₀ none s (held [guard] ++ (held stack ++ loose))) (hguard : guard < s.frames) :
    Giving s₀ none (pmmFreeAll (guardPageRelease s guard) stack) loose :=
  giving_freeAll (giving_guardRelease h hguard)

theorem count_perm {l l' : List Frame} (h : ∀ f, l.count f = l'.count f) : l.Perm l' :=
  perm_iff_count.mpr h

theorem giving_unmake
    (h : Giving s₀ (some p) s (held [guard] ++ (held stack ++ loose))) (hp : s.live p = true)
    (hnew : ¬ s₀.live p = true) (hguard : guard < s₀.frames) :
    Giving s₀ none (pmmFreeAll (guardPageRelease (paeFreeUserPdpt s p) guard) stack) loose := by
  have hfree := h.free hp hnew
  apply giving_giveBack hfree
  rw [hfree.besides.frames]
  exact hguard

/-- The new task with its stacks. -/
abbrev newTask (pid gen : UInt32) (guard : Nat) (stack : List Nat) (p userGuard : Nat)
    (frames : List Nat) : Task :=
  stackedTask guard stack p userGuard frames { pid := pid, generation := gen }

variable {argvBytes : Nat} {gen pid : UInt32} {r : Except Int UInt32}

theorem furnishTask_cases {userGuard : Nat} {frames : List Nat}
    (ht : m.tasks slot = newTask pid gen guard stack p userGuard frames)
    (hacc : Taking s₀ (some p) m.pae (held (m.tasks slot).frames ++ loose))
    (hlive : m.pae.live p = true) (hnew : ¬ s₀.live p = true) (hpos : 0 < p)
    (hguard : guard < s₀.frames) (heq : furnishTask x argvBytes pages slot m = (r, m')) :
    ((∃ e, r = .error e) ∧ Undone s₀ loose m slot m') ∨
      (r = .ok (m'.tasks slot).pid ∧ Created s₀ loose m slot m') := by
  simp only [furnishTask] at heq
  split at heq
  · cases heq
    have hgiving : Giving s₀ none (taskFreeResources m slot).pae loose := by
      apply giving_freeResources _ _ hpos hacc.giving hlive hnew
      · rw [ht, hacc.besides.frames]
        exact hguard
      · rw [ht]
        rfl
      · rw [ht]
        rfl
    exact .inl ⟨⟨_, rfl⟩, (elsewhere_freeResources slot m).trans (elsewhere_releaseSlot slot _),
      freeSlots_releaseSlot slot _, rfl, hgiving⟩
  · obtain ⟨nodes, s₁, ramfs, hmkdir, htaking, hlive₁⟩ := mkdirPrivateTmp_cases x hacc
    obtain ⟨edr, s₂, hedr, htaking₂, hlive₂⟩ := pmmAllocOrZero_cases htaking
    generalize mkdirPrivateTmp x m = m₁ at heq hmkdir
    have hpae : m₁.pae = s₁ := by
      rw [hmkdir]
      rfl
    rw [hpae, hedr] at heq
    obtain ⟨hret, hm'⟩ := Prod.mk.inj heq
    -- What the rest of the machine is, and what the task.
    have helse : Elsewhere slot m m₁ := by
      rw [hmkdir]
      exact ⟨fun _ _ => rfl, fun _ _ => rfl, rfl⟩
    have htask : m'.tasks slot = { newTask pid gen guard stack p userGuard frames with
        edrAdvanced := edr, state := .ready } := by
      rw [← hm', tasks_modifyTask, show (m₁.setPae s₂).tasks = m.tasks by
        rw [hmkdir]; rfl, ht]
    have hs₂ : m'.pae = s₂ := by
      rw [← hm']
      rfl
    have hfree : m'.freeSlots = m.freeSlots := by
      rw [← hm', hmkdir]
      rfl
    have hnodes' : m'.nodes = nodes ++ m.nodes := by
      rw [← hm', hmkdir]
      rfl
    have helse' : Elsewhere slot m m' := by
      rw [← hm']
      exact (helse.trans (elsewhere_setPae slot m₁ s₂)).trans (elsewhere_modifyTask slot _ _)
    have hr : r = .ok (m'.tasks slot).pid := by
      rw [← hm']
      exact hret.symm
    refine .inr ⟨hr, ?_⟩
    constructor
    case elsewhere => exact helse'
    case freeSlots => rw [hfree]
    case pid => rw [htask, ht]
    case user => rw [htask]; rfl
    case killable => rw [htask]; rfl
    case state => rw [htask]
    case image => rw [htask]; rfl
    case guard =>
      rw [htask, hs₂, htaking₂.besides.frames]
      exact hguard
    case directory =>
      rw [htask]
      exact hpos
    case live =>
      rw [htask, hs₂, hlive₂, hlive₁]
      exact hlive
    case new =>
      rw [htask]
      exact hnew
    case taking =>
      refine ⟨nodes, hnodes', ?_⟩
      rw [htask, hs₂]
      apply htaking₂.perm
      apply count_perm
      rw [ht]
      simp only [Task.frames, stackedTask, held_append, count_append, held_zero, held_nil,
        count_nil]
      omega

theorem stacked_cases {userGuard : Nat} {frames : List Nat}
    (ht : m.tasks slot = { pid := pid, generation := gen })
    (hacc : Taking s₀ (some p) s
      (held (newTask pid gen guard stack p userGuard frames).frames ++ loose))
    (hlive : s.live p = true) (hnew : ¬ s₀.live p = true) (hpos : 0 < p) (hguard : guard < s₀.frames)
    (heq : (match clearUserStack (mapUserStack ((m.setPae s).modifyTask slot
        (stackedTask guard stack p userGuard frames)) p x userGuard frames) p x pages with
      | none => none
      | some m => some (furnishTask x argvBytes pages slot m)) = some (r, m')) :
    ((∃ e, r = .error e) ∧ Undone s₀ loose m slot m') ∨
      (r = .ok (m'.tasks slot).pid ∧ Created s₀ loose m slot m') := by
  obtain ⟨s₁, hmap, htaking, hlive₁⟩ := taking_mapUserStack x userGuard frames (m := (m.setPae s).modifyTask slot
      (stackedTask guard stack p userGuard frames)) hacc hlive
  rw [hmap] at heq
  split at heq
  · cases heq
  rename_i m₁ hclear
  have hm₁ := clearUserStack_eq hclear
  have ht₁ : m₁.tasks slot = newTask pid gen guard stack p userGuard frames := by
    rw [hm₁]
    show (((m.setPae s).modifyTask slot _).tasks slot) = _
    rw [tasks_modifyTask]
    show stackedTask guard stack p userGuard frames (m.tasks slot) = _
    rw [ht]
  have helse : Elsewhere slot m m₁ := by
    rw [hm₁]
    exact ((elsewhere_setPae slot m s).trans (elsewhere_modifyTask slot _ _)).trans
      ⟨fun _ _ => rfl, fun _ _ => rfl, rfl⟩
  obtain ⟨hs₁, hfree₁, hnodes₁⟩ :
      m₁.pae = s₁ ∧ m₁.freeSlots = m.freeSlots ∧ m₁.nodes = m.nodes := by
    rw [hm₁]
    exact ⟨rfl, rfl, rfl⟩
  rw [← hs₁] at htaking hlive₁
  rw [← ht₁] at htaking
  rcases furnishTask_cases ht₁ htaking hlive₁ hnew hpos hguard (Option.some.inj heq) with
    ⟨hr, hundone⟩ | ⟨hr, hcreated⟩
  · exact .inl ⟨hr, helse.trans hundone.elsewhere, hundone.freeSlots,
      hundone.nodes.trans hnodes₁, hundone.giving⟩
  · refine .inr ⟨hr, { hcreated with elsewhere := ?_, freeSlots := ?_, pid := ?_, taking := ?_ }⟩
    · exact helse.trans hcreated.elsewhere
    · rw [hcreated.freeSlots, hfree₁]
    · rw [hcreated.pid, ht₁, ht]
      rfl
    · rw [← hnodes₁]
      exact hcreated.taking

theorem createUserSpace_cases (hacc : Taking s₀ none m.pae (held [guard] ++ (held stack ++ loose)))
    (hguard : guard < s₀.frames) (ht : m.tasks slot = { pid := pid, generation := gen })
    (heq : createUserSpace x argvBytes pages slot m guard stack = some (r, m')) :
    ((∃ e, r = .error e) ∧ Undone s₀ loose m slot m') ∨
      (r = .ok (m'.tasks slot).pid ∧ Created s₀ loose m slot m') := by
  simp only [createUserSpace] at heq
  split at heq
  · rename_i s₁ hcreate
    cases heq
    have hgave := hacc.create_fails hcreate
    refine .inl ⟨⟨_, rfl⟩, .release (giving_giveBack hgave ?_)⟩
    rw [hgave.besides.frames]
    exact hguard
  · rename_i p s₁ hcreate
    obtain ⟨htaking, hlive, hnew, hpos⟩ := hacc.create hcreate
    rcases htaking.inv.pmmAlloc with
      ⟨userGuard, s₂, halloc, hinv₂, htook₂, hpos₂, -, -⟩ | ⟨s₂, halloc, hinv₂, htook₂⟩
    · rw [halloc] at heq
      dsimp only at heq
      have hinv₂ :
          Inv s₂ (held [] ++ (held [userGuard] ++ (held [guard] ++ (held stack ++ loose)))) := by
        rw [held_single hpos₂]
        exact hinv₂
      obtain ⟨r₃, s₃, frames, hstack, hr₃, hinv₃, htook₃, -⟩ :=
        allocUserStack_cases pages [] hinv₂
      have htaking₃ := htaking.took hinv₃ (htook₂.trans htook₃)
      have hlive₃ : s₃.live p = true := by
        rw [htook₃.live, htook₂.live]
        exact hlive
      rw [hstack] at heq
      rcases hr₃ with rfl | rfl
      · refine stacked_cases ht (htaking₃.perm (count_perm fun f => ?_)) hlive₃ hnew hpos hguard heq
        simp only [Task.frames, stackedTask, held_append, count_append, held_zero, held_nil,
          count_nil]
        omega
      · -- The stack is not complete.
        cases heq
        have hfreed : Giving s₀ (some p) (pmmFree (pmmFreeAll s₃ frames) userGuard)
            (held [guard] ++ (held stack ++ loose)) :=
          Giving.freed (held_single hpos₂ ▸ giving_freeAll htaking₃.giving)
        refine .inl ⟨⟨_, rfl⟩, .release (giving_unmake hfreed ?_ hnew hguard)⟩
        show (pmmFreeAll s₃ frames).live p = true
        rw [live_freeAll]
        exact hlive₃
    · rw [halloc] at heq
      cases heq
      have hgiving := (htaking.took hinv₂ htook₂).giving
      refine .inl ⟨⟨_, rfl⟩, .release (giving_unmake hgiving ?_ hnew hguard)⟩
      rw [htook₂.live]
      exact hlive

/-! ## The call -/

theorem tasks_claimSlot (m : Machine) (x : Request) (slot : Slot) :
    ∃ gen, (claimSlot m x slot).tasks slot =
      { pid := ((claimSlot m x slot).tasks slot).pid, generation := gen } := by
  refine ⟨m.slotGenerations slot, ?_⟩
  simp [claimSlot, Machine.modifyTask]

theorem elsewhere_claimSlot (m : Machine) (x : Request) (slot : Slot) :
    Elsewhere slot m (claimSlot m x slot) where
  tasks i hi := by simp [claimSlot, Machine.modifyTask, hi]
  freeSlots i hi := by simp [claimSlot, Machine.modifyTask, hi]
  ready := rfl

theorem taskCreateUserArgv_cases {stackPages : Nat} (h : Inv m.pae loose)
    (heq : taskCreateUserArgv x stackPages m = some (r, m')) :
    ((∃ e, r = .error e) ∧ (m' = m ∨ ∃ slot, taskFindFreeSlot m = some slot ∧
      Undone m.pae loose (claimSlot m x slot) slot m')) ∨
    ∃ slot, taskFindFreeSlot m = some slot ∧ r = .ok (m'.tasks slot).pid ∧
      ((claimSlot m x slot).tasks slot).pid ≠ 0 ∧
      Created m.pae loose (claimSlot m x slot) slot m' := by
  simp only [taskCreateUserArgv] at heq
  -- Four checks come before a slot is claimed.
  iterate 4
    split at heq
    · cases heq
      exact .inl ⟨⟨_, rfl⟩, .inl rfl⟩
  rename_i slot hfind
  have hbase : Taking m.pae none (claimSlot m x slot).pae loose := .refl h none
  split at heq
  · cases heq
    refine .inl ⟨⟨_, rfl⟩, .inr ⟨slot, hfind, elsewhere_freeSlot slot _, ?_, rfl,
      hbase.giving⟩⟩
    simp [taskFreeSlot]
  · rename_i hpid
    rcases hbase.inv.pmmAlloc with
      ⟨guard, s₁, halloc, hinv₁, htook₁, hpos, hlt, -⟩ | ⟨s₁, halloc, hinv₁, htook₁⟩
    · rw [halloc] at heq
      dsimp only at heq
      have hinv₁ : Inv s₁ (held [guard] ++ loose) := by
        rw [held_single hpos]
        exact hinv₁
      have htaking₁ := hbase.took hinv₁ htook₁
      rcases allocContiguous_cases hinv₁ kernelStackPages with
        ⟨stack, s₂, hrun, hinv₂, htook₂, hstack⟩ | ⟨s₂, hrun, hinv₂, htook₂⟩
      · rw [hrun] at heq
        have hinv₂ : Inv s₂ (held [guard] ++ (held stack ++ loose)) := by
          apply hinv₂.perm
          apply count_perm
          simp only [count_append]
          omega
        have htaking₂ := taking_mapKernelStack guard (htaking₁.took hinv₂ htook₂)
          (fun n hn => by rw [htook₂.frames]; exact (hstack n hn).2)
        obtain ⟨gen, ht⟩ := tasks_claimSlot m x slot
        rcases createUserSpace_cases
            (m := (claimSlot m x slot).setPae (mapKernelStack s₂ guard stack))
            htaking₂ hlt ht heq with
          ⟨hr, hundone⟩ | ⟨hr, hcreated⟩
        · exact .inl ⟨hr, .inr ⟨slot, hfind,
            (elsewhere_setPae slot _ _).trans hundone.elsewhere, hundone.freeSlots,
            hundone.nodes, hundone.giving⟩⟩
        · exact .inr ⟨slot, hfind, hr, hpid, { hcreated with
            elsewhere := (elsewhere_setPae slot _ _).trans hcreated.elsewhere }⟩
      · rw [hrun] at heq
        cases heq
        have hgiving : Giving m.pae none (pmmFree s₂ guard) loose :=
          Giving.freed (held_single hpos ▸ (htaking₁.took hinv₂ htook₂).giving)
        exact .inl ⟨⟨_, rfl⟩, .inr ⟨slot, hfind, .release hgiving⟩⟩
    · rw [halloc] at heq
      cases heq
      exact .inl ⟨⟨_, rfl⟩, .inr ⟨slot, hfind, .release (hbase.took hinv₁ htook₁).giving⟩⟩

end TinyOS.Elf
