import TinyOS.Elf.Created

/-!
# What a failed load leaves behind

A load that fails after the task was made returns the frames of the image and terminates the task, which
returns the rest. Two things stay. The private directory that task creation made under `/tmp` keeps
its frame, since nothing removes it. And if a terminated task that was not reaped yet has the pid of
the new one, in a lower slot, the loader takes that task for its own, finds it terminated and returns
without tearing the new one down.
-/

namespace TinyOS.Elf

open Pae List
open Proc (maxTasks)

variable {s₀ s s' : Pae.State} {m m' m₀ : Machine} {p : Nat} {loose : List Frame} {slot : Slot}
  {x : Request} {f : File} {ph : Phdr} {flags : Flags} {r r' : Loading}

/-! ## The loop -/

/-- The frames of the image, while they are taken. -/
structure Holding (s₀ : Pae.State) (p : Nat) (loose : List Frame) (m₀ : Machine) (r : Loading) :
    Prop where
  taking : Taking s₀ (some p) r.1.pae (held r.2 ++ loose)
  live : r.1.pae.live p = true
  pos : ∀ n ∈ r.2, 0 < n
  same : r.1 = { m₀ with pae := r.1.pae, bytes := r.1.bytes }

/-- What holds of the machine and the frames when a step ends, in one way or the other. -/
def Ends (P : Loading → Prop) : Except Stop Loading → Prop
  | .ok r => P r
  | .error .fault => True
  | .error (.abort m frames) => P (m, frames)

theorem ends_foldlM {α : Type} {P : Loading → Prop} {g : Loading → α → Except Stop Loading}
    (hstep : ∀ r i, P r → Ends P (g r i)) (is : List α) (h : P r) : Ends P (is.foldlM g r) := by
  induction is generalizing r with
  | nil => exact h
  | cons i is ih =>
    rw [foldlM_cons]
    have hfirst := hstep r i h
    cases hg : g r i with
    | error stop =>
      rw [hg] at hfirst
      exact hfirst
    | ok r' =>
      rw [hg] at hfirst
      exact ih hfirst

namespace Holding

variable (h : Holding s₀ p loose m₀ r)

include h

theorem mapPage (page : Nat) (e : Pte) : Holding s₀ p loose m₀ (mapPage r.1 p page e, r.2) where
  taking := (taking_mapPage _ _ h.taking h.live).1
  live := (taking_mapPage _ _ h.taking h.live).2
  pos := h.pos
  same := by
    rw [h.same]
    rfl

theorem write {a len : Nat} {content : Nat → UInt8} (heq : write p a len content r.1 = some m) :
    Holding s₀ p loose m₀ (m, r.2) := by
  have hm := write_eq heq
  have hpae : m.pae = r.1.pae := by rw [hm]
  refine ⟨?_, ?_, h.pos, ?_⟩
  · rw [hpae]
    exact h.taking
  · rw [hpae]
    exact h.live
  · rw [hm, h.same]

theorem loadPage (flags : Flags) (page : Nat) :
    Ends (Holding s₀ p loose m₀) (loadPage p flags r page) := by
  unfold Elf.loadPage
  rcases h.taking.inv.pmmAlloc with ⟨n, s, halloc, hinv, htook, hpos, -, -⟩ | ⟨s, halloc, hinv, htook⟩
  · rw [halloc]
    dsimp only
    have hlive : s.live p = true := by
      rw [htook.live]
      exact h.live
    have hmore : Holding s₀ p loose m₀ (r.1.setPae s, r.2 ++ [n]) := by
      refine ⟨(h.taking.took hinv htook).perm ?_, hlive, ?_, by rw [h.same]; rfl⟩
      · apply count_perm
        rw [held_append, held_single hpos]
        simp only [count_append, count_cons, count_nil]
        omega
      · refine forall_mem_append.mpr ⟨h.pos, forall_mem_singleton.mpr ?_⟩
        exact hpos
    split
    · exact hmore
    · exact hmore.mapPage page _
  · rw [halloc]
    refine ⟨h.taking.took hinv htook, ?_, h.pos, by rw [h.same]; rfl⟩
    show s.live p = true
    rw [htook.live]
    exact h.live

theorem copySegment (heq : copySegment f ph p r.1 = some m) : Holding s₀ p loose m₀ (m, r.2) := by
  obtain ⟨m₁, h₁, heq⟩ := Option.bind_eq_some_iff.mp heq
  obtain ⟨m₂, h₂, heq⟩ := Option.bind_eq_some_iff.mp heq
  obtain ⟨m₃, h₃, h₄⟩ := Option.bind_eq_some_iff.mp heq
  exact (((h.write h₁).write h₂).write h₃).write h₄

theorem remap (pages frames : List Nat) :
    Holding s₀ p loose m₀ (remap p flags pages frames r.1, r.2) := by
  obtain ⟨s, heq, htaking, hlive⟩ := taking_mapPages (pages.zip frames)
    (fun i => i.1) (fun i => ⟨i.2, flags⟩) h.taking h.live
  have hremap : Elf.remap p flags pages frames r.1 = r.1.setPae s := heq
  rw [hremap]
  refine ⟨htaking, hlive, h.pos, ?_⟩
  rw [h.same]
  rfl

theorem loadSegment (ph : Phdr) : Ends (Holding s₀ p loose m₀) (loadSegment f p r ph) := by
  unfold Elf.loadSegment
  split
  · exact h
  split
  · exact h
  have hpages := ends_foldlM
    (fun _ page (h : Holding s₀ p loose m₀ _) => h.loadPage ph.pageFlags page) ph.pages h
  split
  · rename_i stop heq
    rw [heq] at hpages
    exact hpages
  rename_i m₁ frames heq
  rw [heq] at hpages
  split
  · trivial
  rename_i m₂ hcopy
  have hcopied := copySegment (r := (m₁, frames)) hpages hcopy
  split
  · exact hcopied
  · exact hcopied.remap _ _

theorem loads : Ends (Holding s₀ p loose m₀) (f.loads.foldlM (Elf.loadSegment f p) r) :=
  ends_foldlM (fun _ ph h => h.loadSegment ph) f.loads h

end Holding

/-! ## The pid of the new task -/

/-- With so many pids and so few tasks one is not in use. -/
theorem exists_free_pid (m : Machine) :
    ∃ pid ∈ (List.range' 100 65436).map UInt32.ofNat, pidInUse m pid = false := by
  by_contra hall
  push Not at hall
  have hsub : ((Finset.range 65436).image fun i => UInt32.ofNat (100 + i)) ⊆
      Finset.univ.image fun i : Slot => (m.tasks i).pid := by
    intro pid hpid
    obtain ⟨i, hi, rfl⟩ := Finset.mem_image.mp hpid
    have hused := hall (UInt32.ofNat (100 + i)) (mem_map_of_mem (mem_range'_1.mpr
      ⟨by omega, by have := Finset.mem_range.mp hi; omega⟩))
    simp only [pidInUse, ne_eq, Bool.not_eq_false, any_eq_true, Bool.and_eq_true,
      beq_iff_eq] at hused
    obtain ⟨j, -, hj, -⟩ := hused
    exact Finset.mem_image.mpr ⟨j, Finset.mem_univ j, hj⟩
  have hcard := Finset.card_le_card hsub
  have hslots : (Finset.univ.image fun i : Slot => (m.tasks i).pid).card ≤ 32 :=
    Finset.card_image_le.trans (by simp [maxTasks])
  rw [Finset.card_image_of_injOn, Finset.card_range] at hcard
  · omega
  · intro i hi j hj hij
    have hi := Finset.mem_range.mp hi
    have hj := Finset.mem_range.mp hj
    have := congrArg UInt32.toNat hij
    simp only [UInt32.toNat_ofNat'] at this
    omega

theorem pidInUse_taskAllocPid (m : Machine) (draws : Nat → UInt16) :
    pidInUse m (taskAllocPid m draws) = false := by
  unfold taskAllocPid
  cases hdraw : ((List.range 1000).map fun i => 100 + (draws i).toUInt32 % 65436).find?
      fun pid => !pidInUse m pid with
  | some pid => simpa using find?_some hdraw
  | none =>
    cases hseq : ((List.range' 100 65436).map UInt32.ofNat).find? fun pid => !pidInUse m pid with
    | some pid => simpa using find?_some hseq
    | none =>
      obtain ⟨pid, hmem, hfree⟩ := exists_free_pid m
      have hused := find?_eq_none.mp hseq pid hmem
      simp [hfree] at hused

theorem find_slot {q : Slot → Bool} {i : Slot} :
    (List.finRange maxTasks).find? q = some i ↔ q i = true ∧ ∀ j < i, q j = false := by
  rw [find?_eq_some_iff_getElem]
  constructor
  · rintro ⟨hq, k, hk, rfl, hbefore⟩
    refine ⟨hq, fun j hj => ?_⟩
    have hlt : j.val < k := by simpa [Fin.lt_def] using hj
    simpa using hbefore j.val hlt
  · rintro ⟨hq, hbefore⟩
    refine ⟨hq, i.val, by simp, by simp, fun j hj => ?_⟩
    simpa using hbefore ⟨j, by omega⟩ hj

/-- The pid that a task in this slot is going to have. -/
def drawnPid (m : Machine) (x : Request) (slot : Slot) : UInt32 :=
  taskAllocPid (m.modifyTask slot fun _ => {}) x.draws

theorem pid_claimSlot (m : Machine) (x : Request) (slot : Slot) :
    ((claimSlot m x slot).tasks slot).pid = drawnPid m x slot := by
  simp only [claimSlot, tasks_modifyTask]
  rfl

theorem drawnPid_unused {i : Slot} (hi : i ≠ slot) (hpid : (m.tasks i).pid = drawnPid m x slot) :
    (m.tasks i).state = .terminated := by
  have hunused := pidInUse_taskAllocPid (m.modifyTask slot fun _ => {}) x.draws
  have hall := any_eq_false.mp hunused i (mem_finRange i)
  have htask : (m.modifyTask slot fun _ => {}).tasks i = m.tasks i :=
    (elsewhere_modifyTask slot m _).tasks i hi
  rw [htask, hpid] at hall
  simpa [drawnPid] using hall

/-- A terminated task in a lower slot has the pid that is drawn. -/
def StalePid (m : Machine) (x : Request) (slot : Slot) : Prop :=
  ∃ i < slot, (m.tasks i).pid = drawnPid m x slot

section lookup

variable (hcreated : Created m.pae loose (claimSlot m x slot) slot m')

include hcreated

theorem Created.tasks_ne {i : Slot} (hi : i ≠ slot) : m'.tasks i = m.tasks i :=
  (hcreated.elsewhere.tasks i hi).trans ((elsewhere_claimSlot m x slot).tasks i hi)

theorem Created.pid_eq : (m'.tasks slot).pid = drawnPid m x slot :=
  hcreated.pid.trans (pid_claimSlot m x slot)

theorem Created.taskGet (htasks : m₀.tasks = m'.tasks) :
    taskGet m₀ (m'.tasks slot).pid = some slot := by
  rw [Elf.taskGet, htasks]
  rw [find_slot]
  constructor
  · simp [hcreated.state]
  · intro j hj
    have hne : j ≠ slot := ne_of_lt hj
    rw [hcreated.tasks_ne hne, hcreated.pid_eq]
    by_cases hpid : (m.tasks j).pid = drawnPid m x slot
    · simp [drawnPid_unused hne hpid]
    · simp [hpid]

theorem Created.taskGetAny (hpid : (m'.tasks slot).pid ≠ 0) :
    (¬ StalePid m x slot ∧ taskGetAny m' (m'.tasks slot).pid = some slot) ∨
    (StalePid m x slot ∧ ∃ i, taskGetAny m' (m'.tasks slot).pid = some i ∧
      (m'.tasks i).state = .terminated) := by
  have hfirst : ∀ j < slot, ((m'.tasks j).pid == (m'.tasks slot).pid) = true ↔
      (m.tasks j).pid = drawnPid m x slot := by
    intro j hj
    rw [hcreated.tasks_ne (ne_of_lt hj), hcreated.pid_eq, beq_iff_eq]
  rw [Elf.taskGetAny, if_neg hpid]
  by_cases hstale : StalePid m x slot
  · right
    obtain ⟨i, hi, hsame⟩ := hstale
    cases hfind : (List.finRange maxTasks).find? fun i => (m'.tasks i).pid == (m'.tasks slot).pid with
    | none =>
      have hnot := find?_eq_none.mp hfind i (mem_finRange i)
      exact absurd ((hfirst i hi).mpr hsame) hnot
    | some k =>
      obtain ⟨hk, hbefore⟩ := find_slot.mp hfind
      have hlt : k < slot := by
        by_contra hge
        have hik := hbefore i (lt_of_lt_of_le hi (not_lt.mp hge))
        rw [(hfirst i hi).mpr hsame] at hik
        cases hik
      refine ⟨⟨i, hi, hsame⟩, k, rfl, ?_⟩
      rw [hcreated.tasks_ne (ne_of_lt hlt)]
      exact drawnPid_unused (ne_of_lt hlt) ((hfirst k hlt).mp hk)
  · left
    refine ⟨hstale, find_slot.mpr ⟨by simp, fun j hj => ?_⟩⟩
    by_contra hsame
    exact hstale ⟨j, hj, (hfirst j hj).mp (by simpa using hsame)⟩

end lookup

/-! ## Failing -/

/-- What holds of a machine on which a program is loaded: the frames in use are those of page tables and
the loose ones, and neither the caller nor a task that is ready is in a free slot. -/
structure Sound (m : Machine) (x : Request) (loose : List Frame) : Prop where
  inv : Inv m.pae loose
  ready : ∀ i ∈ m.ready, m.freeSlots i = false
  current : ∀ c, x.current = some c → m.freeSlots c = false

/-- The checks that come before anything is taken let the request through. -/
def Admitted (m : Machine) (x : Request) : Prop :=
  (checkArgv x).isSome = true ∧ checkLimits m x = true ∧ x.rateAllows = true ∧
    (taskFindFreeSlot m).isSome = true

theorem admitted_of_create {stackPages : Nat} {pid : UInt32}
    (heq : taskCreateUserArgv x stackPages m = some (.ok pid, m')) : Admitted m x := by
  simp only [taskCreateUserArgv] at heq
  split at heq
  · cases heq
  rename_i bytes hargv
  split at heq
  · cases heq
  rename_i hlimits
  split at heq
  · cases heq
  rename_i hrate
  split at heq
  · cases heq
  · rename_i slot hfind
    exact ⟨by rw [hargv]; rfl, by simpa using hlimits, by simpa using hrate, by rw [hfind]; rfl⟩

/-- A load that left nothing but nodes of RAMFS. -/
structure Unwound (m : Machine) (loose : List Frame) (nodes : List Nat) (m' : Machine) : Prop where
  made : m'.nodes = nodes ++ m.nodes
  giving : Giving m.pae none m'.pae (nodes.map .phys ++ loose)
  freeSlots : m'.freeSlots = m.freeSlots
  ready : m'.ready = m.ready

theorem find_free (h : taskFindFreeSlot m = some slot) : m.freeSlots slot = true :=
  (find_slot.mp h).1

theorem Undone.unwound {x : Request} (hfind : taskFindFreeSlot m = some slot)
    (h : Undone m.pae loose (claimSlot m x slot) slot m') :
    Unwound m loose [] m' where
  made := h.nodes
  giving := h.giving
  freeSlots := by
    funext i
    by_cases hi : i = slot
    · rw [hi, h.freeSlots, find_free hfind]
    · exact (h.elsewhere.freeSlots i hi).trans ((elsewhere_claimSlot m x slot).freeSlots i hi)
  ready := h.elsewhere.ready

theorem abort_unwound {frames : List Nat} {m₁ m₂ : Machine} (hsound : Sound m x loose)
    (hfind : taskFindFreeSlot m = some slot)
    (hcreated : Created m.pae loose (claimSlot m x slot) slot m₁)
    (hholding : ∀ nodes : List Nat, Taking m.pae (some (m₁.tasks slot).pageDirectory) m₁.pae
        (held (m₁.tasks slot).frames ++ nodes.map .phys ++ loose) →
      Holding m.pae (m₁.tasks slot).pageDirectory
        (held (m₁.tasks slot).frames ++ nodes.map .phys ++ loose) m₁ (m₂, frames)) :
    ∃ nodes, m₁.nodes = nodes ++ m.nodes ∧
      Unwound m loose nodes (elfAbortLoad m₂ frames x.current (m₁.tasks slot).pid) := by
  obtain ⟨nodes, hnodes, htaking⟩ := hcreated.taking
  have hhold := hholding nodes htaking
  have hfree := find_free hfind
  have hm₂ : m₂ = { m₁ with pae := m₂.pae, bytes := m₂.bytes } := hhold.same
  generalize hm₃ : m₂.setPae (frames.foldl pmmFree m₂.pae) = m₃
  have htasks : m₃.tasks = m₁.tasks := by
    rw [← hm₃, hm₂]
    rfl
  have hready : m₃.ready = m.ready := by
    rw [← hm₃, hm₂]
    exact hcreated.elsewhere.ready
  have hgiving : Giving m.pae (some (m₁.tasks slot).pageDirectory) m₃.pae
      (held (m₁.tasks slot).frames ++ (nodes.map .phys ++ loose)) := by
    rw [← hm₃, ← append_assoc]
    rw [foldl_pmmFree_eq hhold.pos]
    exact hhold.taking.giving.freed
  have hlive : m₃.pae.live (m₁.tasks slot).pageDirectory = true := by
    rw [← hm₃]
    show (frames.foldl pmmFree m₂.pae).live _ = true
    rw [foldl_pmmFree_eq hhold.pos, (intact_freed _).live]
    exact hhold.live
  have hcurrent : x.current ≠ some slot := by
    intro hcur
    rw [hsound.current slot hcur] at hfree
    cases hfree
  have hslot : slot ∉ m₃.ready := by
    rw [hready]
    intro hmem
    rw [hsound.ready slot hmem] at hfree
    cases hfree
  have hkillable : (m₃.tasks slot).unkillable = false := by
    rw [htasks]
    exact hcreated.killable
  have hfreed : Giving m.pae none (taskFreeResources m₃ slot).pae (nodes.map .phys ++ loose) := by
    rw [← htasks] at hgiving hlive
    apply giving_freeResources _ rfl _ hgiving hlive
    · rw [htasks]
      exact hcreated.new
    · rw [htasks, hgiving.besides.frames]
      rw [← htaking.besides.frames]
      exact hcreated.guard
    · rw [htasks]
      exact hcreated.user
    · rw [htasks]
      exact hcreated.directory
  refine ⟨nodes, hnodes, ?_⟩
  rw [elfAbortLoad, hm₃, taskTerminate, hcreated.taskGet htasks]
  dsimp only
  rw [if_neg (by rw [hkillable]; exact Bool.false_ne_true), if_neg hcurrent]
  constructor
  case made =>
    rw [← hm₃, hm₂]
    exact hnodes
  case giving => exact hfreed
  case freeSlots =>
    funext i
    by_cases hi : i = slot
    · rw [hi, hfree]
      simp [taskFreeSlot]
    have hbits : m₃.freeSlots i = m.freeSlots i := by
      rw [← hm₃, hm₂]
      exact (hcreated.elsewhere.freeSlots i hi).trans
        ((elsewhere_claimSlot m x slot).freeSlots i hi)
    rw [← hbits]
    simp [taskFreeSlot, Machine.modifyTask, taskFreeResources, hi]
  case ready =>
    show m₃.ready.erase slot = m.ready
    rw [erase_of_not_mem hslot, hready]

theorem loadImage_fails {m₁ : Machine} {e : Int} (hsound : Sound m x loose)
    (hfind : taskFindFreeSlot m = some slot)
    (hcreated : Created m.pae loose (claimSlot m x slot) slot m₁)
    (hpid : (m₁.tasks slot).pid ≠ 0)
    (heq : loadImage f x m₁ (m₁.tasks slot).pid = some (.error e, m')) :
    (StalePid m x slot ∧ m' = m₁) ∨
    (¬ StalePid m x slot ∧ ∃ nodes, m₁.nodes = nodes ++ m.nodes ∧ Unwound m loose nodes m') := by
  unfold loadImage at heq
  rcases hcreated.taskGetAny hpid with ⟨hfresh, hget⟩ | ⟨hstale, i, hget, hterminated⟩
  · right
    refine ⟨hfresh, ?_⟩
    rw [hget] at heq
    dsimp only at heq
    rw [if_neg (by rw [hcreated.state]; decide)] at heq
    split at heq
    · cases heq
    · rename_i m₂ frames hloop
      cases heq
      apply abort_unwound hsound hfind hcreated
      intro nodes htaking
      have hstart : Holding m.pae (m₁.tasks slot).pageDirectory
          (held (m₁.tasks slot).frames ++ nodes.map .phys ++ loose) m₁ (m₁, []) :=
        ⟨htaking, hcreated.live, by simp, rfl⟩
      have hend := hstart.loads (f := f)
      rw [hloop] at hend
      exact hend
    · cases heq
  · left
    rw [hget] at heq
    dsimp only at heq
    rw [if_pos hterminated] at heq
    cases heq
    exact ⟨hstale, rfl⟩

/-! ## Clean -/

/-- Nothing is left of a call: the same frames are in use, the same address spaces are registered, the
same slots are free and the same tasks ready, and no frame was returned twice. -/
structure Clean (m m' : Machine) : Prop where
  inUse : ∀ f, m'.pae.InUse f ↔ m.pae.InUse f
  userPdpts : m'.pae.userPdpts = m.pae.userPdpts
  freeSlots : m'.freeSlots = m.freeSlots
  ready : m'.ready = m.ready
  once : ∃ fs, m'.pae.returned = fs ++ m.pae.returned ∧ fs.Nodup

theorem Unwound.clean_iff {nodes : List Nat} (hinv : Inv m.pae loose)
    (h : Unwound m loose nodes m') : Clean m m' ↔ nodes = [] := by
  constructor
  · intro hclean
    by_contra hne
    obtain ⟨n, rest, rfl⟩ := exists_cons_of_ne_nil hne
    have hgiving := h.giving
    -- The node's frame is in use now; it was neither loose nor owned before.
    have hused : m'.pae.InUse (.phys n) := hgiving.inv.looseInUse mem_cons_self
    rcases hinv.owned ((hclean.inUse _).mp hused) with hl | ⟨σ, ho⟩
    · exact (nodup_cons.mp hgiving.inv.nodup).1 (mem_append_right _ hl)
    · exact hgiving.inv.looseFree mem_cons_self ((hgiving.besides.owns (by simp)).mpr ho)
  · rintro rfl
    obtain ⟨hused, hregistry, fs, hreturned, hnodup, -⟩ := h.giving.restored hinv
    exact ⟨hused, hregistry, h.freeSlots, h.ready, fs, hreturned, hnodup⟩

theorem Created.not_clean (h : Created m.pae loose m₀ slot m') : ¬ Clean m m' := by
  intro hclean
  apply h.new
  have hlive := h.live
  rw [State.live, hclean.userPdpts] at hlive
  exact hlive

end TinyOS.Elf
