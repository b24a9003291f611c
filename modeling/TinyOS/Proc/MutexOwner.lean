import TinyOS.Proc.Moves

/-!
# Mutexes: does a locked mutex have a live owner?

A mutex is handed from owner to owner by pid. `Owned` says that the pid is that of a task
that has not ended and that acquired the mutex or was handed it. Neither
`task_terminate_task` nor `sys_exit` releases a mutex, so it holds as long as no task ends
while it owns one (`OwnerGuard`).
-/

namespace TinyOS.Proc

open Lib Kernel List

/-- Each locked mutex is owned by a live task that acquired it. -/
def Owned (k : Kernel) : Prop :=
  ∀ id, (k.mutexes id).locked = true →
    ∃ s, (k.tasks s).pid = (k.mutexes id).ownerPid ∧ (k.tasks s).dead = false ∧
      (k.tasks s).incarnation = (k.mutexes id).holder

/-- The pid of the task in slot `s` owns a locked mutex. -/
def OwnsMutex (k : Kernel) (s : Slot) : Prop :=
  ∃ id, (k.mutexes id).locked = true ∧ (k.mutexes id).ownerPid = (k.tasks s).pid

instance (k : Kernel) (s : Slot) : Decidable (OwnsMutex k s) :=
  inferInstanceAs (Decidable (∃ _, _))

/-- The slots whose task a step ends, or overwrites. -/
def Instr.ends (x : Input) (self : Slot) (k : Kernel) : Instr → List Slot
  | .kill (.markTerminated r) => [r.slot]
  | .kill (.clearPid r) => [r.slot]
  | .exit (.zombie _) => [self]
  | .spawn (.create _) => [x.slot]
  | .spawn .claim => k.taskFindFreeSlot.toList
  | .spawn (.clear r) => [r.slot]
  | .spawn (.assignPid r) => [r.slot]
  | .spawn (.dropPid r) => [r.slot]
  | _ => []

/-- Only a live task takes a mutex, and no task queued on a mutex that is unlocked has
exited. -/
def Instr.TakerGuard (self : Slot) (k : Kernel) : Instr → Prop
  | .mutex (.lock _) => (k.tasks self).dead = false
  | .mutex (.trylock _) => (k.tasks self).dead = false
  | .mutex (.unlock id) =>
    ∀ w ∈ (k.mutexes id).waiters, ∀ s,
      (k.tasks s).pid = w.1 → (k.tasks s).generation = w.2 → (k.tasks s).state ≠ .zombie
  | _ => True

instance (self : Slot) (k : Kernel) : (i : Instr) → Decidable (i.TakerGuard self k)
  | .mutex (.lock _) => inferInstanceAs (Decidable (_ = _))
  | .mutex (.trylock _) => inferInstanceAs (Decidable (_ = _))
  | .mutex (.unlock _) => inferInstanceAs (Decidable (∀ _ ∈ _, _))
  | .kill _ | .exit _ | .sched _ | .hold _ | .spawn _ => inferInstanceAs (Decidable True)

/-- What the next step of the task in slot `self` must meet: a task that ends owns no
mutex. -/
def Instr.OwnerGuard (x : Input) (self : Slot) (k : Kernel) (i : Instr) : Prop :=
  (∀ s ∈ i.ends x self k, ¬ OwnsMutex k s) ∧ i.TakerGuard self k

instance (x : Input) (self : Slot) (k : Kernel) (i : Instr) : Decidable (i.OwnerGuard x self k) :=
  inferInstanceAs (Decidable (_ ∧ _))

/-- No task ends while it owns a mutex. -/
def OwnerGuard (m : Machine) : Event → Prop
  | .step x =>
    ∀ self ∈ m.kernel.currentRunningTask, ∀ i ∈ (m.codeOf self).head?,
      i.OwnerGuard x self m.kernel
  | .tick => ∀ r ∈ m.kernel.cleanupQueue, ¬ OwnsMutex m.kernel r.slot
  | .fault => ∀ self ∈ m.kernel.currentRunningTask, ¬ OwnsMutex m.kernel self
  | .call _ => True
  | .net _ _ => True

instance (m : Machine) : (e : Event) → Decidable (OwnerGuard m e)
  | .step _ => inferInstanceAs (Decidable (∀ _ ∈ _, _))
  | .tick => inferInstanceAs (Decidable (∀ _ ∈ _, _))
  | .fault => inferInstanceAs (Decidable (∀ _ ∈ _, _))
  | .call _ => inferInstanceAs (Decidable True)
  | .net _ _ => inferInstanceAs (Decidable True)

/-! ## Tasks that do not end -/

/-- Every live task outside the slots `l` goes on, and no mutex changes. -/
structure GoesOn (l : List Slot) (k k' : Kernel) : Prop where
  mutexes : k'.mutexes = k.mutexes
  task : ∀ s, s ∉ l → (k.tasks s).dead = false →
    (k'.tasks s).dead = false ∧ (k'.tasks s).pid = (k.tasks s).pid ∧
      (k'.tasks s).incarnation = (k.tasks s).incarnation

namespace GoesOn

variable {l : List Slot} {s : Slot} {k k₁ k' : Kernel}

theorem of_eq (htasks : k'.tasks = k.tasks) (hmutexes : k'.mutexes = k.mutexes) : GoesOn l k k' :=
  ⟨hmutexes, fun s _ hs => by rw [htasks]; exact ⟨hs, rfl, rfl⟩⟩

@[refl] theorem refl (l : List Slot) (k : Kernel) : GoesOn l k k := .of_eq rfl rfl

theorem trans (h₁ : GoesOn l k k₁) (h₂ : GoesOn l k₁ k') : GoesOn l k k' := by
  refine ⟨h₂.mutexes.trans h₁.mutexes, fun s hs halive => ?_⟩
  obtain ⟨halive₁, hpid₁, hinc₁⟩ := h₁.task s hs halive
  obtain ⟨halive₂, hpid₂, hinc₂⟩ := h₂.task s hs halive₁
  exact ⟨halive₂, hpid₂.trans hpid₁, hinc₂.trans hinc₁⟩

/-- A change of what tasks and mutexes do not tell, before or after. -/
theorem after_eq (h : GoesOn l k₁ k') (htasks : k₁.tasks = k.tasks) (hmutexes : k₁.mutexes = k.mutexes) :
    GoesOn l k k' := (of_eq htasks hmutexes).trans h

@[inherit_doc after_eq]
theorem then_eq (h : GoesOn l k k₁) (htasks : k'.tasks = k₁.tasks)
    (hmutexes : k'.mutexes = k₁.mutexes) : GoesOn l k k' := h.trans (of_eq htasks hmutexes)

theorem of_quiet {self : Slot} (h : Quiet self k k') : GoesOn l k k' :=
  ⟨h.mutexes, fun s _ hs => ⟨h.alive hs, h.pid s, h.incarnation s⟩⟩

theorem of_switch {prev : Slot} (h : Switch prev k k') : GoesOn l k k' := by
  refine ⟨congrArg Ledger.mutexes h.ledger, fun s _ halive => ⟨?_, ?_, ?_⟩⟩
  · rcases h.state s with heq | ⟨halive', -⟩
    · simpa only [Task.dead, heq] using halive
    · exact halive'
  · exact congrArg Life.pid (h.life s)
  · exact congrArg Life.incarnation (h.life s)

theorem of_faults {prev : Slot} (hprev : prev ∈ l) (h : Faults prev k k') : GoesOn l k k' := by
  refine ⟨congrArg Ledger.mutexes h.ledger, fun s hs halive => ⟨?_, ?_, ?_⟩⟩
  · rcases h.state s (fun heq => hs (heq ▸ hprev)) with heq | ⟨halive', -⟩
    · simpa only [Task.dead, heq] using halive
    · exact halive'
  · exact congrArg Life.pid (h.life s)
  · exact congrArg Life.incarnation (h.life s)

theorem of_ended (hs : s ∈ l) (htasks : ∀ x, x ≠ s → k'.tasks x = k.tasks x)
    (hmutexes : k'.mutexes = k.mutexes) : GoesOn l k k' := by
  refine ⟨hmutexes, fun x hx halive => ?_⟩
  have hne : x ≠ s := fun h => hx (h ▸ hs)
  rw [htasks x hne]
  exact ⟨halive, rfl, rfl⟩

theorem modify_ended (hs : s ∈ l) {f : Task → Task} : GoesOn l k (k.modifyTask s f) :=
  .of_ended hs (fun _ hx => modifyTask_ne hx k f) rfl

theorem modify {f : Task → Task}
    (hf : ∀ t : Task, t.dead = false →
      (f t).dead = false ∧ (f t).pid = t.pid ∧ (f t).incarnation = t.incarnation) :
    GoesOn l k (k.modifyTask s f) := by
  refine ⟨rfl, fun x _ halive => ?_⟩
  by_cases hx : x = s
  · subst hx
    rw [modifyTask_self]
    exact hf _ halive
  · rw [modifyTask_ne hx]
    exact ⟨halive, rfl, rfl⟩

end GoesOn

namespace Kernel

variable {l : List Slot} {s : Slot} {k k' : Kernel}

theorem schedulerAddTask_goesOn (h : k.schedulerAddTask s = .ok k') : GoesOn l k k' := by
  unfold schedulerAddTask at h
  split at h
  · cases h
    rfl
  split at h
  · cases h
    rfl
  obtain ⟨q, -, rfl⟩ := map_returns h
  refine (GoesOn.modify (s := s)
    (f := fun t => { t with state := .ready, ticksRemaining := t.timeSlice }) ?_).then_eq rfl rfl
  exact fun t _ => ⟨rfl, rfl, rfl⟩

theorem taskFreeResources_goesOn : GoesOn l k (k.taskFreeResources s) := by
  refine (GoesOn.modify (s := s) (f := fun t =>
    { t with frames := if t.isKernelTask then { t.frames with kernelStack := [] } else .none })
    ?_).then_eq rfl rfl
  exact fun t ht => ⟨ht, rfl, rfl⟩

theorem exitSection_goesOn {self : Slot} {status : Int} (hself : self ∈ l)
    (h : k.exitSection self status = .ok k') : GoesOn l k k' := by
  obtain ⟨k₁, hnotify, hremove⟩ := bind_returns h
  refine GoesOn.trans ?_ (.of_quiet (schedulerRemoveTask_quiet (c := self) hremove))
  refine GoesOn.trans ?_ (.of_quiet (waitpidNotifyDeath_quiet (c := self) hnotify))
  exact GoesOn.trans (.of_quiet (closeStreams_quiet (c := self))) (.modify_ended hself)

/-! ### The reaper -/

theorem reap_goesOn {r : Ref} (hr : r.slot ∈ l) (h : k.reap r = .ok k') : GoesOn l k k' :=
  .of_ended hr (reap_reaps h).others (reap_reaps h).mutexes

theorem drainCleanup_goesOn (h : k.drainCleanup = .ok k') :
    GoesOn (k.cleanupQueue.map Ref.slot) k k' := by
  have hloop : ∀ (rs : List Ref) (k₁ k₂ : Kernel), rs ⊆ k.cleanupQueue →
      rs.foldlM reap k₁ = .ok k₂ → GoesOn (k.cleanupQueue.map Ref.slot) k₁ k₂ := by
    intro rs
    induction rs with
    | nil =>
      intro k₁ k₂ _ hfold
      cases hfold
      rfl
    | cons r rs ih =>
      intro k₁ k₂ hsub hfold
      obtain ⟨k₃, hreap, hrest⟩ := bind_returns hfold
      have hmem : r ∈ k.cleanupQueue := hsub (by simp)
      have hfirst := reap_goesOn (mem_map_of_mem (f := Ref.slot) hmem) hreap
      exact hfirst.trans (ih k₃ k₂ (fun x hx => hsub (by simp [hx])) hrest)
  exact (hloop _ { k with cleanupQueue := [] } _ (fun _ h => h) h).after_eq rfl rfl

theorem tick_goesOn (h : k.tick = .ok k') : GoesOn (k.cleanupQueue.map Ref.slot) k k' := by
  unfold tick at h
  dsimp only at h
  split at h
  · cases h
    exact .of_eq rfl rfl
  rename_i self hself
  obtain ⟨k₁, hwake, h⟩ := bind_returns h
  obtain ⟨k₂, hdrain, hcount⟩ := bind_returns h
  have hquiet := wakeSleepers_quiet (c := self) hwake
  have hqueue : k₁.cleanupQueue = k.cleanupQueue := hquiet.cleanupQueue
  have hdrained := drainCleanup_goesOn hdrain
  rw [hqueue] at hdrained
  exact ((GoesOn.of_quiet hquiet).trans (hdrained.trans
      (.of_switch (countTick_switch hcount)))).after_eq rfl rfl

/-! ### Creating a task -/

theorem claimSlot_goesOn {self : Option Slot} (hs : s ∈ l) : GoesOn l k (k.claimSlot self s) :=
  .of_ended hs (fun x hx => by simp [claimSlot, modifyTask_ne hx]) rfl

theorem clearTask_goesOn (hs : s ∈ l) : GoesOn l k (k.clearTask s) :=
  .of_ended hs (fun x hx => by simp [clearTask, modifyTask_ne hx]) rfl

theorem assignPid_goesOn {draws : Nat → UInt16} (hs : s ∈ l) : GoesOn l k (k.assignPid s draws) :=
  .of_ended hs (fun x hx => by simp [assignPid, modifyTask_ne hx]) rfl

theorem storeCredential_goesOn {self : Slot} {f : Task → Task}
    (hf : ∀ t : Task, t.dead = false →
      (f t).dead = false ∧ (f t).pid = t.pid ∧ (f t).incarnation = t.incarnation) :
    GoesOn l k (k.storeCredential self s f) :=
  (GoesOn.modify (k := k.noteStore self s) hf).after_eq rfl rfl

theorem create_goesOn {self : Option Slot} {new : NewTask} {frames : Frames}
    {draws : Nat → UInt16} (hs : s ∈ l) (h : k.create self new s frames draws = .ok k') :
    GoesOn l k k' := by
  rcases create_begins h with rfl | hbegins
  · rfl
  · exact .of_ended hs hbegins.others (congrArg Ledger.mutexes hbegins.ledger)

end Kernel

/-! ## Steps that do not touch a mutex -/

section steps

variable {x : Input} {self : Slot} {k k' : Kernel} {more : List Instr}

theorem KillInstr.exec_goesOn {i : KillInstr} (h : i.exec self k = .ok (k', more)) :
    GoesOn ((Instr.kill i).ends x self k) k k' := by
  cases i with
  | check pid | terminateStatus pid generation status =>
    simp only [KillInstr.exec] at h
    split at h
    · cases h
      rfl
    split at h <;> cases h <;> rfl
  | terminate pid | protection r status =>
    simp only [KillInstr.exec] at h
    split at h <;> cases h <;> rfl
  | waitQueueRemove r =>
    cases h
    exact .of_quiet (waitQueueRemoveTask_quiet (c := self))
  | notifyDeath r status =>
    obtain ⟨k₁, hnotify, heq⟩ := map_returns h
    cases heq
    exact .of_quiet (waitpidNotifyDeath_quiet (c := self) hnotify)
  | release r hold =>
    obtain ⟨k₁, hrelease, heq⟩ := map_returns h
    cases heq
    exact (GoesOn.of_quiet (releaseHolding_quiet (c := self) hrelease)).after_eq rfl rfl
  | compare r =>
    cases h
    rfl
  | freeResources r =>
    cases h
    exact taskFreeResources_goesOn.after_eq rfl rfl
  | markTerminated r | clearPid r =>
    cases h
    exact .modify_ended (by simp [Instr.ends])
  | removeTask r =>
    obtain ⟨k₁, hremove, heq⟩ := map_returns h
    cases heq
    exact (GoesOn.of_quiet (schedulerRemoveTask_quiet (c := self) hremove)).after_eq rfl rfl
  | freeSlot r =>
    cases h
    exact .of_eq rfl rfl

theorem ExitInstr.exec_goesOn {i : ExitInstr} (h : i.exec self k = .ok (k', more)) :
    GoesOn ((Instr.exit i).ends x self k) k k' := by
  cases i with
  | release hold =>
    obtain ⟨k₁, hrelease, heq⟩ := map_returns h
    cases heq
    exact .of_quiet (releaseHolding_quiet (c := self) hrelease)
  | zombie status =>
    obtain ⟨k₁, hexit, heq⟩ := map_returns h
    cases heq
    exact exitSection_goesOn (by simp [Instr.ends]) hexit
  | panic => cases h

theorem SchedInstr.exec_goesOn {i : SchedInstr} {l : List Slot}
    (h : i.exec self k = .ok (k', more)) : GoesOn l k k' := by
  by_cases hi : i = .schedule
  · subst hi
    obtain ⟨k₁, hschedule, heq⟩ := map_returns h
    cases heq
    exact .of_switch (countTick_switch hschedule)
  · exact .of_quiet (SchedInstr.exec_quiet hi h).1

theorem SpawnInstr.exec_goesOn {i : SpawnInstr} (h : i.exec x self k = .ok (k', more)) :
    GoesOn ((Instr.spawn i).ends x self k) k k' := by
  cases i with
  | create new =>
    obtain ⟨k₁, hcreate, heq⟩ := map_returns h
    cases heq
    exact create_goesOn (by simp [Instr.ends]) hcreate
  | claim =>
    simp only [SpawnInstr.exec] at h
    split at h
    · cases h
      rfl
    rename_i s hs
    cases h
    exact claimSlot_goesOn (by simp [Instr.ends, hs])
  | clear r =>
    cases h
    exact clearTask_goesOn (by simp [Instr.ends])
  | assignPid r =>
    cases h
    exact assignPid_goesOn (by simp [Instr.ends])
  | dropPid r =>
    cases h
    exact .modify_ended (by simp [Instr.ends])
  | limits =>
    cases h
    rfl
  | returnPid r =>
    cases h
    rfl
  | setParent r =>
    cases h
    exact .of_quiet (setParent_quiet (c := self))
  | allocate r | allocateUser r =>
    simp only [SpawnInstr.exec] at h
    split at h
    · cases h
      exact .modify fun _ ht => ⟨ht, rfl, rfl⟩
    · cases h
      rfl
  | dropSlot r =>
    cases h
    exact .of_eq rfl rfl
  | defaultCreds r =>
    cases h
    exact .modify fun _ ht => ⟨ht, rfl, rfl⟩
  | initTables r =>
    cases h
    exact .of_quiet (initTables_quiet (c := self))
  | markReady r =>
    cases h
    exact .modify fun _ _ => ⟨rfl, rfl, rfl⟩
  | load pid | child pid =>
    simp only [SpawnInstr.exec] at h
    split at h <;> cases h <;> rfl
  | setUid r | setGid r | setEuid r | setEgid r =>
    cases h
    exact storeCredential_goesOn fun _ ht => ⟨ht, rfl, rfl⟩
  | inherit r =>
    cases h
    exact .of_quiet (streamsInherit_quiet (c := self))
  | add r =>
    obtain ⟨k₁, hadd, heq⟩ := map_returns h
    cases heq
    exact schedulerAddTask_goesOn hadd

/-- Every step that does not touch a mutex lets the other tasks go on. -/
theorem Instr.exec_goesOn {i : Instr} (hi : ∀ j, i ≠ .mutex j)
    (h : i.exec x self k = .ok (k', more)) : GoesOn (i.ends x self k) k k' := by
  cases i with
  | kill i | exit i | sched i | spawn i => exact i.exec_goesOn h
  | hold i => exact .of_quiet (i.exec_quiet h).1
  | mutex i => exact absurd rfl (hi i)

end steps

/-! ## Steps on mutexes -/

/-- The mutex has the owner it had. -/
def SameOwner (mutex mutex' : Mutex) : Prop :=
  mutex'.locked = mutex.locked ∧ mutex'.ownerPid = mutex.ownerPid ∧ mutex'.holder = mutex.holder

/-- The mutex was given to the task in slot `s`. -/
def GivenTo (k : Kernel) (s : Slot) (mutex : Mutex) : Prop :=
  mutex.ownerPid = (k.tasks s).pid ∧ mutex.holder = (k.tasks s).incarnation

namespace Kernel

variable {self s : Slot} {k k' : Kernel} {id j : MutexId}

theorem setMutex_self (k : Kernel) (id : MutexId) (mutex : Mutex) :
    (k.setMutex id mutex).mutexes id = mutex := by
  simp [setMutex]

theorem setMutex_ne (h : j ≠ id) (k : Kernel) (mutex : Mutex) :
    (k.setMutex id mutex).mutexes j = k.mutexes j := by
  simp [setMutex, h]

theorem setMutex_owner {mutex : Mutex} (h : SameOwner (k.mutexes id) mutex) :
    SameOwner (k.mutexes j) ((k.setMutex id mutex).mutexes j) := by
  by_cases hj : j = id
  · subst hj
    rwa [setMutex_self]
  · rw [setMutex_ne hj]
    exact ⟨rfl, rfl, rfl⟩

theorem taskGetValidated_some {pid generation : UInt32}
    (h : k.taskGetValidated pid generation = some s) :
    (k.tasks s).pid = pid ∧ (k.tasks s).generation = generation ∧
      (k.tasks s).state ≠ .terminated := by
  have hfound := find?_some h
  simpa [and_assoc] using hfound

theorem mutexRelock_owner : SameOwner (k.mutexes j) ((k.mutexRelock id).mutexes j) := by
  unfold mutexRelock
  split
  · exact setMutex_owner ⟨rfl, rfl, rfl⟩
  · exact ⟨rfl, rfl, rfl⟩

theorem mutexGive_owner :
    SameOwner (k.mutexes j) ((k.mutexGive id s (k.tasks s).pid).mutexes j) ∨
      GivenTo k s ((k.mutexGive id s (k.tasks s).pid).mutexes j) := by
  by_cases hj : j = id
  · subst hj
    refine .inr ?_
    rw [mutexGive, setMutex_self]
    exact ⟨rfl, rfl⟩
  · refine .inl ?_
    rw [mutexGive, setMutex_ne hj]
    exact ⟨rfl, rfl, rfl⟩

/-- A mutex that is locked goes to the caller, if to anyone. -/
theorem mutexLock_owner {waits : Bool} (h : k.mutexLock self id = .ok (k', waits)) :
    SameOwner (k.mutexes j) (k'.mutexes j) ∨ GivenTo k self (k'.mutexes j) := by
  unfold mutexLock at h
  split at h
  · cases h
    exact .inl mutexRelock_owner
  split at h
  · cases h
    exact mutexGive_owner
  split at h
  · cases h
  -- the caller is queued: only the waiters change
  obtain ⟨k₁, hblock, heq⟩ := map_returns h
  cases heq
  rw [(schedulerBlockTask_quiet hblock).mutexes]
  exact .inl (setMutex_owner ⟨rfl, rfl, rfl⟩)

theorem mutexTrylock_owner :
    SameOwner (k.mutexes j) ((k.mutexTrylock self id).mutexes j) ∨
      GivenTo k self ((k.mutexTrylock self id).mutexes j) := by
  unfold mutexTrylock
  split
  · exact .inl mutexRelock_owner
  split
  · exact mutexGive_owner
  · exact .inl ⟨rfl, rfl, rfl⟩

/-- A mutex that is handed over goes to a queued task that `task_get_validated` finds. -/
theorem mutexHandOver_owner {waiters : List (UInt32 × UInt32)}
    (h : k.mutexHandOver id waiters = .ok k') :
    SameOwner (k.mutexes j) (k'.mutexes j) ∨ (k'.mutexes j).locked = false ∨
      ∃ w ∈ waiters, ∃ s, k.taskGetValidated w.1 w.2 = some s ∧ GivenTo k s (k'.mutexes j) := by
  induction waiters with
  | nil =>
    cases h
    by_cases hj : j = id
    · subst hj
      rw [setMutex_self]
      exact .inr (.inl rfl)
    · rw [setMutex_ne hj]
      exact .inl ⟨rfl, rfl, rfl⟩
  | cons w waiters ih =>
    unfold mutexHandOver at h
    split at h
    · rcases ih h with hsame | hfree | ⟨w', hw', hgiven⟩
      · exact .inl hsame
      · exact .inr (.inl hfree)
      · exact .inr (.inr ⟨w', mem_cons_of_mem _ hw', hgiven⟩)
    · rename_i s hs
      obtain ⟨hpid, -, -⟩ := taskGetValidated_some hs
      rw [(schedulerWakeupTask_quiet (c := s) h).mutexes, mutexGive]
      by_cases hj : j = id
      · subst hj
        rw [setMutex_self]
        exact .inr (.inr ⟨w, mem_cons_self, s, hs, hpid.symm, rfl⟩)
      · rw [setMutex_ne hj, setMutex_ne hj]
        exact .inl ⟨rfl, rfl, rfl⟩

theorem mutexUnlock_owner (h : k.mutexUnlock self id = .ok k') :
    SameOwner (k.mutexes j) (k'.mutexes j) ∨ (k'.mutexes j).locked = false ∨
      ∃ w ∈ (k.mutexes id).waiters, ∃ s,
        k.taskGetValidated w.1 w.2 = some s ∧ GivenTo k s (k'.mutexes j) := by
  unfold mutexUnlock at h
  split at h
  · cases h
    exact .inl ⟨rfl, rfl, rfl⟩
  split at h
  · cases h
    exact .inl (setMutex_owner ⟨rfl, rfl, rfl⟩)
  · exact mutexHandOver_owner h

end Kernel

/-! ## Every step keeps the owners -/

section invariant

variable {x : Input} {self : Slot} {k k' : Kernel} {more : List Instr}

theorem owned_of_goesOn {l : List Slot} (h : Owned k) (hgo : GoesOn l k k')
    (hl : ∀ s ∈ l, ¬ OwnsMutex k s) : Owned k' := by
  intro id hlocked
  rw [hgo.mutexes] at hlocked ⊢
  obtain ⟨s, hpid, halive, hinc⟩ := h id hlocked
  have hs : s ∉ l := fun hmem => hl s hmem ⟨id, hlocked, hpid.symm⟩
  obtain ⟨halive', hpid', hinc'⟩ := hgo.task s hs halive
  exact ⟨s, hpid'.trans hpid, halive', hinc'.trans hinc⟩

/-- A step that changes nothing but mutexes, and gives them to live tasks only. -/
theorem owned_of_given (h : Owned k) (hquiet : Quiet self k { k' with mutexes := k.mutexes })
    (hgiven : ∀ id, SameOwner (k.mutexes id) (k'.mutexes id) ∨ (k'.mutexes id).locked = false ∨
      ∃ s, (k.tasks s).dead = false ∧ GivenTo k s (k'.mutexes id)) : Owned k' := by
  intro id hlocked
  have hkeep : ∀ s, (k.tasks s).dead = false → (k'.tasks s).dead = false := fun s => hquiet.alive
  rcases hgiven id with ⟨hlock, howner, hholder⟩ | hfree | ⟨s, halive, howner, hholder⟩
  · obtain ⟨s, hpid, halive, hinc⟩ := h id (hlock ▸ hlocked)
    refine ⟨s, ?_, hkeep s halive, ?_⟩
    · rw [howner, ← hpid]
      exact hquiet.pid s
    · rw [hholder, ← hinc]
      exact hquiet.incarnation s
  · rw [hfree] at hlocked
    cases hlocked
  · refine ⟨s, ?_, hkeep s halive, ?_⟩
    · rw [howner]
      exact hquiet.pid s
    · rw [hholder]
      exact hquiet.incarnation s

theorem mutex_owned {i : MutexInstr} (h : Owned k) (hguard : (Instr.mutex i).OwnerGuard x self k)
    (hexec : i.exec self k = .ok (k', more)) : Owned k' := by
  have hquiet := (i.exec_quiet hexec).1
  cases i with
  | lock id =>
    have halive : (k.tasks self).dead = false := hguard.2
    obtain ⟨⟨k₁, waits⟩, hlock, heq⟩ := map_returns hexec
    cases heq
    refine owned_of_given h hquiet fun j => ?_
    rcases mutexLock_owner (j := j) hlock with hsame | hgiven
    · exact .inl hsame
    · exact .inr (.inr ⟨self, halive, hgiven⟩)
  | trylock id =>
    have halive : (k.tasks self).dead = false := hguard.2
    cases hexec
    refine owned_of_given h hquiet fun j => ?_
    rcases mutexTrylock_owner (j := j) with
      hsame | hgiven
    · exact .inl hsame
    · exact .inr (.inr ⟨self, halive, hgiven⟩)
  | unlock id =>
    have hqueued := hguard.2
    obtain ⟨k₁, hunlock, heq⟩ := map_returns hexec
    cases heq
    refine owned_of_given h hquiet fun j => ?_
    rcases mutexUnlock_owner (j := j) hunlock with hsame | hfree | ⟨w, hw, s, hs, hgiven⟩
    · exact .inl hsame
    · exact .inr (.inl hfree)
    · -- the waiter is not TERMINATED, and by the guard not a ZOMBIE either
      obtain ⟨hpid, hgen, hstate⟩ := taskGetValidated_some hs
      have hzombie : (k.tasks s).state ≠ .zombie := hqueued w hw s hpid hgen
      exact .inr (.inr ⟨s, by simp [Task.dead, hzombie, hstate], hgiven⟩)

theorem instr_owned {i : Instr} (h : Owned k) (hguard : i.OwnerGuard x self k)
    (hexec : i.exec x self k = .ok (k', more)) : Owned k' := by
  by_cases hi : ∃ j, i = .mutex j
  · obtain ⟨j, rfl⟩ := hi
    exact mutex_owned h hguard hexec
  · have hne : ∀ j, i ≠ .mutex j := fun j hj => hi ⟨j, hj⟩
    exact owned_of_goesOn h (Instr.exec_goesOn hne hexec) hguard.1

theorem step_owned {m m' : Machine} {e : Event} (h : Owned m.kernel)
    (hstep : Machine.GuardedStep OwnerGuard m e m') : Owned m'.kernel := by
  obtain ⟨hguard, hstep⟩ := hstep
  cases Machine.step_move hstep with
  | idle => exact h
  | call hself hcode => exact h
  | step hself hcode hexec => exact instr_owned h (hguard _ hself _ (by rw [hcode]; rfl)) hexec
  | tick htick =>
    refine owned_of_goesOn h (tick_goesOn htick) fun s hs => ?_
    obtain ⟨r, hr, rfl⟩ := mem_map.1 hs
    exact hguard r hr
  | @fault self k hself hcode hfaults =>
    refine owned_of_goesOn h (.of_faults (mem_singleton_self self) hfaults) fun s hs => ?_
    rw [mem_singleton.1 hs]
    exact hguard self hself
  | net => exact owned_of_goesOn (l := []) h (.of_eq rfl rfl) (by simp)

end invariant

theorem start_owned {tasks : List FirstTask} {m : Machine} (h : Machine.start tasks = .ok m) :
    Owned m.kernel := by
  obtain ⟨k, hstart, rfl⟩ := map_returns h
  obtain ⟨k₁, hcreate, hstart⟩ := bind_returns hstart
  obtain ⟨⟨next, rejected, k₂⟩, hnext, hstart⟩ := bind_returns hstart
  have hboot : k₁.mutexes = Kernel.boot.mutexes := by
    refine foldlM_keeps (R := fun k => k.mutexes = Kernel.boot.mutexes) ?_ hcreate rfl
    intro k t k' hk hturn
    rw [(create_goesOn (l := [t.slot]) (by simp) hturn).mutexes]
    exact hk
  have hunlocked : k.mutexes = Kernel.boot.mutexes := by
    rcases next with _ | first
    · cases hstart
    · cases hstart
      exact (congrArg (fun r => r.ledger.mutexes) (schedulerGetNextTask_returns hnext).2.1).trans
        hboot
  intro id hlocked
  rw [hunlocked] at hlocked
  cases hlocked

/-- In every run in which no task ends while it owns a mutex, every locked mutex has a live
owner that acquired it. -/
theorem locked_mutex_has_live_owner {tasks : List FirstTask} {events : List Event} {m₀ m : Machine}
    (hstart : Machine.start tasks = .ok m₀)
    (hrun : Run (Machine.GuardedStep OwnerGuard) m₀ events m) : Owned m.kernel :=
  @Run.invariant _ _ (Machine.GuardedStep OwnerGuard) m₀ m events (fun m => Owned m.kernel)
    (fun _ _ _ h hstep => step_owned h hstep) hrun (start_owned hstart)

/-! ## A task is killed while it owns a mutex -/

/-- The task with pid 100 takes the RAMFS mutex. When its time is up the task with pid 101
kills the task with the given pid. -/
def killWhileLocked (pid : UInt32) : List Event :=
  [.call (.lock .ramfs), .step plainInput] ++ List.replicate 10 .tick ++
    [.call (.kill pid)] ++ List.replicate 15 (.step plainInput)

/-- The owner lives on when another task is killed. -/
theorem killed_stranger_owns_nothing :
    ∃ m₀ m, Machine.start [userIn 0 1000, userIn 1 1000, userIn 2 1000] = .ok m₀ ∧
      Run (Machine.GuardedStep OwnerGuard) m₀ (killWhileLocked 102) m ∧ Owned m.kernel ∧
      (m.kernel.mutexes .ramfs).locked = true ∧ (m.kernel.tasks 2).dead = true := by
  have heval : ((Machine.runGuarded OwnerGuard [userIn 0 1000, userIn 1 1000, userIn 2 1000]
      (killWhileLocked 102)).toOption.any fun p =>
        decide ((p.2.kernel.mutexes .ramfs).locked = true ∧ (p.2.kernel.tasks 2).dead = true)) =
      true := by
    decide +kernel
  obtain ⟨⟨m₀, m⟩, hreturns, hstate⟩ := returns_of_any heval
  obtain ⟨hstart, hrun⟩ := Machine.runGuarded_returns hreturns
  exact ⟨m₀, m, hstart, hrun, locked_mutex_has_live_owner hstart hrun, of_decide_eq_true hstate⟩

/-- The shell holds the RAMFS mutex when its time is up. The task with pid 101 owns the exec lock and
waits for the RAMFS mutex, as `sys_spawn` does, and is killed by the task with pid 102. -/
def killWhileWaiting : List Event :=
  [.call (.lock .ramfs), .step plainInput] ++ List.replicate 10 .tick ++
    [.call (.lock .execPath), .step plainInput, .call (.lock .ramfs)] ++
    List.replicate 3 (.step plainInput) ++ [.call (.kill 101)] ++
    List.replicate 15 (.step plainInput)

def shellTask : FirstTask := { userIn 0 0 with new := { userTask 0 with isKernelTask := true } }

/-- Nobody owns the exec lock any more, and it stays locked. -/
theorem killed_owner_keeps_mutex :
    ∃ m, Machine.runFrom [shellTask, userIn 1 1000, userIn 2 1000] killWhileWaiting = .ok m ∧
      ¬ Owned m.kernel := by
  have heval : ((Machine.runFrom [shellTask, userIn 1 1000, userIn 2 1000]
      killWhileWaiting).toOption.any fun m => decide ((m.kernel.mutexes .execPath).locked = true ∧
        ∀ s, (m.kernel.tasks s).pid = (m.kernel.mutexes .execPath).ownerPid →
          (m.kernel.tasks s).dead = true)) = true := by
    decide +kernel
  obtain ⟨m, hm, hstate⟩ := returns_of_any heval
  obtain ⟨hlocked, hdead⟩ := of_decide_eq_true hstate
  refine ⟨m, hm, fun howned => ?_⟩
  obtain ⟨s, hpid, halive, -⟩ := howned .execPath hlocked
  rw [hdead s hpid] at halive
  cases halive

end TinyOS.Proc
