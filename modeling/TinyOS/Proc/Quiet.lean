import TinyOS.Proc.Machine

/-!
# Processes: what most steps leave alone

Most functions of the kernel neither begin nor end a task. `Quiet runner k k'` says so of
a change made while the task in slot `runner` runs: every slot is still used by the same task
under the same pid, and the records about slots are the same. A task may change its state,
but an ended one stays as it is, the running one apart: `scheduler_block_task` does not look
at the state of the task it blocks.
-/

namespace TinyOS.Proc

open Lib Kernel

/-- Who a task is, and what it has. -/
structure Life where
  pid : UInt32
  generation : UInt32
  isKernelTask : Bool
  unkillable : Bool
  creds : Credentials
  frames : Frames
  incarnation : Incarnation
  creator : Option Creator

def Task.life (t : Task) : Life :=
  ⟨t.pid, t.generation, t.isKernelTask, t.unkillable, t.creds, t.frames, t.incarnation, t.creator⟩

/-- The records about slots, and about what was done to tasks. -/
structure Ledger where
  slotGenerations : Slot → UInt32
  freeSlotBitmap : Slot → Bool
  mutexes : MutexId → Mutex
  born : Nat
  births : List Birth
  releases : List Release
  slotFrees : List Incarnation
  returned : List (Incarnation × Frame)
  stores : List CredentialStore

def Kernel.ledger (k : Kernel) : Ledger :=
  ⟨k.slotGenerations, k.freeSlotBitmap, k.mutexes, k.born, k.log.births, k.log.releases,
    k.log.slotFrees, k.log.returned, k.log.stores⟩

/-- The ledger, and what the scheduler keeps. -/
structure Roster where
  ledger : Ledger
  currentRunningTask : Option Slot
  cleanupQueue : List Ref
  dispatches : List Dispatch

def Kernel.roster (k : Kernel) : Roster :=
  ⟨k.ledger, k.currentRunningTask, k.cleanupQueue, k.log.dispatches⟩

/-- No task begins or ends. -/
structure Quiet (runner : Slot) (k k' : Kernel) : Prop where
  life : ∀ s, (k'.tasks s).life = (k.tasks s).life
  roster : k'.roster = k.roster
  state : ∀ s, (k'.tasks s).state = (k.tasks s).state ∨
    (k'.tasks s).dead = false ∧ ((k.tasks s).dead = true → s = runner)

namespace Quiet

variable {c s : Slot} {k k₁ k' : Kernel}

@[refl] theorem refl (c : Slot) (k : Kernel) : Quiet c k k :=
  ⟨fun _ => rfl, rfl, fun _ => .inl rfl⟩

theorem trans (h₁ : Quiet c k k₁) (h₂ : Quiet c k₁ k') : Quiet c k k' := by
  constructor
  · intro s
    rw [h₂.life, h₁.life]
  · rw [h₂.roster, h₁.roster]
  · intro s
    rcases h₂.state s with heq | ⟨halive, hself⟩
    · rw [heq]
      rcases h₁.state s with heq₁ | ⟨halive₁, hself₁⟩
      · exact .inl heq₁
      · refine .inr ⟨?_, hself₁⟩
        simpa only [Task.dead, heq] using halive₁
    · refine .inr ⟨halive, fun hdead => ?_⟩
      rcases h₁.state s with heq₁ | ⟨-, hself₁⟩
      · exact hself (by simpa only [Task.dead, heq₁] using hdead)
      · exact hself₁ hdead

theorem of_eq (htasks : k'.tasks = k.tasks) (hroster : k'.roster = k.roster) : Quiet c k k' :=
  ⟨fun s => by rw [htasks], hroster, fun s => .inl (by rw [htasks])⟩

theorem modifyTask {f : Task → Task} (hlife : ∀ t, (f t).life = t.life)
    (hstate : (f (k.tasks s)).state = (k.tasks s).state ∨
      (f (k.tasks s)).dead = false ∧ ((k.tasks s).dead = true → s = c)) :
    Quiet c k (k.modifyTask s f) := by
  constructor
  · exact modifyTask_keeps hlife k s
  · rfl
  · intro x
    by_cases hx : x = s
    · subst hx
      rw [modifyTask_self]
      exact hstate
    · rw [modifyTask_ne hx]
      exact .inl rfl

variable (h : Quiet c k k')

include h

theorem incarnation (s : Slot) :
    (k'.tasks s).incarnation = (k.tasks s).incarnation := congrArg Life.incarnation (h.life s)

theorem pid (s : Slot) : (k'.tasks s).pid = (k.tasks s).pid :=
  congrArg Life.pid (h.life s)

theorem generation (s : Slot) :
    (k'.tasks s).generation = (k.tasks s).generation := congrArg Life.generation (h.life s)

theorem current : k'.currentRunningTask = k.currentRunningTask :=
  congrArg Roster.currentRunningTask h.roster

theorem cleanupQueue : k'.cleanupQueue = k.cleanupQueue :=
  congrArg Roster.cleanupQueue h.roster

theorem ledger : k'.ledger = k.ledger := congrArg Roster.ledger h.roster

theorem mutexes : k'.mutexes = k.mutexes := congrArg Ledger.mutexes h.ledger

theorem alive (hs : (k.tasks s).dead = false) : (k'.tasks s).dead = false := by
  rcases h.state s with heq | ⟨halive, -⟩
  · simpa only [Task.dead, heq] using hs
  · exact halive

end Quiet

/-! ## The scheduler -/

namespace Kernel

variable {c s : Slot} {k k' : Kernel}

theorem schedulerRemoveTask_quiet (h : k.schedulerRemoveTask s = .ok k') : Quiet c k k' := by
  obtain ⟨q, -, rfl⟩ := map_returns h
  exact .of_eq rfl rfl

theorem schedulerAddTask_quiet (halive : (k.tasks s).dead = true → s = c)
    (h : k.schedulerAddTask s = .ok k') : Quiet c k k' := by
  unfold schedulerAddTask at h
  split at h
  · cases h
    rfl
  split at h
  · cases h
    rfl
  obtain ⟨q, -, rfl⟩ := map_returns h
  refine (Quiet.modifyTask (f := fun t => { t with state := .ready, ticksRemaining := t.timeSlice })
    (s := s) (fun _ => rfl) (.inr ⟨rfl, halive⟩)).trans ?_
  exact .of_eq rfl rfl

theorem schedulerBlockTask_quiet (h : k.schedulerBlockTask c = .ok k') : Quiet c k k' := by
  obtain ⟨k₁, hremove, rfl⟩ := map_returns h
  exact (schedulerRemoveTask_quiet hremove).trans (.modifyTask (fun _ => rfl) (.inr ⟨rfl, fun _ => rfl⟩))

theorem schedulerWakeupTask_quiet (h : k.schedulerWakeupTask s = .ok k') : Quiet c k k' := by
  unfold schedulerWakeupTask at h
  split at h
  · cases h
    rfl
  rename_i hblocked
  refine schedulerAddTask_quiet (fun hdead => ?_) h
  simp only [ne_eq, not_not] at hblocked
  simp [Task.dead, hblocked] at hdead

theorem wakeSleeper_quiet (h : k.wakeSleeper s = .ok k') : Quiet c k k' := by
  unfold wakeSleeper at h
  split at h
  · rename_i hcond
    refine schedulerAddTask_quiet (fun hdead => ?_) h
    simp only [Bool.and_eq_true, decide_eq_true_eq] at hcond
    simp [Task.dead, hcond.1.2] at hdead
  · cases h
    rfl

theorem wakeSleepers_quiet {ss : List Slot} (h : ss.foldlM wakeSleeper k = .ok k') :
    Quiet c k k' := by
  refine foldlM_keeps (R := Quiet c k) ?_ h (.refl c k)
  intro k₁ s k₂ h₁ hturn
  exact h₁.trans (wakeSleeper_quiet hturn)

theorem yieldHead_quiet : Quiet c k (k.yieldHead s) :=
  (Quiet.modifyTask (f := fun t => { t with ticksRemaining := 0 }) (s := s) (fun _ => rfl)
    (.inl rfl)).trans (.of_eq rfl rfl)

/-! ## Wait queues -/

theorem wakeWaiter_quiet (h : k.wakeWaiter s = .ok k') : Quiet c k k' :=
  (Quiet.modifyTask (f := fun t => { t with blockedOnWq := none }) (s := s) (fun _ => rfl)
    (.inl rfl)).trans (schedulerWakeupTask_quiet h)

theorem waitQueueWakeupAll_quiet {wq : WaitQueue} (h : k.waitQueueWakeupAll wq = .ok k') :
    Quiet c k k' := by
  refine foldlM_keeps (R := Quiet c k) ?_ h (.of_eq rfl rfl)
  intro k₁ s k₂ h₁ hturn
  exact h₁.trans (wakeWaiter_quiet hturn)

theorem waitQueueRemoveTask_quiet : Quiet c k (k.waitQueueRemoveTask s) := by
  unfold waitQueueRemoveTask
  split
  · rfl
  · exact (Quiet.modifyTask (f := fun t => { t with blockedOnWq := none }) (s := s) (fun _ => rfl)
      (.inl rfl)).trans (.of_eq rfl rfl)

theorem waitQueueSleep_quiet {wq : WaitQueue} (h : k.waitQueueSleep c wq = .ok k') :
    Quiet c k k' := by
  unfold waitQueueSleep at h
  split at h
  · cases h
    rfl
  refine Quiet.trans ?_ (schedulerBlockTask_quiet h)
  exact (Quiet.modifyTask
    (f := fun t => { t with blockedOnWq := some wq, sleptAfter := k.log.deaths.length })
    (s := c) (fun _ => rfl) (.inl rfl)).trans (.of_eq rfl rfl)

theorem waitpidNotifyDeath_quiet {status : Int} (h : k.waitpidNotifyDeath s status = .ok k') :
    Quiet c k k' := by
  have hstore : Quiet c k (k.exitRecordStore s status) := .of_eq rfl rfl
  exact hstore.trans (waitQueueWakeupAll_quiet h)

/-! ## What a task holds -/

variable {st : StdStream}

theorem setStream_quiet {x : Stream} : Quiet c k (k.setStream s st x) :=
  .modifyTask (fun _ => rfl) (.inl rfl)

theorem streamClose_quiet : Quiet c k (k.streamClose s st) := by
  unfold streamClose
  rcases streamOwned ((k.tasks s).streams st) with _ | fd
  · rfl
  · exact .of_eq rfl rfl

theorem streamReset_quiet : Quiet c k (k.streamReset s st) :=
  streamClose_quiet.trans setStream_quiet

theorem streamsCleanup_quiet : Quiet c k (k.streamsCleanup s) :=
  (streamReset_quiet.trans streamReset_quiet).trans streamReset_quiet

theorem vfsClose_quiet {fd : VfsFd} : Quiet c k (k.vfsClose fd) := .of_eq rfl rfl

theorem fdtableClose_quiet {i : Fin taskFdtableSize} : Quiet c k (k.fdtableClose s i) := by
  unfold fdtableClose
  split
  · rfl
  · exact vfsClose_quiet.trans (.modifyTask (fun _ => rfl) (.inl rfl))

theorem taskFdtableCleanup_quiet : Quiet c k (k.taskFdtableCleanup s) := by
  unfold taskFdtableCleanup
  generalize List.finRange taskFdtableSize = is
  induction is generalizing k with
  | nil => rfl
  | cons i is ih => exact fdtableClose_quiet.trans ih

theorem setPipe_quiet {i : PipeId} {p : PipeSlot} : Quiet c k (k.setPipe i p) := .of_eq rfl rfl

theorem pipeSlotReap_quiet {i : PipeId} : Quiet c k (k.pipeSlotReap i) := by
  unfold pipeSlotReap
  dsimp only
  split
  · exact setPipe_quiet
  · rfl

theorem pipeReapOrphans_quiet : Quiet c k k.pipeReapOrphans := by
  unfold pipeReapOrphans
  generalize List.finRange maxPipes = is
  induction is generalizing k with
  | nil => rfl
  | cons i is ih => exact pipeSlotReap_quiet.trans ih

theorem pipeSlotRelease_quiet {i : PipeId} (h : k.pipeSlotRelease i = .ok k') :
    Quiet c k k' := by
  obtain ⟨k₁, hwake, rfl⟩ := map_returns h
  exact ((waitQueueWakeupAll_quiet hwake).trans setPipe_quiet).trans pipeSlotReap_quiet

theorem pipeCleanup_quiet {i : PipeId} (h : pipeCleanup s k i = .ok k') : Quiet c k k' := by
  unfold pipeCleanup at h
  split at h
  · exact pipeSlotRelease_quiet h
  · cases h
    rfl

theorem taskPipesCleanup_quiet (h : k.taskPipesCleanup s = .ok k') : Quiet c k k' := by
  obtain ⟨k₁, hloop, rfl⟩ := map_returns h
  refine Quiet.trans ?_ pipeReapOrphans_quiet
  refine foldlM_keeps (R := Quiet c k) ?_ hloop (.refl c k)
  intro k₁ i k₂ h₁ hturn
  exact h₁.trans (pipeCleanup_quiet hturn)

theorem releaseHolding_quiet {h : Holding} (hk : k.releaseHolding s h = .ok k') :
    Quiet c k k' := by
  cases h with
  | streams =>
    cases hk
    exact streamsCleanup_quiet
  | fdtable =>
    cases hk
    exact taskFdtableCleanup_quiet
  | pipes => exact taskPipesCleanup_quiet hk
  | sockets =>
    cases hk
    exact .of_eq rfl rfl

theorem closeStreams_quiet : Quiet c k (k.closeStreams s) := setStream_quiet.trans setStream_quiet

theorem redirectClose_quiet : Quiet c k (k.redirectClose s st) := by
  unfold redirectClose
  dsimp only
  split
  · exact streamClose_quiet.trans setStream_quiet
  · rfl

theorem unbindPipe_quiet {buf : Option PipeBuf} : Quiet c k (k.unbindPipe s st buf) := by
  unfold unbindPipe
  split
  · exact streamReset_quiet
  · rfl

/-! ## Mutexes -/

/-- A task waits for the mutex: the mutexes apart, the step is quiet. -/
theorem mutexLock_quiet {id : MutexId} {waits : Bool} (h : k.mutexLock c id = .ok (k', waits)) :
    Quiet c k { k' with mutexes := k.mutexes } := by
  unfold mutexLock at h
  split at h
  · cases h
    unfold mutexRelock
    split <;> exact .of_eq rfl rfl
  split at h
  · cases h
    exact .of_eq rfl rfl
  split at h
  · cases h
  obtain ⟨k₁, hblock, heq⟩ := map_returns h
  cases heq
  have hquiet := schedulerBlockTask_quiet hblock
  exact ⟨hquiet.life, congrArg (fun r => { r with ledger := { r.ledger with mutexes := k.mutexes } })
      hquiet.roster, hquiet.state⟩

theorem mutexTrylock_quiet {id : MutexId} :
    Quiet c k { k.mutexTrylock c id with mutexes := k.mutexes } := by
  unfold mutexTrylock
  split
  · unfold mutexRelock
    split <;> exact .of_eq rfl rfl
  split <;> exact .of_eq rfl rfl

theorem mutexHandOver_quiet {id : MutexId} {waiters : List (UInt32 × UInt32)}
    (h : k.mutexHandOver id waiters = .ok k') : Quiet c k { k' with mutexes := k.mutexes } := by
  induction waiters with
  | nil =>
    cases h
    exact .of_eq rfl rfl
  | cons w waiters ih =>
    unfold mutexHandOver at h
    split at h
    · exact ih h
    have hquiet := schedulerWakeupTask_quiet (c := c) h
    exact ⟨hquiet.life, congrArg (fun r => { r with ledger := { r.ledger with mutexes := k.mutexes } })
        hquiet.roster,
      hquiet.state⟩

theorem mutexUnlock_quiet {id : MutexId} (h : k.mutexUnlock c id = .ok k') :
    Quiet c k { k' with mutexes := k.mutexes } := by
  unfold mutexUnlock at h
  split at h
  · cases h
    exact .of_eq rfl rfl
  split at h
  · cases h
    exact .of_eq rfl rfl
  · exact mutexHandOver_quiet h

end Kernel

/-! ## Steps -/

section steps

variable {c : Slot} {k k' : Kernel} {more : List Instr}

/-- Steps on what a task holds lead to no others. -/
theorem HoldInstr.exec_quiet {i : HoldInstr} {x : Input} (h : i.exec x c k = .ok (k', more)) :
    Quiet c k k' ∧ ∀ j ∈ more, ∃ i, j = .hold i := by
  revert h
  fun_cases i.exec x c k <;> intro h
  case case22 i _ buf =>
    obtain ⟨k₁, hrelease, heq⟩ := map_returns h
    cases heq
    exact ⟨(unbindPipe_quiet.trans unbindPipe_quiet).trans
      (pipeSlotRelease_quiet hrelease), by simp⟩
  all_goals
    cases h
    refine ⟨?_, by simp⟩
  -- descriptors of the VFS, streams, then pipes
  case case5 | case7 => exact .modifyTask (fun _ => rfl) (.inl rfl)
  case case8 => exact vfsClose_quiet
  case case9 => exact redirectClose_quiet
  case case10 | case12 | case13 => exact setStream_quiet
  case case14 => exact streamReset_quiet
  case case15 => exact pipeReapOrphans_quiet
  case case17 => exact setPipe_quiet
  case case18 => exact streamClose_quiet.trans setStream_quiet
  all_goals exact .of_eq rfl rfl

/-- Steps of waiting lead to no others, and all but `schedule` are quiet. -/
theorem SchedInstr.exec_quiet {i : SchedInstr} (hi : i ≠ .schedule)
    (h : i.exec c k = .ok (k', more)) : Quiet c k k' ∧ ∀ j ∈ more, ∃ i, j = .sched i := by
  revert h
  fun_cases i.exec c k <;> intro h
  case case1 =>
    cases h
    exact ⟨yieldHead_quiet, by simp⟩
  case case2 => exact absurd rfl hi
  case case3 ticks =>
    obtain ⟨k₁, hremove, heq⟩ := map_returns h
    cases heq
    refine ⟨Quiet.trans ?_ (schedulerRemoveTask_quiet hremove), by simp [yieldCode]⟩
    exact .modifyTask (fun _ => rfl) (.inr ⟨rfl, fun _ => rfl⟩)
  case case11 | case12 =>
    obtain ⟨k₁, hsleep, heq⟩ := map_returns h
    cases heq
    exact ⟨waitQueueSleep_quiet hsleep, by simp [yieldCode]⟩
  case case13 wq =>
    obtain ⟨k₁, hwake, heq⟩ := map_returns h
    cases heq
    exact ⟨waitQueueWakeupAll_quiet hwake, by simp⟩
  -- `waitpid` looks for the child
  all_goals
    cases h
    exact ⟨.refl _ _, by simp⟩

/-- Steps on mutexes lead to waiting, and change nothing but mutexes. -/
theorem MutexInstr.exec_quiet {i : MutexInstr} (h : i.exec c k = .ok (k', more)) :
    Quiet c k { k' with mutexes := k.mutexes } ∧ ∀ j ∈ more, ∃ i, j = .sched i := by
  cases i with
  | lock id =>
    obtain ⟨⟨k₁, waits⟩, hlock, heq⟩ := map_returns h
    cases heq
    refine ⟨mutexLock_quiet hlock, ?_⟩
    cases waits <;> simp [yieldCode]
  | trylock id =>
    cases h
    exact ⟨mutexTrylock_quiet, by simp⟩
  | unlock id =>
    obtain ⟨k₁, hunlock, heq⟩ := map_returns h
    cases heq
    exact ⟨mutexUnlock_quiet hunlock, by simp⟩

end steps

end TinyOS.Proc
