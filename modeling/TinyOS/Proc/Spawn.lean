import TinyOS.Lib.Tally
import TinyOS.Proc.Machine

/-!
# The limits on user tasks, over interleaved creations

`task_create_user_argv` counts the tasks of the creator's uid and the free slots, and then claims a
slot. The exec lock, which `elf_exec_from_path` holds, keeps other creations out between the counts and
the claim. But the child starts out as a task of uid 1000, and only after the lock is released does
`sys_spawn` give it the creator's uid. Until then it is not counted where it belongs.

A system call runs with interrupts off, so another task runs only where the creator blocks: on the exec
lock, and on the RAMFS mutex while the child already has uid 1000. Here `sys_spawn` is cut into more
steps than that, down to the turns of the two counting loops, and tasks end, and are reaped, at any time
in between. Only from the release of the lock to the uid of the child no other creation may begin.
-/

namespace TinyOS.Proc.SpawnLimits

open Lib (tally)

/-! ## State -/

/-- The fields of `task_t` that the limits depend on. -/
structure Task where
  pid : UInt32 := 0
  uid : UInt16 := 0
  state : TaskState := .ready
  /-- The task was given to the scheduler and has not ended. -/
  scheduled : Bool := false
  deriving DecidableEq

/-- The slot is neither free nor reusable. -/
def Task.held (t : Task) : Bool := decide (t.pid ≠ 0) && decide (t.state ≠ .terminated)

def Task.heldBy (t : Task) (uid : UInt16) : Bool := t.held && decide (t.uid = uid)

/-- How far a task is in `sys_spawn`. -/
inductive Stage where
  | outside
  /-- It holds the exec lock and reads the file. -/
  | locked
  /-- In `task_count_live_for_uid`, at the slot `i`. -/
  | countingLive (i owned : Nat)
  /-- In `task_count_free_slots`, at the slot `i`. -/
  | countingFree (i free : Nat)
  /-- The limits are passed. -/
  | admitted
  /-- The slot is taken and cleared. -/
  | claimed (slot : Slot)
  /-- The new task has its pid. -/
  | named (slot : Slot)
  /-- It has the credentials every user task starts with. -/
  | built (slot : Slot)
  /-- `task_create_user_argv` returned, and the image is loaded. -/
  | created (slot : Slot)
  /-- `elf_exec_from_path` returned the pid. The slot is noted for the proofs only. -/
  | loaded (slot : Slot) (pid : UInt32)
  /-- `task_get` found the child. -/
  | found (slot : Slot)
  /-- The child has the uid of its creator. -/
  | charged (slot : Slot)
  deriving DecidableEq

namespace Stage

/-- The exec lock is held. -/
def locks : Stage → Bool
  | locked | countingLive _ _ | countingFree _ _ | admitted | claimed _ | named _ | built _
  | created _ => true
  | outside | loaded _ _ | found _ | charged _ => false

/-- The child does not exist yet or does not have its uid yet. -/
def pending : Stage → Bool
  | outside | charged _ => false
  | _ => true

def child : Stage → Option Slot
  | claimed k | named k | built k | created k | loaded k _ | found k | charged k => some k
  | _ => none

/-- The lock is released, and the child does not have its uid yet. -/
def settling : Stage → Bool
  | loaded _ _ | found _ => true
  | _ => false

theorem locks_or_settling {x : Stage} (h : x.pending = true) : x.locks = true ∨ x.settling = true := by
  cases x <;> first | exact .inl rfl | exact .inr rfl | cases h

theorem pending_of_locks {x : Stage} (h : x.locks = true) : x.pending = true := by
  cases x <;> first | rfl | cases h

end Stage

structure State where
  tasks : Slot → Task
  freeSlotBitmap : Slot → Bool
  stage : Slot → Stage
  /-- The owner of `exec_path_mutex`. -/
  execOwner : Option Slot

namespace State

def setStage (s : State) (t : Slot) (x : Stage) : State :=
  { s with stage := Function.update s.stage t x }

def setTask (s : State) (k : Slot) (x : Task) : State :=
  { s with tasks := Function.update s.tasks k x }

def setBit (s : State) (k : Slot) (b : Bool) : State :=
  { s with freeSlotBitmap := Function.update s.freeSlotBitmap k b }

def setOwner (s : State) (o : Option Slot) : State := { s with execOwner := o }

section setters

variable (s : State) (t k : Slot) (x : Stage) (v : Task) (b : Bool) (o : Option Slot)

@[simp] theorem setStage_tasks : (s.setStage t x).tasks = s.tasks := rfl
@[simp] theorem setStage_bits : (s.setStage t x).freeSlotBitmap = s.freeSlotBitmap := rfl
@[simp] theorem setStage_self : (s.setStage t x).stage t = x := by simp [setStage]
@[simp] theorem setTask_stage : (s.setTask k v).stage = s.stage := rfl
@[simp] theorem setTask_bits : (s.setTask k v).freeSlotBitmap = s.freeSlotBitmap := rfl
@[simp] theorem setTask_self : (s.setTask k v).tasks k = v := by simp [setTask]
@[simp] theorem setBit_stage : (s.setBit k b).stage = s.stage := rfl
@[simp] theorem setBit_tasks : (s.setBit k b).tasks = s.tasks := rfl
@[simp] theorem setBit_self : (s.setBit k b).freeSlotBitmap k = b := by simp [setBit]
@[simp] theorem setOwner_stage : (s.setOwner o).stage = s.stage := rfl
@[simp] theorem setOwner_tasks : (s.setOwner o).tasks = s.tasks := rfl
@[simp] theorem setOwner_bits : (s.setOwner o).freeSlotBitmap = s.freeSlotBitmap := rfl

variable {s t k x v b o}

@[simp] theorem setStage_of_ne {t' : Slot} (h : t' ≠ t) : (s.setStage t x).stage t' = s.stage t' := by
  simp [setStage, h]

@[simp] theorem setTask_of_ne {i : Slot} (h : i ≠ k) : (s.setTask k v).tasks i = s.tasks i := by
  simp [setTask, h]

@[simp] theorem setBit_of_ne {i : Slot} (h : i ≠ k) :
    (s.setBit k b).freeSlotBitmap i = s.freeSlotBitmap i := by
  simp [setBit, h]

end setters

def taskFreeSlot (s : State) (k : Slot) : State := s.setBit k true

def taskCountLiveForUid (s : State) (uid : UInt16) : Nat := tally fun i => (s.tasks i).heldBy uid

def taskCountFreeSlots (s : State) : Nat := tally fun i => !(s.tasks i).held

def taskFindFreeSlot (s : State) : Option Slot :=
  (List.finRange maxTasks).find? s.freeSlotBitmap

def taskGet (s : State) (pid : UInt32) : Option Slot :=
  (List.finRange maxTasks).find? fun i =>
    decide ((s.tasks i).pid = pid) && decide ((s.tasks i).state ≠ .terminated)

/-- The collision check of `task_alloc_pid`. -/
def pidInUse (s : State) (pid : UInt32) : Bool :=
  (List.finRange maxTasks).any fun i =>
    decide ((s.tasks i).pid = pid) && decide ((s.tasks i).state ≠ .terminated)

/-- The call returns an error, after it has released the exec lock. -/
def giveUp (s : State) (t : Slot) : State := (s.setStage t .outside).setOwner none

end State

/-! ## Steps -/

inductive Event where
  /-- The task takes its next step in `sys_spawn`, or enters it. If the step is that of
  `task_alloc_pid`, it returns `pid`, or 0. -/
  | spawn (t : Slot) (pid : UInt32)
  /-- The step fails: the file cannot be read, the rate limiter refuses, memory runs out, or the
  image is not accepted. -/
  | fail (t : Slot)
  /-- `sys_exit`. -/
  | exit (t : Slot)
  /-- The task terminates itself. -/
  | terminate (t : Slot)
  /-- The scheduler reaps a task that has ended. -/
  | reap (t : Slot)

/-- `elf_exec_lock` is reached, and the lock is free. No other task is between its release and
`child->uid`: nothing blocks there. -/
def enter (s : State) (t : Slot) : Option State :=
  if (s.tasks t).held = true ∧ (s.tasks t).scheduled = true ∧ s.execOwner = none ∧
      ∀ t', (s.stage t').settling = false then
    some ((s.setStage t .locked).setOwner (some t))
  else none

/-- The task at slot `i` is looked at. -/
def countLive (s : State) (t : Slot) (i owned : Nat) : State :=
  if h : i < maxTasks then
    s.setStage t
      (.countingLive (i + 1) (owned + if (s.tasks ⟨i, h⟩).heldBy (s.tasks t).uid then 1 else 0))
  else if userMaxConcurrentTasks ≤ owned then s.giveUp t
  else s.setStage t (.countingFree 0 0)

def countFree (s : State) (t : Slot) (i free : Nat) : State :=
  if h : i < maxTasks then
    s.setStage t (.countingFree (i + 1) (free + if (s.tasks ⟨i, h⟩).held then 0 else 1))
  else if free ≤ taskRootReservedSlots then s.giveUp t
  else s.setStage t .admitted

/-- `task_find_free_slot` and `memset`. -/
def claim (s : State) (t : Slot) : State :=
  match s.taskFindFreeSlot with
  | none => s.giveUp t
  | some k => ((s.setBit k false).setTask k {}).setStage t (.claimed k)

def assignPid (s : State) (t k : Slot) (pid : UInt32) : Option State :=
  if pid = 0 then some ((s.taskFreeSlot k).giveUp t)
  else if s.pidInUse pid = true then none
  else some ((s.setTask k { s.tasks k with pid := pid }).setStage t (.named k))

/-- The next step of the task in `sys_spawn`. -/
def spawnStep (s : State) (t : Slot) (pid : UInt32) : Option State :=
  match s.stage t with
  | .outside => enter s t
  | .locked =>
    -- Root is exempt from both limits.
    some (s.setStage t (if (s.tasks t).uid = 0 then .admitted else .countingLive 0 0))
  | .countingLive i owned => some (countLive s t i owned)
  | .countingFree i free => some (countFree s t i free)
  | .admitted => some (claim s t)
  | .claimed k => assignPid s t k pid
  | .named k => some ((s.setTask k { s.tasks k with uid := 1000 }).setStage t (.built k))
  | .built k => some (s.setStage t (.created k))
  | .created k => some ((s.setStage t (.loaded k (s.tasks k).pid)).setOwner none)
  | .loaded _ pid =>
    match s.taskGet pid with
    | none => some (s.setStage t .outside)
    | some c => some (s.setStage t (.found c))
  | .found c => some ((s.setTask c { s.tasks c with uid := (s.tasks t).uid }).setStage t (.charged c))
  | .charged c => some ((s.setTask c { s.tasks c with scheduled := true }).setStage t .outside)

/-- The exits of `sys_spawn` on an error that the state does not decide. -/
def failStep (s : State) (t : Slot) : Option State :=
  match s.stage t with
  | .locked | .admitted => some (s.giveUp t)
  | .named k | .built k => some (((s.setTask k { s.tasks k with pid := 0 }).taskFreeSlot k).giveUp t)
  | .created k =>
    -- The image is refused, and `elf_abort_load` calls `task_terminate`.
    some (((s.setTask k { s.tasks k with pid := 0, state := .terminated }).taskFreeSlot k).giveUp t)
  | _ => none

/-- The task runs, and is not in `sys_spawn`. -/
def free (s : State) (t : Slot) : Bool :=
  (s.tasks t).held && (s.tasks t).scheduled && decide (s.stage t = .outside)

def next (s : State) : Event → Option State
  | .spawn t pid => spawnStep s t pid
  | .fail t => failStep s t
  | .exit t =>
    if free s t = true then
      some (s.setTask t { s.tasks t with state := .zombie, scheduled := false })
    else none
  | .terminate t =>
    if free s t = true then
      some (s.setTask t { s.tasks t with pid := 0, state := .terminated, scheduled := false })
    else none
  | .reap t =>
    if (s.tasks t).scheduled = false ∧ s.freeSlotBitmap t = false ∧
        ((s.tasks t).state = .zombie ∨ (s.tasks t).state = .terminated) then
      some ((s.setTask t { s.tasks t with pid := 0, state := .terminated }).taskFreeSlot t)
    else none

/-! ## Uninterrupted counts

Without an interruption the two loops give the answer of `Kernel.creationAllowed`, which counts in one
step. -/

section alone

variable {s : State} {t : Slot} {pid : UInt32}

/-- The task takes so many steps, and no other task runs. -/
def alone (s : State) (t : Slot) (n : Nat) : Option State :=
  (List.replicate n (Event.spawn t 0)).foldlM next s

theorem alone_succ {n : Nat} {S : State} (h : spawnStep s t 0 = some S) :
    alone s t (n + 1) = alone S t n := by
  simp only [alone, List.replicate_succ, List.foldlM_cons, next, h]
  rfl

theorem setStage_setStage (x y : Stage) : (s.setStage t x).setStage t y = s.setStage t y := by
  simp [State.setStage]

/-- A count over the task table that nothing interrupts ends with the tally. -/
theorem counting_alone (stage : Nat → Nat → Stage) (P : Slot → Bool)
    (hstep : ∀ i k (hlt : i < maxTasks), spawnStep (s.setStage t (stage i k)) t 0 =
      some (s.setStage t (stage (i + 1) (k + if P ⟨i, hlt⟩ = true then 1 else 0))))
    (n i : Nat) (hi : i + n = maxTasks) (m : Nat) :
    alone (s.setStage t (stage i (tally fun j => decide (j.val < i) && P j))) t (n + m) =
      alone (s.setStage t (stage maxTasks (tally P))) t m := by
  induction n generalizing i with
  | zero =>
    obtain rfl : i = maxTasks := hi
    rw [Lib.tally_below_all (Nat.le_refl _), Nat.zero_add]
  | succ n ih =>
    have hlt : i < maxTasks := by omega
    rw [show n + 1 + m = n + m + 1 by omega, ← ih (i + 1) (by omega), Lib.tally_below_succ hlt]
    exact alone_succ (hstep i _ hlt)

theorem countLive_alone (m : Nat) :
    alone (s.setStage t (.countingLive 0 0)) t (maxTasks + m) =
      alone (s.setStage t (.countingLive maxTasks (s.taskCountLiveForUid (s.tasks t).uid))) t m := by
  rw [State.taskCountLiveForUid, ← counting_alone .countingLive _ _ maxTasks 0 (Nat.zero_add _) m,
    Lib.tally_below_zero]
  intro i k hlt
  simp only [spawnStep, State.setStage_self, countLive, dif_pos hlt, setStage_setStage]
  rfl

theorem countFree_alone (m : Nat) :
    alone (s.setStage t (.countingFree 0 0)) t (maxTasks + m) =
      alone (s.setStage t (.countingFree maxTasks s.taskCountFreeSlots)) t m := by
  rw [State.taskCountFreeSlots, ← counting_alone .countingFree _ _ maxTasks 0 (Nat.zero_add _) m,
    Lib.tally_below_zero]
  intro i k hlt
  by_cases hheld : (s.tasks ⟨i, hlt⟩).held = true <;>
    simp [spawnStep, countFree, hlt, hheld, setStage_setStage]

/-- The creator is admitted, or gives up, as the kernel's limits say. -/
theorem limits_alone {k : Kernel} (ht : s.stage t = .locked)
    (htasks : ∀ i, (s.tasks i).pid = (k.tasks i).pid ∧ (s.tasks i).uid = (k.tasks i).uid ∧
      (s.tasks i).state = (k.tasks i).state) :
    ∃ n, alone s t n = some (if k.creationAllowed t then s.setStage t .admitted else s.giveUp t) := by
  have hlive : ∀ uid, k.taskCountLiveForUid uid = s.taskCountLiveForUid uid := by
    intro uid
    apply Lib.tally_congr
    intro i
    obtain ⟨hpid, huid, hstate⟩ := htasks i
    simp [Kernel.taskGetSlot, Task.heldBy, Task.held, hpid, huid, hstate]
  have hfree : k.taskCountFreeSlots = s.taskCountFreeSlots := by
    apply Lib.tally_congr
    intro i
    obtain ⟨hpid, huid, hstate⟩ := htasks i
    simp [Kernel.taskGetSlot, Task.held, hpid, hstate]
  rw [Kernel.creationAllowed, ← (htasks t).2.1, hlive, hfree]
  by_cases hroot : (s.tasks t).uid = 0
  · refine ⟨1, ?_⟩
    rw [alone_succ (S := s.setStage t .admitted) (by simp [spawnStep, ht, hroot])]
    simp [alone, hroot]
  -- The first loop is entered, and runs to its end.
  have hfirst : ∀ m, alone s t (1 + (maxTasks + m)) =
      alone (s.setStage t (.countingLive maxTasks (s.taskCountLiveForUid (s.tasks t).uid))) t m := by
    intro m
    rw [← countLive_alone m, Nat.add_comm 1]
    exact alone_succ (by simp [spawnStep, ht, hroot])
  by_cases hcap : userMaxConcurrentTasks ≤ s.taskCountLiveForUid (s.tasks t).uid
  · refine ⟨1 + (maxTasks + 1), ?_⟩
    rw [hfirst, alone_succ (S := s.giveUp t)]
    · simp [alone, hroot, hcap]
    · simp [spawnStep, countLive, hcap, State.giveUp, setStage_setStage]
  -- And so does the second.
  have hsecond : ∀ m, alone s t (1 + (maxTasks + (1 + (maxTasks + m)))) =
      alone (s.setStage t (.countingFree maxTasks s.taskCountFreeSlots)) t m := by
    intro m
    rw [hfirst, ← countFree_alone m, Nat.add_comm 1]
    exact alone_succ (by simp [spawnStep, countLive, hcap, setStage_setStage])
  refine ⟨1 + (maxTasks + (1 + (maxTasks + 1))), ?_⟩
  rw [hsecond]
  by_cases hreserve : s.taskCountFreeSlots ≤ taskRootReservedSlots
  · rw [alone_succ (S := s.giveUp t)]
    · simp [alone, hroot, hreserve]
    · simp [spawnStep, countFree, hreserve, State.giveUp, setStage_setStage]
  · rw [alone_succ (S := s.setStage t .admitted)]
    · simp [alone, hroot, hreserve, hcap]
    · simp [spawnStep, countFree, hreserve, setStage_setStage]

/-- So many tasks, in the first slots, and nobody in `sys_spawn`. -/
def tasksOf (owner : Slot → UInt16) (n : Nat) : State where
  tasks i :=
    if i.val < n then { pid := UInt32.ofNat (100 + i), uid := owner i, scheduled := true }
    else { state := .terminated }
  freeSlotBitmap i := decide (n ≤ i.val)
  stage _ := .outside
  execOwner := none

/-- The same tasks, in the model that counts in one step. -/
def kernelOf (s : State) : Kernel :=
  { Kernel.boot with tasks := fun i =>
      { Task.zero with pid := (s.tasks i).pid, uid := (s.tasks i).uid, state := (s.tasks i).state } }

/-- With nine tasks of its user a creator is admitted, and with ten it gives up. -/
theorem limits_alone_at_the_cap :
    let s := fun n => (tasksOf (fun _ => 1001) n).setStage 0 .locked
    (∃ n, alone (s 9) 0 n = some ((s 9).setStage 0 .admitted)) ∧
      ∃ n, alone (s 10) 0 n = some ((s 10).giveUp 0) := by
  intro s
  have hnine : (kernelOf (s 9)).creationAllowed 0 = true := by decide +kernel
  have hten : (kernelOf (s 10)).creationAllowed 0 = false := by decide +kernel
  constructor
  · obtain ⟨n, hn⟩ := limits_alone (s := s 9) (t := 0) (k := kernelOf (s 9)) rfl
      fun _ => ⟨rfl, rfl, rfl⟩
    rw [if_pos hnine] at hn
    exact ⟨n, hn⟩
  · obtain ⟨n, hn⟩ := limits_alone (s := s 10) (t := 0) (k := kernelOf (s 10)) rfl
      fun _ => ⟨rfl, rfl, rfl⟩
    rw [if_neg (by rw [hten]; decide)] at hn
    exact ⟨n, hn⟩

end alone

end TinyOS.Proc.SpawnLimits
