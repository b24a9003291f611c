import TinyOS.Proc.Task

/-!
# Processes: the functions of the kernel

Task lookup and allocation (`process.c`), the scheduler with its cleanup queue
(`scheduler.c`), wait queues, and the pieces of teardown. A function that can stop the
kernel, by a panic or a null dereference in the ready queue, returns `Except Halt`.
-/

namespace TinyOS.Proc

open Function

namespace Kernel

/-- Write a task. -/
def setTask (k : Kernel) (s : Slot) (t : Task) : Kernel :=
  { k with tasks := update k.tasks s t }

/-- Change a task. -/
def modifyTask (k : Kernel) (s : Slot) (f : Task → Task) : Kernel := k.setTask s (f (k.tasks s))

@[simp] theorem modifyTask_self (k : Kernel) (s : Slot) (f : Task → Task) :
    (k.modifyTask s f).tasks s = f (k.tasks s) := by
  simp [modifyTask, setTask]

theorem modifyTask_ne {x s : Slot} (h : x ≠ s) (k : Kernel) (f : Task → Task) :
    (k.modifyTask s f).tasks x = k.tasks x := by
  simp [modifyTask, setTask, h]

theorem modifyTask_keeps {α : Type} {g : Task → α} {f : Task → Task} (h : ∀ t, g (f t) = g t)
    (k : Kernel) (s x : Slot) : g ((k.modifyTask s f).tasks x) = g (k.tasks x) := by
  by_cases hx : x = s
  · subst hx
    rw [modifyTask_self, h]
  · rw [modifyTask_ne hx]

/-- A pointer to the task now in a slot. -/
def ref (k : Kernel) (s : Slot) : Ref := ⟨s, (k.tasks s).incarnation⟩

/-- Note that a part of a task was released. -/
def noteRelease (k : Kernel) (part : Part) (r : Ref) : Kernel :=
  { k with
    log := { k.log with
      releases := ⟨part, r.incarnation, (k.tasks r.slot).incarnation⟩ :: k.log.releases } }

/-- The state after `process_init` and `scheduler_init`. -/
def boot : Kernel where
  tasks _ := { Task.zero with state := .terminated }
  slotGenerations _ := 0
  freeSlotBitmap _ := true
  ready := .empty
  currentRunningTask := none
  cleanupQueue := []
  exitRecords := []
  waitQueues _ := []
  mutexes id := ⟨false, 0, 0, [], id = .ramfs, 0⟩
  ticks := 0
  ramfsRefs _ := []
  vfsFds _ := none
  pipes _ := ⟨none, 0, 0, 0, false, 0⟩
  tcp := Tcp.tcpInit
  tcpOpener _ := 0
  born := 0
  log := ⟨[], [], [], [], [], [], []⟩

/-! ## The task table -/

def taskGet (k : Kernel) (pid : UInt32) : Option Slot :=
  (List.finRange maxTasks).find? fun s =>
    (k.tasks s).pid = pid && (k.tasks s).state ≠ .terminated

def taskGetValidated (k : Kernel) (pid generation : UInt32) : Option Slot :=
  (List.finRange maxTasks).find? fun s =>
    (k.tasks s).pid = pid && (k.tasks s).generation = generation && (k.tasks s).state ≠ .terminated

def taskSlotIsLive (k : Kernel) (s : Slot) : Bool :=
  (k.tasks s).pid ≠ 0 && (k.tasks s).generation = k.slotGenerations s

/-- `task_get_slot` returns the task. -/
def taskGetSlot (k : Kernel) (s : Slot) : Bool :=
  (k.tasks s).pid ≠ 0 && (k.tasks s).state ≠ .terminated

/-- `task_visible_to_current`, for the current task `self`. -/
def taskVisible (k : Kernel) (self s : Slot) : Bool :=
  (k.tasks self).euid = 0 || (k.tasks s).uid = (k.tasks self).uid

def taskCountLiveForUid (k : Kernel) (uid : UInt16) : Nat :=
  (List.finRange maxTasks).countP fun s => k.taskGetSlot s && (k.tasks s).uid = uid

def taskCountFreeSlots (k : Kernel) : Nat :=
  (List.finRange maxTasks).countP fun s => !k.taskGetSlot s

def taskFindFreeSlot (k : Kernel) : Option Slot :=
  (List.finRange maxTasks).find? k.freeSlotBitmap

def taskFreeSlot (k : Kernel) (s : Slot) : Kernel :=
  { k with
    slotGenerations := update k.slotGenerations s (k.slotGenerations s + 1)
    freeSlotBitmap := update k.freeSlotBitmap s true
    log := { k.log with slotFrees := (k.tasks s).incarnation :: k.log.slotFrees } }

/-- The collision check of `task_alloc_pid`. -/
def pidInUse (k : Kernel) (pid : UInt32) : Bool :=
  (List.finRange maxTasks).any fun s =>
    (k.tasks s).pid = pid && (k.tasks s).state ≠ .terminated

/-- The search of `task_alloc_pid` when a thousand draws collide. -/
def sequentialPid (k : Kernel) : UInt32 :=
  (((List.range' 100 65436).map UInt32.ofNat).find? fun pid => !k.pidInUse pid).getD 65536

/-- `task_alloc_pid`, with the random draws it makes. -/
def taskAllocPid (k : Kernel) (draws : Nat → UInt16) : UInt32 :=
  (((List.range 1000).map fun i => 100 + (draws i).toUInt32 % 65436).find? fun pid =>
    !k.pidInUse pid).getD k.sequentialPid

/-! ## The ready queue -/

def schedulerInit (k : Kernel) : Kernel :=
  { k with
    ready := { k.ready with head := none, tail := none }
    currentRunningTask := none
    cleanupQueue := [] }

def schedulerAddTask (k : Kernel) (s : Slot) : Except Halt Kernel :=
  if (k.tasks s).pid < 1 then .ok k
  else if k.ready.linked s then .ok k
  else
    (k.ready.link s).map fun q =>
      { k.modifyTask s fun t => { t with state := .ready, ticksRemaining := t.timeSlice } with
        ready := q }

def schedulerRemoveTask (k : Kernel) (s : Slot) : Except Halt Kernel :=
  (k.ready.unlink s).map fun q => { k with ready := q }

def schedulerBlockTask (k : Kernel) (s : Slot) : Except Halt Kernel :=
  (k.schedulerRemoveTask s).map fun k => k.modifyTask s fun t => { t with state := .blocked }

def schedulerWakeupTask (k : Kernel) (s : Slot) : Except Halt Kernel :=
  if (k.tasks s).state ≠ .blocked then .ok k else k.schedulerAddTask s

/-- The check of `scheduler_get_next_task`. -/
def runnable (k : Kernel) (s : Slot) : Bool :=
  ((k.tasks s).state = .ready || (k.tasks s).state = .running) && k.taskSlotIsLive s

/-- How deep `scheduler_get_next_task` may recurse: each rejection unlinks a task, and the
tail may be met once more after each. -/
def nextTaskDepth : Nat := 2 * maxTasks + 2

/-- Note that `scheduler_get_next_task` returned a task. -/
def noteDispatch (k : Kernel) (s : Slot) : Kernel :=
  { k with
    log := { k.log with
      dispatches :=
        { task := k.ref s
          returned := (k.log.returned.filter fun e => e.1 = (k.tasks s).incarnation).map (·.2) } ::
        k.log.dispatches } }

/-- `scheduler_get_next_task`, with the tasks it rejects. -/
def schedulerGetNextTask (k : Kernel) : Except Halt (Option Slot × List Slot × Kernel) :=
  (ReadyQueue.nextRunnable k.runnable nextTaskDepth k.ready).map fun (next, q, rejected) =>
    (next, rejected, { next.elim k k.noteDispatch with ready := q })

/-! ## Wait queues -/

/-- One turn of the loop of `wait_queue_wakeup_all`. -/
def wakeWaiter (k : Kernel) (s : Slot) : Except Halt Kernel :=
  (k.modifyTask s fun t => { t with blockedOnWq := none }).schedulerWakeupTask s

def waitQueueWakeupAll (k : Kernel) (wq : WaitQueue) : Except Halt Kernel :=
  (k.waitQueues wq).foldlM wakeWaiter { k with waitQueues := update k.waitQueues wq [] }

def waitQueueRemoveTask (k : Kernel) (s : Slot) : Kernel :=
  match (k.tasks s).blockedOnWq with
  | none => k
  | some wq =>
    { k.modifyTask s fun t => { t with blockedOnWq := none } with
      waitQueues := update k.waitQueues wq ((k.waitQueues wq).erase s) }

/-- `wait_queue_sleep` on behalf of the current task `self`, up to `scheduler_yield`. On a
full queue the task does not sleep. -/
def waitQueueSleep (k : Kernel) (self : Slot) (wq : WaitQueue) : Except Halt Kernel :=
  if maxTasks ≤ (k.waitQueues wq).length then .ok k
  else
    { k.modifyTask self fun t =>
        { t with blockedOnWq := some wq, sleptAfter := k.log.deaths.length } with
      waitQueues := update k.waitQueues wq (k.waitQueues wq ++ [self]) }.schedulerBlockTask
        self

/-- `exit_record_store`, for the task in slot `s`. -/
def exitRecordStore (k : Kernel) (s : Slot) (status : Int) : Kernel :=
  let record := ⟨(k.tasks s).pid, (k.tasks s).generation, status⟩
  { k with
    exitRecords := (record :: k.exitRecords).take exitRecordsSize
    log := { k.log with deaths := ((k.tasks s).incarnation, record) :: k.log.deaths } }

/-- `waitpid_notify_death`, for the task in slot `s`. -/
def waitpidNotifyDeath (k : Kernel) (s : Slot) (status : Int) : Except Halt Kernel :=
  (k.exitRecordStore s status).waitQueueWakeupAll .waitpid

/-! ## What a task holds -/

/-- `ramfs_close`, of a reference that `holder` has. -/
def ramfsClose (k : Kernel) (fd : RamfsFd) (holder : Incarnation) : Kernel :=
  let refs := k.ramfsRefs fd
  { k with
    ramfsRefs := update k.ramfsRefs fd
      (if holder ∈ refs then refs.erase holder else refs.tail) }

def vfsClose (k : Kernel) (fd : VfsFd) : Kernel :=
  { k with vfsFds := update k.vfsFds fd none }

/-- The descriptor that resetting a stream closes. -/
def streamOwned (x : Stream) : Option RamfsFd :=
  if !x.borrowed && x.type = .file then x.fd else none

/-- Write a stream. -/
def setStream (k : Kernel) (s : Slot) (st : StdStream) (x : Stream) : Kernel :=
  k.modifyTask s fun t => { t with streams := update t.streams st x }

/-- Close the descriptor of a stream, if the stream owns one. -/
def streamClose (k : Kernel) (s : Slot) (st : StdStream) : Kernel :=
  (streamOwned ((k.tasks s).streams st)).elim k fun fd => k.ramfsClose fd (k.tasks s).incarnation

/-- `stdin_reset`, `stdout_reset` and `stderr_reset`. -/
def streamReset (k : Kernel) (s : Slot) (st : StdStream) : Kernel :=
  (k.streamClose s st).setStream s st .console

def streamsCleanup (k : Kernel) (s : Slot) : Kernel :=
  ((k.streamReset s .stdin).streamReset s .stdout).streamReset s .stderr

/-- One turn of the loop of `task_fdtable_cleanup`. -/
def fdtableClose (s : Slot) (k : Kernel) (i : Fin taskFdtableSize) : Kernel :=
  match (k.tasks s).fdtable i with
  | none => k
  | some fd =>
    (k.vfsClose fd).modifyTask s fun t => { t with fdtable := update t.fdtable i none }

def taskFdtableCleanup (k : Kernel) (s : Slot) : Kernel :=
  (List.finRange taskFdtableSize).foldl (fdtableClose s) k

def pipeBufReferenced (k : Kernel) (buf : PipeBuf) : Bool :=
  (List.finRange maxTasks).any fun s =>
    k.taskGetSlot s && [StdStream.stdin, .stdout, .stderr].any fun st =>
      ((k.tasks s).streams st).type = .pipe && ((k.tasks s).streams st).data = some buf

/-- Write a slot of the pipe table. -/
def setPipe (k : Kernel) (i : PipeId) (p : PipeSlot) : Kernel :=
  { k with pipes := update k.pipes i p }

def pipeSlotReap (k : Kernel) (i : PipeId) : Kernel :=
  let p := k.pipes i
  if p.orphaned && (p.buf.elim false fun buf => !k.pipeBufReferenced buf) then
    k.setPipe i { p with buf := none, ownerUid := 0, orphaned := false }
  else k

/-- The wait queues of a pipe. -/
def pipeQueue (buf : PipeBuf) : WaitQueue := .other buf

def pipeSlotRelease (k : Kernel) (i : PipeId) : Except Halt Kernel :=
  (k.waitQueueWakeupAll (pipeQueue ((k.pipes i).buf.getD 0))).map fun k =>
    (k.setPipe i { k.pipes i with ownerPid := 0, ownerGeneration := 0, orphaned := true }).pipeSlotReap i

def pipeReapOrphans (k : Kernel) : Kernel := (List.finRange maxPipes).foldl pipeSlotReap k

/-- The pipe is one that `task_pipes_cleanup` releases for a task. -/
def ownsPipe (t : Task) (p : PipeSlot) : Bool :=
  p.buf.isSome && !p.orphaned && p.ownerPid = t.pid && p.ownerGeneration = t.generation

/-- One turn of the loop of `task_pipes_cleanup`. -/
def pipeCleanup (s : Slot) (k : Kernel) (i : PipeId) : Except Halt Kernel :=
  if ownsPipe (k.tasks s) (k.pipes i) then k.pipeSlotRelease i else .ok k

def taskPipesCleanup (k : Kernel) (s : Slot) : Except Halt Kernel :=
  ((List.finRange maxPipes).foldlM (pipeCleanup s) k).map pipeReapOrphans

/-- `tcp_task_cleanup`, for the task in slot `s`. -/
def tcpTaskCleanup (k : Kernel) (s : Slot) : Kernel :=
  { k with tcp := (Tcp.tcpTaskCleanup k.tcp (k.tasks s).pid (k.tasks s).generation).stack }

/-- The frames `task_free_resources` frees. -/
def freeable (t : Task) : List Frame :=
  t.frames.kernelStack ++ if t.isKernelTask then [] else t.frames.user ++ t.frames.pageDirectory

def taskFreeResources (k : Kernel) (s : Slot) : Kernel :=
  let freed := freeable (k.tasks s)
  let k := k.modifyTask s fun t =>
    { t with frames := if t.isKernelTask then { t.frames with kernelStack := [] } else .none }
  { k with
    log := { k.log with
      returned := freed.map (fun f => ((k.tasks s).incarnation, f)) ++ k.log.returned } }

/-! ## Switching tasks -/

/-- `cleanup_queue_enqueue`: on a full queue the task is dropped. -/
def cleanupQueueEnqueue (k : Kernel) (s : Slot) : Kernel :=
  if cleanupQueueSize ≤ k.cleanupQueue.length then k
  else { k with cleanupQueue := k.cleanupQueue ++ [k.ref s] }

/-- Mark the task switched away from: an ended one is left to the reaper. -/
def leave (k : Kernel) (s : Slot) : Kernel :=
  if (k.tasks s).dead then k.cleanupQueueEnqueue s
  else if (k.tasks s).state = .running then k.modifyTask s fun t => { t with state := .ready }
  else k

/-- Start a new time slice. -/
def resetSlice (k : Kernel) (s : Slot) : Kernel :=
  k.modifyTask s fun t => { t with ticksRemaining := t.timeSlice }

/-- Mark the task switched to. -/
def enter (k : Kernel) (s : Slot) : Kernel :=
  { k.modifyTask s fun t => { t with state := .running, ticksRemaining := t.timeSlice } with
    currentRunningTask := some s }

/-- The end of a time slice of `prev`, in `scheduler_schedule` and
`scheduler_schedule_from_interrupt`. -/
def reschedule (k : Kernel) (prev : Slot) : Except Halt Kernel :=
  k.schedulerGetNextTask.map fun (next, _, k) =>
    match next with
    | none => k.resetSlice prev
    | some next => if next = prev then k.resetSlice prev else (k.leave prev).enter next

/-- All tasks have terminated. -/
def exhausted (k : Kernel) : Bool :=
  k.ready.head.isNone &&
    k.currentRunningTask.elim true fun s => (k.tasks s).state = .terminated

/-- Count a tick of the current task, and reschedule if its slice is used up. -/
def countTick (k : Kernel) (self : Slot) : Except Halt Kernel :=
  if k.exhausted then .error .panic
  else
    let k := k.modifyTask self fun t => { t with ticksRemaining := t.ticksRemaining - 1 }
    if (k.tasks self).ticksRemaining = 0 then k.reschedule self else .ok k

/-- `scheduler_schedule`, for the current task `self`. -/
def schedulerSchedule (k : Kernel) (self : Slot) : Except Halt Kernel := k.countTick self

/-- The head advance of `scheduler_yield`, for the current task `self`. -/
def yieldHead (k : Kernel) (self : Slot) : Kernel :=
  { k.modifyTask self fun t => { t with ticksRemaining := 0 } with ready := k.ready.advance self }

/-- One turn of the wake-up loop of `scheduler_schedule_from_interrupt`. -/
def wakeSleeper (k : Kernel) (s : Slot) : Except Halt Kernel :=
  if k.taskGetSlot s && (k.tasks s).state = .sleeping && (k.tasks s).wakeTick ≤ k.ticks then
    k.schedulerAddTask s
  else .ok k

/-- One turn of the reaper in `scheduler_schedule_from_interrupt`. -/
def reap (k : Kernel) (r : Ref) : Except Halt Kernel :=
  (k.schedulerRemoveTask r.slot).map fun k =>
    let k := (k.noteRelease .readyQueue r).noteRelease .frames r
    let k := (k.taskFreeResources r.slot).modifyTask r.slot fun t =>
      { t with state := .terminated, pid := 0 }
    (k.noteRelease .slot r).taskFreeSlot r.slot

/-- The reaper: every entry of the cleanup queue, in order. -/
def drainCleanup (k : Kernel) : Except Halt Kernel :=
  k.cleanupQueue.foldlM reap { k with cleanupQueue := [] }

/-- A timer tick: `scheduler_schedule_from_interrupt`. -/
def tick (k : Kernel) : Except Halt Kernel :=
  let k := { k with ticks := k.ticks + 1 }
  match k.currentRunningTask with
  | none => .ok k
  | some self => do
    let k ← (List.finRange maxTasks).foldlM wakeSleeper k
    let k ← k.drainCleanup
    k.countTick self

/-- `scheduler_terminate_current_from_interrupt`. -/
def terminateCurrentFromInterrupt (k : Kernel) : Except Halt Kernel :=
  match k.currentRunningTask with
  | none => .error .panic
  | some prev =>
    if !k.taskSlotIsLive prev || (k.tasks prev).isKernelTask then .error .panic
    else do
      let k := k.modifyTask prev fun t => { t with state := .terminated, ticksRemaining := 0 }
      let k ← k.schedulerRemoveTask prev
      let (next, _, k) ← (k.cleanupQueueEnqueue prev).schedulerGetNextTask
      match next with
      | none => .error .panic
      | some next => if next = prev then .error .panic else .ok (k.enter next)

end Kernel

end TinyOS.Proc
