import TinyOS.Proc.Kernel

/-!
# Processes: one processor, many tasks

The kernel runs on one processor. A task in the kernel goes through the steps of its
system call (`Instr`): critical sections, and the calls and assignments between them, at
each of which the timer may interrupt it. What a task has still to do is its `code`. A
task whose code is empty is in its own program and may make any call.

An `Event` is the current task making a call or taking its next step, a timer tick, or an
exception in ring 3. Which task is current is decided by the scheduler in `tick` and in
`schedule`, so a run of events is an interleaving the scheduler can produce.
-/

namespace TinyOS.Proc

open Function

/-- What a task releases, one after the other, when it ends. -/
inductive Holding where
  | streams
  | fdtable
  | pipes
  | sockets
  deriving DecidableEq, Repr

/-- The part of a task it is. -/
def Holding.part : Holding → Part
  | .streams => .streams
  | .fdtable => .fdtable
  | .pipes => .pipes
  | .sockets => .sockets

def pipeUserMax : Nat := 4
def pipeRootReserved : Nat := 2

/-! ## Steps -/

/-- Steps of `sys_kill`, `task_terminate`, `task_terminate_status` and
`task_terminate_task`. -/
inductive KillInstr where
  /-- The critical section of `sys_kill`. -/
  | check (pid : UInt32)
  /-- `task_terminate`. -/
  | terminate (pid : UInt32)
  /-- `task_terminate_status`. -/
  | terminateStatus (pid generation : UInt32) (status : Int)
  /-- `task_terminate_task`: is the task protected? -/
  | protection (r : Ref) (status : Int)
  | waitQueueRemove (r : Ref)
  | notifyDeath (r : Ref) (status : Int)
  | release (r : Ref) (h : Holding)
  /-- `task != scheduler_get_current_task()`. -/
  | compare (r : Ref)
  | freeResources (r : Ref)
  | markTerminated (r : Ref)
  | clearPid (r : Ref)
  | removeTask (r : Ref)
  | freeSlot (r : Ref)
  deriving DecidableEq

/-- Steps of `sys_exit`. -/
inductive ExitInstr where
  | release (h : Holding)
  /-- The section with interrupts disabled. -/
  | zombie (status : Int)
  /-- `sys_exit` goes on after `scheduler_yield`. -/
  | panic
  deriving DecidableEq

/-- Steps of scheduling and waiting. -/
inductive SchedInstr where
  /-- The critical section of `scheduler_yield`. -/
  | yieldHead
  | schedule
  /-- The critical section of `task_sleep`. -/
  | sleep (ticks : Nat)
  /-- The first critical section of `sys_waitpid`. -/
  | waitpid (pid : UInt32)
  /-- The loop of `sys_waitpid`. -/
  | waitChild (pid generation : UInt32)
  | sleepOn (wq : WaitQueue)
  | wakeAll (wq : WaitQueue)
  deriving DecidableEq

/-- Steps of calls by which a task comes to hold something. -/
inductive HoldInstr where
  | vfsOpen
  | fdInstall (fd : VfsFd)
  | fdRemove (i : Fin taskFdtableSize)
  | vfsClose (fd : VfsFd)
  /-- `stdin_redirect_from_file`, `stdout_redirect_to_file`. -/
  | streamClose (st : StdStream)
  | ramfsOpen (st : StdStream)
  | bindFile (st : StdStream) (fd : RamfsFd)
  | streamReset (st : StdStream)
  | pipeReap
  | pipeClaim
  | pipeBind (st : StdStream) (buf : PipeBuf)
  /-- `pipe_slot_for`, to bind a stream. -/
  | pipeFor (st : StdStream) (i : PipeId)
  | pipeDestroy (i : PipeId)
  | tcpSocket
  deriving DecidableEq

/-- The functions of `mutex.c`. -/
inductive MutexInstr where
  | lock (id : MutexId)
  | trylock (id : MutexId)
  | unlock (id : MutexId)
  deriving DecidableEq

/-- A task to be created. -/
structure NewTask where
  isKernelTask : Bool
  unkillable : Bool
  creds : Credentials
  /-- Whether the creator calls `streams_inherit`. -/
  inherits : Bool
  deriving DecidableEq

/-- Steps of creating a task. -/
inductive SpawnInstr where
  /-- A whole creation, in any free slot. -/
  | create (new : NewTask)
  /-- The limits at the start of `task_create_user_argv`. -/
  | limits
  | claim
  /-- `memset`. -/
  | clear (r : Ref)
  | assignPid (r : Ref)
  | setParent (r : Ref)
  /-- The kernel stack. -/
  | allocate (r : Ref)
  /-- The page directory and the user stack. -/
  | allocateUser (r : Ref)
  /-- `task->pid = 0` on a failure. -/
  | dropPid (r : Ref)
  /-- `task_free_slot` on a failure. -/
  | dropSlot (r : Ref)
  /-- Uid and gid 1000 and 100. -/
  | defaultCreds (r : Ref)
  | initTables (r : Ref)
  | markReady (r : Ref)
  | returnPid (r : Ref)
  /-- The rest of `elf_load_process_argv`. -/
  | load (pid : UInt32)
  /-- `task_get` in `sys_spawn`. -/
  | child (pid : UInt32)
  | setUid (r : Ref)
  | setGid (r : Ref)
  | setEuid (r : Ref)
  | setEgid (r : Ref)
  | inherit (r : Ref)
  | add (r : Ref)
  deriving DecidableEq

/-- A step of a task in the kernel. -/
inductive Instr where
  | kill (i : KillInstr)
  | exit (i : ExitInstr)
  | sched (i : SchedInstr)
  | hold (i : HoldInstr)
  | mutex (i : MutexInstr)
  | spawn (i : SpawnInstr)
  deriving DecidableEq

/-- What a step gets from outside. -/
structure Input where
  /-- The random draws of `task_alloc_pid`. -/
  draws : Nat → UInt16
  /-- The slot used by `create`. -/
  slot : Slot
  frames : Frames
  /-- The descriptor `vfs_open` finds. -/
  vfsFd : Option VfsFd
  /-- The descriptor `ramfs_open` finds. -/
  ramfsFd : Option RamfsFd
  /-- The frames of a pipe buffer. -/
  buf : PipeBuf
  /-- Whether an allocation or a load succeeds. -/
  ok : Bool
  /-- The clock of the TCP stack. -/
  now : UInt32

/-- The kernel after a step, and the steps it leads to. -/
abbrev Outcome := Except Halt (Kernel × List Instr)

/-- The step is over. -/
def done (k : Kernel) : Outcome := .ok (k, [])

/-! ## Ending a task -/

namespace Kernel

/-- Release what a task holds. -/
def releaseHolding (k : Kernel) (s : Slot) : Holding → Except Halt Kernel
  | .streams => .ok (k.streamsCleanup s)
  | .fdtable => .ok (k.taskFdtableCleanup s)
  | .pipes => k.taskPipesCleanup s
  | .sockets => .ok (k.tcpTaskCleanup s)

end Kernel

/-- The steps of `task_terminate_task` up to the comparison with the current task. -/
def terminateHead (r : Ref) (status : Int) : List Instr :=
  [.kill (.waitQueueRemove r), .kill (.notifyDeath r status), .kill (.release r .streams),
    .kill (.release r .fdtable), .kill (.release r .pipes), .kill (.release r .sockets),
    .kill (.compare r)]

/-- The last steps for another task. -/
def terminateOther (r : Ref) : List Instr :=
  [.kill (.freeResources r), .kill (.markTerminated r), .kill (.clearPid r), .kill (.removeTask r),
    .kill (.freeSlot r)]

/-- The last steps for the current task. -/
def terminateSelf (r : Ref) : List Instr := [.kill (.markTerminated r), .kill (.clearPid r)]

/-- The steps of killing, by the task in slot `self`. -/
def KillInstr.exec (self : Slot) (k : Kernel) : KillInstr → Outcome
  | .check pid =>
    match k.taskGet pid with
    | none => done k
    | some target =>
      if k.taskVisible self target && !(k.tasks target).unkillable then
        .ok (k, [.kill (.terminate pid)])
      else done k
  | .terminate pid =>
    match k.taskGet pid with
    | none => done k
    | some target => .ok (k, [.kill (.protection (k.ref target) 0x7F)])
  | .terminateStatus pid generation status =>
    match k.taskGetValidated pid generation with
    | none => done k
    | some target =>
      if (k.tasks target).unkillable then done k
      else .ok (k, [.kill (.protection (k.ref target) status)])
  | .protection r status =>
    if (k.tasks r.slot).unkillable then done k else .ok (k, terminateHead r status)
  | .waitQueueRemove r => done (k.waitQueueRemoveTask r.slot)
  | .notifyDeath r status => (k.waitpidNotifyDeath r.slot status).map (·, [])
  | .release r h => ((k.noteRelease h.part r).releaseHolding r.slot h).map (·, [])
  | .compare r => .ok (k, if r.slot = self then terminateSelf r else terminateOther r)
  | .freeResources r => done ((k.noteRelease .frames r).taskFreeResources r.slot)
  | .markTerminated r => done (k.modifyTask r.slot fun t => { t with state := .terminated })
  | .clearPid r => done (k.modifyTask r.slot fun t => { t with pid := 0 })
  | .removeTask r => ((k.noteRelease .readyQueue r).schedulerRemoveTask r.slot).map (·, [])
  | .freeSlot r => done ((k.noteRelease .slot r).taskFreeSlot r.slot)

namespace Kernel

/-- The assignments to the streams in the last section of `sys_exit`. -/
def closeStreams (k : Kernel) (s : Slot) : Kernel :=
  let close (x : Stream) : Stream := { x with isOpen := false, fd := none }
  (k.setStream s .stdin (close ((k.tasks s).streams .stdin))).setStream s .stdout
    (close ((k.tasks s).streams .stdout))

/-- The section of `sys_exit` with interrupts disabled. -/
def exitSection (k : Kernel) (self : Slot) (status : Int) : Except Halt Kernel := do
  let k := (k.closeStreams self).modifyTask self fun t =>
    { t with exitStatus := status, state := .zombie }
  let k ← k.waitpidNotifyDeath self status
  k.schedulerRemoveTask self

end Kernel

/-- The steps of `sys_exit`, by the task in slot `self`. -/
def ExitInstr.exec (self : Slot) (k : Kernel) : ExitInstr → Outcome
  | .release h => (k.releaseHolding self h).map (·, [])
  | .zombie status => (k.exitSection self status).map (·, [])
  | .panic => .error .panic

/-! ## Scheduling and waiting -/

/-- `scheduler_yield`. -/
def yieldCode : List Instr := [.sched .yieldHead, .sched .schedule]

/-- The steps of scheduling and waiting, by the task in slot `self`. -/
def SchedInstr.exec (self : Slot) (k : Kernel) : SchedInstr → Outcome
  | .yieldHead => done (k.yieldHead self)
  | .schedule => (k.schedulerSchedule self).map (·, [])
  | .sleep ticks =>
    ((k.modifyTask self fun t => { t with wakeTick := k.ticks + ticks, state := .sleeping }).schedulerRemoveTask
      self).map (·, yieldCode)
  | .waitpid pid =>
    if pid = (k.tasks self).pid then done k
    else
      match k.taskGet pid with
      | none => done k
      | some target =>
        if (k.tasks target).parentPid = (k.tasks self).pid &&
            (k.tasks target).parentGeneration = (k.tasks self).generation then
          .ok (k, [.sched (.waitChild pid (k.tasks target).generation)])
        else done k
  | .waitChild pid generation =>
    match k.taskGetValidated pid generation with
    | none => done k
    | some child =>
      if (k.tasks child).state = .zombie then done k
      else if maxTasks ≤ (k.waitQueues .waitpid).length then
        .ok (k, [.sched (.waitChild pid generation)])
      else
        (k.waitQueueSleep self .waitpid).map
          (·, yieldCode ++ [.sched (.waitChild pid generation)])
  | .sleepOn wq => (k.waitQueueSleep self wq).map (·, yieldCode)
  | .wakeAll wq => (k.waitQueueWakeupAll wq).map (·, [])

/-! ## Files, pipes and sockets -/

/-- The first free entry of a descriptor table, as `task_fd_install` finds it. -/
def freeEntry (t : Task) : Option (Fin taskFdtableSize) :=
  (List.finRange taskFdtableSize).find? fun i => (t.fdtable i).isNone

/-- The stream bound to a RAMFS file. -/
def fileStream (fd : RamfsFd) : Stream := ⟨.file, some fd, none, true, false⟩

/-- The stream bound to a pipe. -/
def pipeStream (buf : PipeBuf) : Stream := ⟨.pipe, none, some buf, true, false⟩

namespace Kernel

/-- `vfs_open` by the task in slot `self` returns the descriptor. -/
def vfsOpen (k : Kernel) (self : Slot) (fd : VfsFd) : Kernel :=
  { k with vfsFds := update k.vfsFds fd (some (k.tasks self).incarnation) }

/-- Write an entry of a descriptor table. -/
def setFd (k : Kernel) (s : Slot) (i : Fin taskFdtableSize) (fd : Option VfsFd) : Kernel :=
  k.modifyTask s fun t => { t with fdtable := update t.fdtable i fd }

/-- A reference to a RAMFS file for the task in slot `s`: `ramfs_open`, `ramfs_fd_ref`. -/
def ramfsRef (k : Kernel) (s : Slot) (fd : RamfsFd) : Kernel :=
  { k with
    ramfsRefs := update k.ramfsRefs fd ((k.tasks s).incarnation :: k.ramfsRefs fd) }

/-- The start of `stdin_redirect_from_file` and `stdout_redirect_to_file`. -/
def redirectClose (k : Kernel) (s : Slot) (st : StdStream) : Kernel :=
  let x := (k.tasks s).streams st
  if x.isOpen && (streamOwned x).isSome then
    (k.streamClose s st).setStream s st { x with fd := none }
  else k

/-- Bind a stream to the console after a failed redirection. -/
def redirectFail (k : Kernel) (s : Slot) (st : StdStream) : Kernel :=
  k.setStream s st
    { (k.tasks s).streams st with type := .console, fd := none, isOpen := true, borrowed := false }

def pipeBindStream (k : Kernel) (s : Slot) (st : StdStream) (buf : PipeBuf) : Kernel :=
  (k.streamClose s st).setStream s st (pipeStream buf)

/-- The slot that `sys_pipe` gives a new pipe of the task in slot `self`. -/
def pipeSlotFree (k : Kernel) (self : Slot) : Option PipeId :=
  let avail := (List.finRange maxPipes).countP fun i => (k.pipes i).buf.isNone
  let held := (List.finRange maxPipes).countP fun i =>
    (k.pipes i).buf.isSome && (k.pipes i).ownerUid = (k.tasks self).uid
  if (k.tasks self).euid ≠ 0 && (pipeUserMax ≤ held || avail ≤ pipeRootReserved) then none
  else (List.finRange maxPipes).find? fun i => (k.pipes i).buf.isNone

/-- The claim of a pipe slot in `sys_pipe`. -/
def pipeClaim (k : Kernel) (self : Slot) (i : PipeId) (buf : PipeBuf) : Kernel :=
  k.setPipe i
    { k.pipes i with
      buf := some buf
      ownerPid := (k.tasks self).pid
      ownerGeneration := (k.tasks self).generation
      ownerUid := (k.tasks self).uid
      creator := (k.tasks self).incarnation }

/-- `pipe_slot_for` finds the slot. -/
def pipeSlotFor (k : Kernel) (self : Slot) (i : PipeId) : Bool :=
  ownsPipe (k.tasks self) (k.pipes i)

/-- Reset a stream that names the buffer. -/
def unbindPipe (k : Kernel) (s : Slot) (st : StdStream) (buf : Option PipeBuf) : Kernel :=
  if ((k.tasks s).streams st).data = buf then k.streamReset s st else k

/-- The task that calls into the TCP stack. -/
def tcpCaller (k : Kernel) (self : Slot) : Tcp.Task :=
  ⟨(k.tasks self).uid.toUInt32, (k.tasks self).pid, (k.tasks self).generation⟩

def tcpSocket (k : Kernel) (self : Slot) (now : UInt32) : Kernel :=
  let reply := Tcp.tcpSocket k.tcp (some (k.tcpCaller self)) now
  { k with
    tcp := reply.stack
    tcpOpener := fun i =>
      if (reply.ret : Int) = (i : Nat) then (k.tasks self).incarnation else k.tcpOpener i }

/-- What the network, or a call on a socket, does to a connection: anything but giving it
to another owner, or taking it into use. -/
def tcpChange (k : Kernel) (i : Tcp.Idx) (c : Tcp.Conn) : Kernel :=
  let old := (k.tcp.slots i).conn
  { k with
    tcp := { k.tcp with
      slots := update k.tcp.slots i
        { k.tcp.slots i with
          conn := { c with
            inUse := old.inUse && c.inUse
            ownerPid := old.ownerPid
            ownerGeneration := old.ownerGeneration } } } }

end Kernel

/-- The steps by which the task in slot `self` comes to hold things. -/
def HoldInstr.exec (x : Input) (self : Slot) (k : Kernel) : HoldInstr → Outcome
  | .vfsOpen =>
    match x.vfsFd with
    | none => done k
    | some fd =>
      if (k.vfsFds fd).isNone then .ok (k.vfsOpen self fd, [.hold (.fdInstall fd)]) else done k
  | .fdInstall fd =>
    match freeEntry (k.tasks self) with
    | none => .ok (k, [.hold (.vfsClose fd)])
    | some i => done (k.setFd self i (some fd))
  | .fdRemove i =>
    match (k.tasks self).fdtable i with
    | none => done k
    | some fd => .ok (k.setFd self i none, [.hold (.vfsClose fd)])
  | .vfsClose fd => done (k.vfsClose fd)
  | .streamClose st => done (k.redirectClose self st)
  | .ramfsOpen st =>
    match x.ramfsFd with
    | none => done (k.redirectFail self st)
    | some fd =>
      if (k.ramfsRefs fd).isEmpty then .ok (k.ramfsRef self fd, [.hold (.bindFile st fd)])
      else done (k.redirectFail self st)
  | .bindFile st fd => done (k.setStream self st (fileStream fd))
  | .streamReset st => done (k.streamReset self st)
  | .pipeReap => done k.pipeReapOrphans
  | .pipeClaim =>
    match k.pipeSlotFree self with
    | none => done k
    | some i => .ok (k.pipeClaim self i x.buf, [.hold (.pipeBind .stdout x.buf)])
  | .pipeBind st buf => done (k.pipeBindStream self st buf)
  | .pipeFor st i =>
    match (k.pipes i).buf with
    | none => done k
    | some buf =>
      if k.pipeSlotFor self i then .ok (k, [.hold (.pipeBind st buf)]) else done k
  | .pipeDestroy i =>
    if k.pipeSlotFor self i then
      let buf := (k.pipes i).buf
      (((k.unbindPipe self .stdin buf).unbindPipe self .stdout buf).pipeSlotRelease i).map (·, [])
    else done k
  | .tcpSocket => done (k.tcpSocket self x.now)

/-! ## Mutexes -/

namespace Kernel

/-- Write a mutex. -/
def setMutex (k : Kernel) (id : MutexId) (mutex : Mutex) : Kernel :=
  { k with mutexes := update k.mutexes id mutex }

/-- The mutex is locked by the task in slot `self`. -/
def mutexHeld (k : Kernel) (self : Slot) (id : MutexId) : Bool :=
  (k.mutexes id).locked && (k.mutexes id).ownerPid = (k.tasks self).pid

/-- Lock the mutex again. -/
def mutexRelock (k : Kernel) (id : MutexId) : Kernel :=
  if (k.mutexes id).recursive then
    k.setMutex id { k.mutexes id with lockCount := (k.mutexes id).lockCount + 1 }
  else k

/-- Make the task in slot `s`, found under `pid`, the owner of the mutex. -/
def mutexGive (k : Kernel) (id : MutexId) (s : Slot) (pid : UInt32) : Kernel :=
  k.setMutex id
    { k.mutexes id with
      locked := true
      ownerPid := pid
      lockCount := 1
      holder := (k.tasks s).incarnation }

/-- `mutex_lock`, up to `scheduler_yield`, and whether it comes to that. -/
def mutexLock (k : Kernel) (self : Slot) (id : MutexId) : Except Halt (Kernel × Bool) :=
  if k.mutexHeld self id then .ok (k.mutexRelock id, false)
  else if !(k.mutexes id).locked then .ok (k.mutexGive id self (k.tasks self).pid, false)
  else if mutexMaxWaiters ≤ (k.mutexes id).waiters.length then .error .panic
  else
    ((k.setMutex id
      { k.mutexes id with
        waiters := (k.mutexes id).waiters ++ [((k.tasks self).pid, (k.tasks self).generation)]
      }).schedulerBlockTask self).map (·, true)

def mutexTrylock (k : Kernel) (self : Slot) (id : MutexId) : Kernel :=
  if k.mutexHeld self id && (k.mutexes id).recursive then k.mutexRelock id
  else if !(k.mutexes id).locked then k.mutexGive id self (k.tasks self).pid
  else k

/-- The loop of `mutex_unlock` over the waiters. -/
def mutexHandOver (k : Kernel) (id : MutexId) : List (UInt32 × UInt32) → Except Halt Kernel
  | [] =>
    .ok (k.setMutex id
      { k.mutexes id with locked := false, ownerPid := 0, lockCount := 0, waiters := [] })
  | (pid, generation) :: waiters =>
    match k.taskGetValidated pid generation with
    | none => k.mutexHandOver id waiters
    | some s =>
      ((k.setMutex id { k.mutexes id with waiters := waiters }).mutexGive id s
        pid).schedulerWakeupTask s

def mutexUnlock (k : Kernel) (self : Slot) (id : MutexId) : Except Halt Kernel :=
  if !k.mutexHeld self id then .ok k
  else if 1 < (k.mutexes id).lockCount then
    .ok (k.setMutex id { k.mutexes id with lockCount := (k.mutexes id).lockCount - 1 })
  else k.mutexHandOver id (k.mutexes id).waiters

end Kernel

/-- The steps on mutexes, by the task in slot `self`. -/
def MutexInstr.exec (self : Slot) (k : Kernel) : MutexInstr → Outcome
  | .lock id => (k.mutexLock self id).map fun (k, waits) => (k, if waits then yieldCode else [])
  | .trylock id => done (k.mutexTrylock self id)
  | .unlock id => (k.mutexUnlock self id).map (·, [])

/-! ## Creating a task -/

namespace Kernel

/-- The `i`-th assignment of `streams_inherit`, after the copy. -/
def inheritStream (k : Kernel) (s : Slot) (st : StdStream) : Kernel :=
  let x := (k.tasks s).streams st
  if x.type ≠ .file || !x.isOpen then k
  else
    match x.fd.filter fun fd => !(k.ramfsRefs fd).isEmpty with
    | some fd => (k.ramfsRef s fd).setStream s st { x with borrowed := false }
    | none => k.setStream s st { x with type := .console, fd := none, data := none }

/-- `streams_inherit`, by the task in slot `s` from the task in slot `creator`. -/
def streamsInherit (k : Kernel) (s creator : Slot) : Kernel :=
  let k := k.modifyTask s fun t =>
    { t with streams := fun st => { (k.tasks creator).streams st with borrowed := true } }
  ((k.inheritStream s .stdin).inheritStream s .stdout).inheritStream s .stderr

/-- Give slot `s` to a new task, created by the task in slot `self` if there is one. -/
def claimSlot (k : Kernel) (self : Option Slot) (s : Slot) : Kernel :=
  { k.modifyTask s fun t =>
      { t with
        incarnation := k.born + 1
        creator := self.map fun c => ⟨(k.tasks c).incarnation, (k.tasks c).creds⟩ } with
    freeSlotBitmap := update k.freeSlotBitmap s false
    born := k.born + 1 }

/-- `memset(task, 0, sizeof(task_t))`. -/
def clearTask (k : Kernel) (s : Slot) : Kernel :=
  { k.modifyTask s fun t =>
      { Task.zero with incarnation := t.incarnation, creator := t.creator } with
    ready := { k.ready with next := update k.ready.next s none } }

/-- The pid and the generation of a new task. -/
def assignPid (k : Kernel) (s : Slot) (draws : Nat → UInt16) : Kernel :=
  let k := k.modifyTask s fun t =>
    { t with pid := k.taskAllocPid draws, generation := k.slotGenerations s }
  let t := k.tasks s
  { k with
    log := { k.log with
      births := ⟨t.incarnation, t.pid, t.generation, t.isKernelTask⟩ :: k.log.births } }

/-- The parent of a new task. -/
def setParent (k : Kernel) (s : Slot) (self : Option Slot) : Kernel :=
  match self with
  | none => k
  | some c =>
    k.modifyTask s fun t =>
      { t with parentPid := (k.tasks c).pid, parentGeneration := (k.tasks c).generation }

/-- `streams_init`, `task_fdtable_init` and the scheduling parameters of a new task. -/
def initTables (k : Kernel) (s : Slot) : Kernel :=
  k.modifyTask s fun t =>
    { t with
      streams := fun _ => .console
      fdtable := fun _ => none
      timeSlice := 10
      ticksRemaining := 10 }

/-- What distinguishes a new task from others. -/
def setAttributes (k : Kernel) (s : Slot) (new : NewTask) (frames : Frames) : Kernel :=
  k.modifyTask s fun t =>
    { t with
      isKernelTask := new.isKernelTask
      unkillable := new.unkillable
      uid := new.creds.uid
      gid := new.creds.gid
      euid := new.creds.euid
      egid := new.creds.egid
      frames := frames }

/-- `task_create_kernel` or `task_create_user_argv`, and what the creator does up to
`scheduler_add_task`, in the free slot `s`. -/
def create (k : Kernel) (self : Option Slot) (new : NewTask) (s : Slot) (frames : Frames)
    (draws : Nat → UInt16) : Except Halt Kernel :=
  if k.freeSlotBitmap s then
    let k := ((k.claimSlot self s).clearTask s).setAttributes s new frames
    let k := (((k.assignPid s draws).setParent s self).initTables s)
    let k := if new.inherits then self.elim k fun c => k.streamsInherit s c else k
    k.schedulerAddTask s
  else .ok k

/-- The limits that `task_create_user_argv` checks for the creator. -/
def creationAllowed (k : Kernel) (self : Slot) : Bool :=
  let uid := (k.tasks self).uid
  uid = 0 ||
    !(userMaxConcurrentTasks ≤ k.taskCountLiveForUid uid ||
      k.taskCountFreeSlots ≤ taskRootReservedSlots)

/-- Note that credentials were stored in the task in slot `s`. -/
def noteStore (k : Kernel) (self s : Slot) : Kernel :=
  { k with
    log := { k.log with
      stores := ⟨(k.tasks self).incarnation, (k.tasks s).incarnation⟩ :: k.log.stores } }

/-- A store of a credential in `sys_spawn`. -/
def storeCredential (k : Kernel) (self s : Slot) (f : Task → Task) : Kernel :=
  (k.noteStore self s).modifyTask s f

end Kernel

/-- `elf_exec_unlock`. -/
def execUnlock : List Instr := [.mutex (.unlock .execPath)]

/-- The steps of creating a task, by the task in slot `self`. -/
def SpawnInstr.exec (x : Input) (self : Slot) (k : Kernel) : SpawnInstr → Outcome
  | .create new => (k.create (some self) new x.slot x.frames x.draws).map (·, [])
  | .limits =>
    .ok (k, if k.creationAllowed self && x.ok then [.spawn .claim] else execUnlock)
  | .claim =>
    match k.taskFindFreeSlot with
    | none => .ok (k, execUnlock)
    | some s =>
      let r : Ref := ⟨s, k.born + 1⟩
      .ok (k.claimSlot (some self) s,
        [.spawn (.clear r), .spawn (.assignPid r), .spawn (.setParent r), .spawn (.allocate r)])
  | .clear r => done (k.clearTask r.slot)
  | .assignPid r => done (k.assignPid r.slot x.draws)
  | .setParent r => done (k.setParent r.slot (some self))
  | .allocate r =>
    if x.ok then
      .ok (k.modifyTask r.slot fun t =>
          { t with frames := { t.frames with kernelStack := x.frames.kernelStack } },
        [.spawn (.defaultCreds r), .spawn (.allocateUser r)])
    else .ok (k, .spawn (.dropPid r) :: .spawn (.dropSlot r) :: execUnlock)
  | .defaultCreds r =>
    done (k.modifyTask r.slot fun t => { t with uid := 1000, gid := 100, euid := 1000, egid := 100 })
  | .allocateUser r =>
    if x.ok then
      .ok (k.modifyTask r.slot fun t =>
          { t with frames := { x.frames with kernelStack := t.frames.kernelStack } },
        [.spawn (.initTables r), .spawn (.markReady r), .spawn (.returnPid r)])
    else .ok (k, .spawn (.dropPid r) :: .spawn (.dropSlot r) :: execUnlock)
  | .dropPid r => done (k.modifyTask r.slot fun t => { t with pid := 0 })
  | .dropSlot r => done (k.taskFreeSlot r.slot)
  | .initTables r => done (k.initTables r.slot)
  | .markReady r => done (k.modifyTask r.slot fun t => { t with state := .ready })
  | .returnPid r => .ok (k, [.spawn (.load (k.tasks r.slot).pid)])
  | .load pid =>
    if x.ok then .ok (k, execUnlock ++ [.spawn (.child pid)])
    else .ok (k, .kill (.terminate pid) :: execUnlock)
  | .child pid =>
    match k.taskGet pid with
    | none => .ok (k, [.kill (.terminate pid)])
    | some s =>
      let r := k.ref s
      .ok (k, [.spawn (.setParent r), .spawn (.setUid r), .spawn (.setGid r), .spawn (.setEuid r),
        .spawn (.setEgid r), .spawn (.inherit r), .spawn (.add r)])
  | .setUid r => done (k.storeCredential self r.slot fun t => { t with uid := (k.tasks self).uid })
  | .setGid r => done (k.storeCredential self r.slot fun t => { t with gid := (k.tasks self).gid })
  | .setEuid r =>
    done (k.storeCredential self r.slot fun t => { t with euid := (k.tasks self).euid })
  | .setEgid r =>
    done (k.storeCredential self r.slot fun t => { t with egid := (k.tasks self).egid })
  | .inherit r => done (k.streamsInherit r.slot self)
  | .add r => (k.schedulerAddTask r.slot).map (·, [])

/-! ## The machine -/

/-- A step of the task in slot `self`. -/
def Instr.exec (x : Input) (self : Slot) (k : Kernel) : Instr → Outcome
  | .kill i => i.exec self k
  | .exit i => i.exec self k
  | .sched i => i.exec self k
  | .hold i => i.exec x self k
  | .mutex i => i.exec self k
  | .spawn i => i.exec x self k

/-- What a task may ask the kernel for. -/
inductive Call where
  /-- `sys_kill`. -/
  | kill (pid : UInt32)
  /-- `task_terminate_status`. -/
  | terminateStatus (pid generation : UInt32) (status : Int)
  | exit (status : Int)
  | yield
  | sleep (ticks : Nat)
  | waitpid (pid : UInt32)
  | sleepOn (wq : WaitQueue)
  | wakeAll (wq : WaitQueue)
  | open
  | close (i : Fin taskFdtableSize)
  | redirect (st : StdStream)
  | restore (st : StdStream)
  | pipeCreate
  | pipeBindStdin (i : PipeId)
  | pipeDestroy (i : PipeId)
  | socket
  | lock (id : MutexId)
  | trylock (id : MutexId)
  | unlock (id : MutexId)
  /-- A task is created, all at once. -/
  | create (new : NewTask)
  | spawn
  deriving DecidableEq

/-- The steps of `sys_exit`. -/
def exitCode (status : Int) : List Instr :=
  [.exit (.release .streams), .exit (.release .fdtable), .exit (.release .pipes),
    .exit (.release .sockets), .exit (.zombie status), .sched .yieldHead, .sched .schedule,
    .exit .panic]

/-- The steps of a call. -/
def Call.code : Call → List Instr
  | .kill pid => if pid = 0 then [] else [.kill (.check pid)]
  | .terminateStatus pid generation status => [.kill (.terminateStatus pid generation status)]
  | .exit status => exitCode status
  | .yield => yieldCode
  | .sleep ticks => [.sched (.sleep ticks)]
  | .waitpid pid => if pid = 0 then [] else [.sched (.waitpid pid)]
  | .sleepOn wq => [.sched (.sleepOn wq)]
  | .wakeAll wq => [.sched (.wakeAll wq)]
  | .open => [.hold .vfsOpen]
  | .close i => [.hold (.fdRemove i)]
  | .redirect st => [.hold (.streamClose st), .hold (.ramfsOpen st)]
  | .restore st => [.hold (.streamReset st)]
  | .pipeCreate => [.hold .pipeReap, .hold .pipeClaim]
  | .pipeBindStdin i => [.hold (.pipeFor .stdin i)]
  | .pipeDestroy i => [.hold (.pipeDestroy i)]
  | .socket => [.hold .tcpSocket]
  | .lock id => [.mutex (.lock id)]
  | .trylock id => [.mutex (.trylock id)]
  | .unlock id => [.mutex (.unlock id)]
  | .create new => [.spawn (.create new)]
  | .spawn => [.mutex (.lock .execPath), .spawn .limits]

/-- Something happens. -/
inductive Event where
  /-- The current task, in its own program, makes a call. -/
  | call (c : Call)
  /-- The current task, in the kernel, takes its next step. -/
  | step (x : Input)
  /-- The timer. -/
  | tick
  /-- An exception in the program of the current task, contained by
  `isr_common_handler`. -/
  | fault
  /-- The connection changes to `c`. -/
  | net (i : Tcp.Idx) (c : Tcp.Conn)

/-- The kernel, and what each task has still to do there. -/
structure Machine where
  kernel : Kernel
  code : Incarnation → List Instr

namespace Machine

/-- What the task in a slot has still to do. -/
def codeOf (m : Machine) (s : Slot) : List Instr := m.code (m.kernel.tasks s).incarnation

/-- Change what the task in a slot has still to do. -/
def setCode (m : Machine) (s : Slot) (k : Kernel) (code : List Instr) : Machine :=
  ⟨k, update m.code (m.kernel.tasks s).incarnation code⟩

/-- The task in slot `self` takes its next step. -/
def advance (m : Machine) (self : Slot) (x : Input) : Except Halt Machine :=
  match m.codeOf self with
  | [] => .ok m
  | i :: rest => (i.exec x self m.kernel).map fun (k, more) => m.setCode self k (more ++ rest)

/-- What happens to the machine. A call, a step or an exception that the current task is
not in a position to make changes nothing. -/
def step (m : Machine) : Event → Except Halt Machine
  | .call c =>
    match m.kernel.currentRunningTask with
    | none => .ok m
    | some self =>
      if m.codeOf self = [] then .ok (m.setCode self m.kernel c.code) else .ok m
  | .step x =>
    match m.kernel.currentRunningTask with
    | none => .ok m
    | some self => m.advance self x
  | .tick => m.kernel.tick.map fun k => { m with kernel := k }
  | .fault =>
    match m.kernel.currentRunningTask with
    | none => .ok m
    | some self =>
      if m.codeOf self = [] then
        m.kernel.terminateCurrentFromInterrupt.map fun k => { m with kernel := k }
      else .ok m
  | .net i c => .ok { m with kernel := m.kernel.tcpChange i c }

/-- Things happen one after the other. -/
def run (m : Machine) (events : List Event) : Except Halt Machine := events.foldlM step m

end Machine

/-- A task created before the scheduler starts, in the given slot. -/
structure FirstTask where
  new : NewTask
  slot : Slot
  frames : Frames
  draws : Nat → UInt16

namespace Kernel

def schedulerStart (k : Kernel) : Except Halt Kernel := do
  let (next, _, k) ← k.schedulerGetNextTask
  match next with
  | none => .error .noReturn
  | some first => .ok (k.enter first)

/-- The kernel starts with some tasks. -/
def startWith (tasks : List FirstTask) : Except Halt Kernel := do
  let k ← tasks.foldlM (fun k t => k.create none t.new t.slot t.frames t.draws) boot
  k.schedulerStart

end Kernel

namespace Machine

/-- The machine starts with some tasks. -/
def start (tasks : List FirstTask) : Except Halt Machine :=
  (Kernel.startWith tasks).map fun k => ⟨k, fun _ => []⟩

/-! ## Runs -/

/-- A step that meets a guard. -/
def GuardedStep (guard : Machine → Event → Prop) (m : Machine) (e : Event) (m' : Machine) : Prop :=
  guard m e ∧ m.step e = .ok m'

/-- Start with some tasks, and run some events. -/
def runFrom (tasks : List FirstTask) (events : List Event) : Except Halt Machine := do
  let m ← start tasks
  m.run events

/-- Start with some tasks, and run some events that all meet a guard. -/
def runGuarded (guard : Machine → Event → Prop) [∀ m e, Decidable (guard m e)]
    (tasks : List FirstTask) (events : List Event) : Except Halt (Machine × Machine) := do
  let m₀ ← start tasks
  let m ← events.foldlM (fun m e => if guard m e then m.step e else .error .panic) m₀
  return (m₀, m)

theorem runGuarded_returns {guard : Machine → Event → Prop} [∀ m e, Decidable (guard m e)]
    {tasks : List FirstTask} {events : List Event} {m₀ m : Machine}
    (h : runGuarded guard tasks events = .ok (m₀, m)) :
    start tasks = .ok m₀ ∧ Lib.Run (GuardedStep guard) m₀ events m := by
  obtain ⟨m₁, hstart, h⟩ := Lib.bind_returns h
  obtain ⟨m₂, hrun, heq⟩ := Lib.bind_returns h
  cases heq
  exact ⟨hstart, Lib.Run.of_foldlM_guarded hrun⟩

end Machine

/-! ## Tasks and inputs for examples -/

/-- A user task. -/
def userTask (uid : UInt16) : NewTask := ⟨false, false, ⟨uid, 100, uid, 100⟩, false⟩

/-- A user task in a slot, with the first free pid from 100 on. -/
def userIn (s : Slot) (uid : UInt16) : FirstTask := ⟨userTask uid, s, .none, fun i => i.toUInt16⟩

/-- Nothing particular from outside. -/
def plainInput : Input := ⟨fun i => i.toUInt16, 0, .none, none, none, 0, true, 0⟩

end TinyOS.Proc
