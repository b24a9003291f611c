import TinyOS.Proc.ReadyQueue
import TinyOS.Tcp.Stack

/-!
# Processes: the state of the kernel

The task table of `process.c`, the scheduler's variables, and what tasks hold: RAMFS
references of their streams, VFS descriptors, pipes, TCP sockets and mutexes.

A slot of `tasks[]` is used by one task after another. The field `incarnation` numbers
them in the order of their creation. It is not in the source, where a task is told from
a later one in its slot by its pid and generation. Nor are the records in `Log` of what
was done to which incarnation. Both are only written: no operation depends on them.
-/

namespace TinyOS.Proc

/-- `task_state_t`. -/
inductive TaskState where
  | ready
  | running
  | blocked
  | sleeping
  | zombie
  | terminated
  deriving DecidableEq, Repr

def ramfsMaxFds : Nat := 16
def vfsMaxFds : Nat := 64
def taskFdtableSize : Nat := 16
def maxPipes : Nat := 8
/-- `EXIT_RECORDS`. -/
def exitRecordsSize : Nat := 16
def cleanupQueueSize : Nat := 8
def mutexMaxWaiters : Nat := 16
def userMaxConcurrentTasks : Nat := 10
def taskRootReservedSlots : Nat := 4

instance : NeZero vfsMaxFds := ⟨by decide⟩

abbrev RamfsFd := Fin ramfsMaxFds
abbrev VfsFd := Fin vfsMaxFds
abbrev PipeId := Fin maxPipes
/-- The address of a `pipe_buffer_t`. -/
abbrev PipeBuf := Nat
/-- A physical frame. -/
abbrev Frame := Nat
/-- The number of a task in the order of creation. -/
abbrev Incarnation := Nat

/-- The mutexes of the kernel. -/
inductive MutexId where
  | execPath
  | fat32
  | ide
  | ramfs
  | userDb
  deriving DecidableEq, Repr

instance : Fintype MutexId where
  elems := {.execPath, .fat32, .ide, .ramfs, .userDb}
  complete id := by cases id <;> decide

/-- `stream_type_t`. -/
inductive StreamType where
  | console
  | file
  | pipe
  | null
  deriving DecidableEq, Repr

/-- `stream_t`. -/
structure Stream where
  type : StreamType
  /-- `-1` is `none`. -/
  fd : Option RamfsFd
  data : Option PipeBuf
  isOpen : Bool
  borrowed : Bool
  deriving DecidableEq

/-- The streams of a `stream_context_t`. -/
inductive StdStream where
  | stdin
  | stdout
  | stderr
  deriving DecidableEq, Repr

/-- A wait queue: the one of `sys_waitpid`, or another one of the kernel. -/
inductive WaitQueue where
  | waitpid
  | other (n : Nat)
  deriving DecidableEq, Repr

/-- The frames of a task that `task_free_resources` frees. -/
structure Frames where
  /-- The guard page and the stack pages. -/
  kernelStack : List Frame
  /-- The user guard page, the user stack and the image. -/
  user : List Frame
  pageDirectory : List Frame

/-- No frames. -/
def Frames.none : Frames := ⟨[], [], []⟩

/-- The credentials of a task. -/
structure Credentials where
  uid : UInt16
  gid : UInt16
  euid : UInt16
  egid : UInt16
  deriving DecidableEq, Repr

/-- Who called `sys_spawn`, and the credentials it had. -/
structure Creator where
  incarnation : Incarnation
  creds : Credentials
  deriving DecidableEq, Repr

/-- `task_t`. -/
structure Task where
  pid : UInt32
  generation : UInt32
  state : TaskState
  isKernelTask : Bool
  /-- `capabilities & CAP_UNKILLABLE`. -/
  unkillable : Bool
  uid : UInt16
  gid : UInt16
  euid : UInt16
  egid : UInt16
  parentPid : UInt32
  parentGeneration : UInt32
  timeSlice : Nat
  ticksRemaining : Nat
  wakeTick : Nat
  exitStatus : Int
  blockedOnWq : Option WaitQueue
  streams : StdStream → Stream
  fdtable : Fin taskFdtableSize → Option VfsFd
  frames : Frames
  /-- Which task this is. -/
  incarnation : Incarnation
  /-- How many deaths had been recorded when it last went to sleep on a wait queue. -/
  sleptAfter : Nat
  /-- Who spawned it. -/
  creator : Option Creator

/-- The stream after `memset`. -/
def Stream.zero : Stream := ⟨.console, none, none, false, false⟩

/-- The stream after `streams_init`. -/
def Stream.console : Stream := ⟨.console, none, none, true, false⟩

/-- The task after `memset(task, 0, sizeof(task_t))`. The descriptor table then names
descriptor 0. -/
def Task.zero : Task where
  pid := 0
  generation := 0
  state := .ready
  isKernelTask := false
  unkillable := false
  uid := 0
  gid := 0
  euid := 0
  egid := 0
  parentPid := 0
  parentGeneration := 0
  timeSlice := 0
  ticksRemaining := 0
  wakeTick := 0
  exitStatus := 0
  blockedOnWq := none
  streams _ := .zero
  fdtable _ := some 0
  frames := .none
  incarnation := 0
  sleptAfter := 0
  creator := none

namespace Task

def creds (t : Task) : Credentials := ⟨t.uid, t.gid, t.euid, t.egid⟩

/-- The task has ended: `ZOMBIE` or `TERMINATED`. -/
def dead (t : Task) : Bool := t.state = .zombie || t.state = .terminated

end Task

/-- An entry of `exit_records`. -/
structure ExitRecord where
  pid : UInt32
  generation : UInt32
  status : Int
  deriving DecidableEq, Repr

/-- `pipe_slot_t`. -/
structure PipeSlot where
  buf : Option PipeBuf
  ownerPid : UInt32
  ownerGeneration : UInt32
  ownerUid : UInt16
  orphaned : Bool
  /-- The task that created the pipe. -/
  creator : Incarnation

/-- `mutex_t`. -/
structure Mutex where
  locked : Bool
  ownerPid : UInt32
  lockCount : Nat
  /-- `waiters` and `waiter_gens`. -/
  waiters : List (UInt32 × UInt32)
  /-- `flags & MUTEX_FLAG_RECURSIVE`. -/
  recursive : Bool
  /-- The task that last acquired the mutex or was handed it. -/
  holder : Incarnation

/-- A pointer to a task, with the task it was taken for. -/
structure Ref where
  slot : Slot
  incarnation : Incarnation
  deriving DecidableEq, Repr

/-- What is released of a task when it ends. -/
inductive Part where
  | streams
  | fdtable
  | pipes
  | sockets
  | frames
  | readyQueue
  | slot
  deriving DecidableEq, Repr

/-- Something was released for the task `target`, in a slot that was last given to the
task `hit`. -/
structure Release where
  part : Part
  target : Incarnation
  hit : Incarnation
  deriving DecidableEq, Repr

/-- `scheduler_get_next_task` returned a task. `returned` are the frames of that task that
`task_free_resources` had given back. -/
structure Dispatch where
  task : Ref
  returned : List Frame
  deriving DecidableEq, Repr

/-- `sys_spawn`, called by the task `storer`, stored credentials in the task `into`. -/
structure CredentialStore where
  storer : Incarnation
  into : Incarnation
  deriving DecidableEq, Repr

/-- A task was created. -/
structure Birth where
  incarnation : Incarnation
  pid : UInt32
  generation : UInt32
  isKernelTask : Bool
  deriving DecidableEq, Repr

/-- What was done, and to which tasks. Newest first. -/
structure Log where
  births : List Birth
  releases : List Release
  /-- For each call of `task_free_slot`, the task that was last given the slot. -/
  slotFrees : List Incarnation
  returned : List (Incarnation × Frame)
  dispatches : List Dispatch
  /-- The exit records stored, with the task they were stored for. -/
  deaths : List (Incarnation × ExitRecord)
  stores : List CredentialStore

/-- The state of the kernel. -/
structure Kernel where
  tasks : Slot → Task
  slotGenerations : Slot → UInt32
  /-- A set bit is a free slot. -/
  freeSlotBitmap : Slot → Bool
  ready : ReadyQueue
  currentRunningTask : Option Slot
  /-- From `cleanup_queue_head` on. -/
  cleanupQueue : List Ref
  /-- Newest first. -/
  exitRecords : List ExitRecord
  waitQueues : WaitQueue → List Slot
  mutexes : MutexId → Mutex
  ticks : Nat
  /-- The holders of the references to an open RAMFS file. -/
  ramfsRefs : RamfsFd → List Incarnation
  /-- The task that opened the descriptor. -/
  vfsFds : VfsFd → Option Incarnation
  pipes : PipeId → PipeSlot
  tcp : Tcp.Stack
  /-- The task that got the socket. -/
  tcpOpener : Tcp.Idx → Incarnation
  /-- How many tasks have been created. -/
  born : Nat
  log : Log

end TinyOS.Proc
