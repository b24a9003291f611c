import TinyOS.Elf.Machine

/-!
# Creating a user task

`task_create_user_argv`, with every exit and what it gives back. What the outside decides is in
`Request`: the arguments, who calls, the rate limiter, the random numbers, and in the machine's
allocator the frames that `pmm_alloc` is going to answer with. The private directory is made in the
RAMFS of `Ramfs.Ops`.
-/

namespace TinyOS.Elf

open Pae (Page Pte Flags)
open Proc (maxTasks userMaxConcurrentTasks taskRootReservedSlots)

def userArgvMax : Nat := 32
def userArgvMaxBytes : Nat := 1024
def userStackMin : Nat := 8
def userStackMax : Nat := 256

/-- `-EAGAIN`. -/
def eagain : Int := -11

structure Request where
  argc : Int
  /-- The strings of `argv`, without their terminators; a pointer may be null. -/
  argv : Option (List (Option (List UInt8)))
  /-- The task that is running, if there is one. -/
  current : Option Slot
  /-- What `task_rate_limit_check` says. -/
  rateAllows : Bool
  /-- The random numbers that `task_alloc_pid` draws. -/
  draws : Nat → UInt16
  /-- `aslr_get_random_stack_base`. -/
  stackBase : Nat
  /-- The running task as RAMFS sees it. -/
  caller : Ramfs.Caller
  /-- The 40 bits drawn for the name of the private directory. -/
  randomBits : Nat

/-! ## Checks -/

/-- The total length of the strings, if every one is there and they do not get too long. -/
def argvBytes : List (Option (List UInt8)) → (total : Nat) → Option Nat
  | [], total => some total
  | none :: _, _ => none
  | some str :: rest, total =>
    let total := total + (str.length + 1)
    if userArgvMaxBytes < total then none else argvBytes rest total

def checkArgv (x : Request) : Option Nat :=
  if x.argc < 0 ∨ userArgvMax < x.argc then none
  else
    match x.argv with
    | none => if 0 < x.argc then none else some 0
    | some argv => argvBytes (argv.take x.argc.toNat) 0

def taskCountLiveForUid (m : Machine) (uid : UInt16) : Nat :=
  (List.finRange maxTasks).countP fun i =>
    (m.tasks i).pid != 0 && (m.tasks i).state != .terminated && (m.tasks i).uid == uid

def taskCountFreeSlots (m : Machine) : Nat :=
  (List.finRange maxTasks).countP fun i => (m.tasks i).pid == 0 || (m.tasks i).state == .terminated

/-- The limits on what one user may hold, which root is exempt from. -/
def checkLimits (m : Machine) (x : Request) : Bool :=
  match x.current with
  | none => true
  | some creator =>
    let uid := (m.tasks creator).uid
    uid == 0 ||
      (decide (taskCountLiveForUid m uid < userMaxConcurrentTasks) &&
        decide (taskRootReservedSlots < taskCountFreeSlots m))

def taskFindFreeSlot (m : Machine) : Option Slot := (List.finRange maxTasks).find? m.freeSlots

/-- Some task that is not terminated has the pid. -/
def pidInUse (m : Machine) (pid : UInt32) : Bool :=
  (List.finRange maxTasks).any fun i =>
    (m.tasks i).pid == pid && (m.tasks i).state != .terminated

def taskAllocPid (m : Machine) (draws : Nat → UInt16) : UInt32 :=
  (((List.range 1000).map fun i => 100 + (draws i).toUInt32 % 65436).find? fun pid =>
    !pidInUse m pid).getD
    ((((List.range' 100 65436).map UInt32.ofNat).find? fun pid => !pidInUse m pid).getD 65536)

/-- The slot is claimed, cleared and given its pid and generation. -/
def claimSlot (m : Machine) (x : Request) (slot : Slot) : Machine :=
  let m := { m with freeSlots := Function.update m.freeSlots slot false }
  let m := m.modifyTask slot fun _ => {}
  m.modifyTask slot fun t =>
    { t with pid := taskAllocPid m x.draws, generation := m.slotGenerations slot }

/-! ## Frames -/

/-- The kernel stack, mapped for the kernel, and its guard page, taken out of the kernel's map. -/
def mapKernelStack (s : Pae.State) (guard : Nat) (stack : List Nat) : Pae.State :=
  guardPageMark (stack.foldl (fun s n => kernelIdentityMap s n kernelData) s) guard

/-- The frames of the user stack, one after the other; on a failure those that were taken. -/
def allocUserStack : Nat → Pae.State → List Nat → Except (List Nat) (List Nat) × Pae.State
  | 0, s, frames => (.ok frames, s)
  | count + 1, s, frames =>
    match Pae.pmmAlloc s with
    | (none, s) => (.error frames, s)
    | (some n, s) => allocUserStack count s (frames ++ [n])

/-- `PRESENT | READWRITE | USER | NX`. -/
def userStackFlags : Flags := { present := true, readwrite := true, user := true, nx := true }

/-- The first page above the stack. -/
def stackTop (x : Request) : Nat := (x.stackBase + 0xFFF) / pageBytes

/-- The guard page and the stack pages, in the new address space, the highest page first. -/
def mapUserStack (m : Machine) (p : Nat) (x : Request) (guard : Nat) (stack : List Nat) : Machine :=
  let m := mapPage m p (stackTop x - (stack.length + 1)) ⟨guard, userStackFlags⟩
  let m := mapPage m p (stackTop x - (stack.length + 1))
    ⟨guard, { userStackFlags with present := false }⟩
  stack.zipIdx.foldl
    (fun m (n, i) => mapPage m p (stackTop x - (i + 1)) ⟨n, userStackFlags⟩) m

/-- The stack pages are cleared through their user addresses. -/
def clearUserStack (m : Machine) (p : Nat) (x : Request) (pages : Nat) : Option Machine :=
  (List.range pages).foldlM
    (fun m i => write p ((stackTop x - (i + 1)) * pageBytes) pageBytes (fun _ => 0) m) m

/-- The argument block fits between the initial stack pointer and the lowest stack page. -/
def argvFits (x : Request) (argvBytes pages : Nat) : Bool :=
  let blockBytes := argvBytes + (x.argc.toNat + 1) * 4 + 4 + 4 + 15
  let stackLow := stackTop x * pageBytes - pages * pageBytes
  decide (stackLow ≤ x.stackBase) && decide (blockBytes ≤ x.stackBase - stackLow)

def hexDigit (n : Nat) : UInt8 := UInt8.ofNat (if n < 10 then 0x30 + n else 0x61 + (n - 10))

/-- `private_tmp_dir`: `/tmp/`, ten hex digits and a slash. -/
def privateTmpDir (bits : Nat) : Ramfs.Str :=
  [0x2F, 0x74, 0x6D, 0x70, 0x2F] ++
    (List.range 10).reverse.map (fun i => hexDigit (bits / 2 ^ (i * 4) % 16)) ++ [0x2F]

/-- `ramfs_mkdir` of the private directory comes to the allocation of the node. -/
def tmpAccepts (x : Request) (r : Ramfs.State) : Bool :=
  decide ((Ramfs.ramfsMkdir x.caller (some (privateTmpDir x.randomBits)) true r).1 = 0)

/-- `ramfs_mkdir` of the private directory. A node takes a frame. -/
def mkdirPrivateTmp (x : Request) (m : Machine) : Machine :=
  let dir := some (privateTmpDir x.randomBits)
  if tmpAccepts x m.ramfs = true then
    match Pae.pmmAlloc m.pae with
    | (none, s) => { m.setPae s with ramfs := (Ramfs.ramfsMkdir x.caller dir false m.ramfs).2 }
    | (some n, s) =>
      { m.setPae (Pae.paeMapPageInto s .kernel (.ofNumber n) ⟨n, kernelData⟩) with
        ramfs := (Ramfs.ramfsMkdir x.caller dir true m.ramfs).2
        nodes := n :: m.nodes }
  else m

/-- `pmm_alloc`, where 0 is an answer as good as any. -/
def pmmAllocOrZero (s : Pae.State) : Nat × Pae.State :=
  match Pae.pmmAlloc s with
  | (none, s) => (0, s)
  | (some n, s) => (n, s)

/-! ## The call -/

/-- The fields that are set when the frames of the stacks are there. -/
def stackedTask (guard : Nat) (stack : List Nat) (p userGuard : Nat) (frames : List Nat) (t : Task) :
    Task :=
  { t with
    guardPagePhys := guard
    stackPagesPhys := stack
    uid := 1000
    pageDirectory := p
    userGuardPagePhys := userGuard
    userStackPagesPhys := frames }

/-- The argument block and what follows it. -/
def furnishTask (x : Request) (argvBytes pages : Nat) (slot : Slot) (m : Machine) :
    Except Int UInt32 × Machine :=
  if argvFits x argvBytes pages = false then
    (.error (-1), releaseSlot (taskFreeResources m slot) slot)
  else
    let m := mkdirPrivateTmp x m
    let edr := pmmAllocOrZero m.pae
    let m := (m.setPae edr.2).modifyTask slot fun t =>
      { t with edrAdvanced := edr.1, state := .ready }
    (.ok (m.tasks slot).pid, m)

/-- From the new page directory on: the user's stack, the argument block and the rest. -/
def createUserSpace (x : Request) (argvBytes pages : Nat) (slot : Slot) (m : Machine) (guard : Nat)
    (stack : List Nat) : Option (Except Int UInt32 × Machine) :=
  -- Every exit from here on gives back the kernel stack and its guard page.
  let giveBack := fun (s : Pae.State) => pmmFreeAll (guardPageRelease s guard) stack
  match Pae.paeCreateUserPdpt m.pae with
  | (none, s) => some (.error (-1), releaseSlot (m.setPae (giveBack s)) slot)
  | (some p, s) =>
    match Pae.pmmAlloc s with
    | (none, s) =>
      some (.error (-1), releaseSlot (m.setPae (giveBack (Pae.paeFreeUserPdpt s p))) slot)
    | (some userGuard, s) =>
      match allocUserStack pages s [] with
      | (.error frames, s) =>
        let s := Pae.pmmFree (pmmFreeAll s frames) userGuard
        some (.error (-1), releaseSlot (m.setPae (giveBack (Pae.paeFreeUserPdpt s p))) slot)
      | (.ok frames, s) =>
        let m := (m.setPae s).modifyTask slot (stackedTask guard stack p userGuard frames)
        match clearUserStack (mapUserStack m p x userGuard frames) p x pages with
        | none => none
        | some m => some (furnishTask x argvBytes pages slot m)

/-- `task_create_user_argv`. A page fault in it is `none`. -/
def taskCreateUserArgv (x : Request) (stackPages : Nat) (m : Machine) :
    Option (Except Int UInt32 × Machine) :=
  match checkArgv x with
  | none => some (.error (-1), m)
  | some argvBytes =>
    let pages := min (max stackPages userStackMin) userStackMax
    if checkLimits m x = false then some (.error eagain, m)
    else if x.rateAllows = false then some (.error eagain, m)
    else
      match taskFindFreeSlot m with
      | none => some (.error (-1), m)
      | some slot =>
        let m := claimSlot m x slot
        if (m.tasks slot).pid = 0 then some (.error (-1), taskFreeSlot m slot)
        else
          match Pae.pmmAlloc m.pae with
          | (none, s) => some (.error (-1), releaseSlot (m.setPae s) slot)
          | (some guard, s) =>
            match pmmAllocContiguous s kernelStackPages with
            | (none, s) => some (.error (-1), releaseSlot (m.setPae (Pae.pmmFree s guard)) slot)
            | (some stack, s) =>
              createUserSpace x argvBytes pages slot (m.setPae (mapKernelStack s guard stack)) guard
                stack

end TinyOS.Elf
