import TinyOS.Pae.Tables
import TinyOS.Proc.Task
import TinyOS.Ramfs.Ops

/-!
# Memory and tasks, as program loading uses them

The page tables and the physical allocator are those of `Pae.Tables`. To them come the bytes of the
frames, the task table with the frames that each task holds, the bitmap of free slots, the ready ring and
RAMFS. A write through a page that is not mapped, or not writable, is a page fault in the kernel, which
does not return.
-/

namespace TinyOS.Elf

open Function
open Pae (Page Pte Flags)
open Proc (TaskState maxTasks)

abbrev Slot := Proc.Slot

/-- The fields of `task_t` that loading and teardown use. A frame number 0 stands for no frame. -/
structure Task where
  pid : UInt32 := 0
  generation : UInt32 := 0
  state : TaskState := .ready
  isKernelTask : Bool := false
  uid : UInt16 := 0
  /-- `capabilities & CAP_UNKILLABLE`. -/
  unkillable : Bool := false
  guardPagePhys : Nat := 0
  stackPagesPhys : List Nat := []
  userGuardPagePhys : Nat := 0
  userStackPagesPhys : List Nat := []
  imagePagesPhys : List Nat := []
  /-- The PDPT. -/
  pageDirectory : Nat := 0
  edrAdvanced : Nat := 0
  env : Nat := 0

structure Machine where
  pae : Pae.State
  /-- What the frames hold, where they are not page tables. -/
  bytes : Nat → Nat → UInt8
  tasks : Slot → Task
  freeSlots : Slot → Bool
  slotGenerations : Slot → UInt32
  ready : List Slot
  ramfs : Ramfs.State
  /-- The frames that RAMFS has taken for the private directories of tasks. -/
  nodes : List Nat

namespace Machine

def setPae (m : Machine) (s : Pae.State) : Machine := { m with pae := s }

def modifyTask (m : Machine) (slot : Slot) (g : Task → Task) : Machine :=
  { m with tasks := update m.tasks slot (g (m.tasks slot)) }

end Machine

/-! ## Pages -/

def pageBytes : Nat := 4096

/-- Part of a page is written, through the mapping of the address space that is loaded. -/
def writePage (p : Nat) (a len : Nat) (content : Nat → UInt8) (m : Machine) (page : Nat) :
    Option Machine :=
  match m.pae.walk (.user p) (.ofNumber page) with
  | none => none
  | some e =>
    if e.flags.readwrite = true then
      let frame := fun off =>
        if a ≤ page * pageBytes + off ∧ page * pageBytes + off < a + len then
          content (page * pageBytes + off - a)
        else m.bytes e.frame off
      some { m with bytes := update m.bytes e.frame frame }
    else none

/-- The pages that a range of addresses touches. -/
def pagesTouched (a len : Nat) : List Nat :=
  if len = 0 then [] else List.range' (a / pageBytes) ((a + len - 1) / pageBytes - a / pageBytes + 1)

/-- `memcpy` and `memset` to a user address. -/
def write (p : Nat) (a len : Nat) (content : Nat → UInt8) (m : Machine) : Option Machine :=
  (pagesTouched a len).foldlM (writePage p a len content) m

/-- `map_page`, with a user PDPT loaded. -/
def mapPage (m : Machine) (p page : Nat) (e : Pte) : Machine :=
  m.setPae (Pae.paeMapPageInto m.pae (.user p) (.ofNumber page) e)

/-! ## The kernel's view of a frame -/

/-- `PRESENT | READWRITE | NX`. -/
def kernelData : Flags := { present := true, readwrite := true, nx := true }

def kernelIdentityMap (s : Pae.State) (n : Nat) (flags : Flags) : Pae.State :=
  Pae.paeSyncIdentityPte (Pae.paeMapPageInto s .kernel (.ofNumber n) ⟨n, flags⟩)
    (UInt32.ofNat (n * pageBytes))

def guardPageMark (s : Pae.State) (n : Nat) : Pae.State :=
  let v := Page.ofNumber n
  match s.kernelPd v.pdpt v.pd with
  | none => s
  | some t =>
    Pae.paeSyncIdentityPte (s.setPte t v.pt ⟨n, { readwrite := true }⟩)
      (UInt32.ofNat (n * pageBytes))

def guardPageRelease (s : Pae.State) (n : Nat) : Pae.State :=
  if n = 0 then s else Pae.pmmFree (kernelIdentityMap s n kernelData) n

def kernelStackPages : Nat := 8

/-- `pmm_alloc_contiguous`: so many frames in a row, none of them in use. -/
def pmmAllocContiguous (s : Pae.State) (count : Nat) : Option (List Nat) × Pae.State :=
  match s.answers with
  | some n :: rest =>
    let run := List.range' n count
    if 0 < n ∧ n + count ≤ s.frames ∧ run.all (fun k => !s.taken k) = true then
      (some run, { s with answers := rest, taken := fun k => s.taken k || decide (k ∈ run) })
    else (none, { s with answers := rest })
  | none :: rest => (none, { s with answers := rest })
  | [] => (none, s)

/-! ## Teardown -/

/-- `pmm_free`, of every frame in a list that is not 0. -/
def pmmFreeAll (s : Pae.State) (frames : List Nat) : Pae.State :=
  (frames.filter (· ≠ 0)).foldl Pae.pmmFree s

/-- What only user tasks have: user stack, image and address space. -/
def freeUserResources (s : Pae.State) (t : Task) : Pae.State :=
  let s := pmmFreeAll s [t.userGuardPagePhys]
  let s := pmmFreeAll s t.userStackPagesPhys
  let s := pmmFreeAll s t.imagePagesPhys
  if t.pageDirectory ≠ 0 then Pae.paeFreeUserPdpt s t.pageDirectory else s

def taskFreeResources (m : Machine) (slot : Slot) : Machine :=
  let t := m.tasks slot
  let s := guardPageRelease m.pae t.guardPagePhys
  let s := pmmFreeAll s t.stackPagesPhys
  let s := if t.isKernelTask then s else freeUserResources s t
  let s := pmmFreeAll s [t.edrAdvanced]
  let s := pmmFreeAll s [t.env]
  { m.modifyTask slot fun t =>
      { t with
        guardPagePhys := 0
        stackPagesPhys := []
        userGuardPagePhys := 0
        userStackPagesPhys := []
        imagePagesPhys := []
        pageDirectory := 0
        edrAdvanced := 0
        env := 0 } with
    pae := s }

def taskFreeSlot (m : Machine) (slot : Slot) : Machine :=
  { m with
    slotGenerations := update m.slotGenerations slot (m.slotGenerations slot + 1)
    freeSlots := update m.freeSlots slot true }

/-- A creation that fails gives its pid and its slot back. -/
def releaseSlot (m : Machine) (slot : Slot) : Machine :=
  taskFreeSlot (m.modifyTask slot fun t => { t with pid := 0 }) slot

/-- `task_get`: terminated tasks are not found. -/
def taskGet (m : Machine) (pid : UInt32) : Option Slot :=
  (List.finRange maxTasks).find? fun i =>
    (m.tasks i).pid == pid && (m.tasks i).state != .terminated

def taskGetAny (m : Machine) (pid : UInt32) : Option Slot :=
  if pid = 0 then none else (List.finRange maxTasks).find? fun i => (m.tasks i).pid == pid

/-- `task_terminate`, while the task in slot `current` runs. -/
def taskTerminate (m : Machine) (current : Option Slot) (pid : UInt32) : Machine :=
  match taskGet m pid with
  | none => m
  | some slot =>
    if (m.tasks slot).unkillable = true then m
    else if current = some slot then
      m.modifyTask slot fun t => { t with state := .terminated, pid := 0 }
    else
      let m := taskFreeResources m slot
      let m := m.modifyTask slot fun t => { t with state := .terminated, pid := 0 }
      let m := { m with ready := m.ready.erase slot }
      taskFreeSlot m slot

end TinyOS.Elf
