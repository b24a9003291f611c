import Mathlib.Data.Finset.Card

/-!
# RAMFS: nodes, descriptors, credentials

The data model of `ramfs.c`: the node structure with its three links
(`parent`, `children`, `next`), the descriptor table, the directory-handle pool
of `ramfs_vfs.c`, and the permission predicate every operation asks.

A node's identity is the allocation that made it (`NodeId`); the PMM's part of
the state is the set of node frames it has handed out and not had back
(`State.live`). A node's memory stays readable after it is freed, as the frame
does, so `State.node` is total. Byte strings are the bytes before the NUL.

Left out of the node: `data`, an alias of `data_pages[0]` that no operation
reads, and `symlink_target`, which is always `NULL`.
-/

namespace TinyOS.Ramfs

open Function

abbrev NodeId := Nat

/-- A C string: the bytes before the terminating NUL. -/
abbrev Str := List UInt8

/-! ## Constants of `ramfs.h` -/

def flagRead : Nat := 0x01
def flagWrite : Nat := 0x02
def flagNofollow : Nat := 0x04
def flagInherit : Nat := 0x08
def flagExec : Nat := 0x10

def permMask : Nat := 0o777
def defaultFileMode : Nat := 0o600
def defaultDirMode : Nat := 0o700

def maxFiles : Nat := 64
def maxName : Nat := 32
def pageSize : Nat := 4096
def maxPages : Nat := 16
def maxData : Nat := maxPages * pageSize
def maxFds : Nat := 16
def maxChildrenPerDir : Nat := 256
def userMaxFds : Nat := 8
def rootReservedFds : Nat := 4
/-- `PROCESS_MAX_FDS` of `process.h`. -/
def processMaxFds : Nat := 8

/-- `RAMFS_OPEN_LIMIT`. -/
def openLimit : Int := -11
def ramfsBusy : Int := -7
/-- `RAMFS_CHMOD_EPERM`. -/
def chmodEperm : Int := -3
/-- `RAMFS_WRITE_EFBIG`. -/
def writeEfbig : Int := -4
/-- `RAMFS_CREATE_EPERM`. -/
def createEperm : Int := -10
/-- `-EMFILE`. -/
def emfile : Int := -24

/-! ## Nodes, descriptors, state -/

/-- `RAMFS_TYPE_FILE`, `RAMFS_TYPE_DIR`, `RAMFS_TYPE_SYMLINK`. -/
inductive NodeType where
  | file
  | dir
  | symlink
deriving DecidableEq, Repr

/-- One `pmm_alloc` frame of file data. -/
abbrev Page := Nat → UInt8

/-- `ramfs_node_t`. -/
structure Node where
  name : Str
  type : NodeType
  size : Nat
  mode : Nat
  uid : Nat
  gid : Nat
  childCount : Nat
  dataPages : Nat → Option Page
  parent : Option NodeId
  children : Option NodeId
  next : Option NodeId

/-- `ramfs_fd_t`. -/
structure Fd where
  node : Option NodeId
  pos : Nat
  flags : Nat
  inUse : Bool
  closeOnExec : Bool
  refs : Nat
  ownerPid : Nat
  ownerGeneration : Nat
  ownerUid : Nat
deriving DecidableEq

/-- A descriptor slot nobody holds. -/
def Fd.free : Fd := ⟨none, 0, 0, false, false, 0, 0, 0, 0⟩

/-- `ramfs_fd_handle_t` of `ramfs_vfs.c`. -/
structure Handle where
  ramfsFd : Int
  inUse : Bool
  isDir : Bool
  dirNode : Option NodeId
  dirPos : Nat
deriving DecidableEq

/-- A handle slot in the zeroed pool. -/
def Handle.free : Handle := ⟨0, false, false, none, 0⟩

/-- The file-static state of `ramfs.c` and `ramfs_vfs.c`, with the node frames
the PMM has handed out. `nextId` numbers allocations. -/
structure State where
  root : Option NodeId
  node : NodeId → Node
  live : Finset NodeId
  nextId : NodeId
  totalNodes : Nat
  fds : Nat → Fd
  handles : Nat → Handle
  /-- `external_busy_hook` is registered. -/
  busyHook : Bool

namespace State

/-- Assign through a node pointer. -/
def modify (s : State) (p : NodeId) (f : Node → Node) : State :=
  { s with node := update s.node p (f (s.node p)) }

/-- Assign to a descriptor slot. -/
def setFd (s : State) (i : Nat) (f : Fd) : State :=
  { s with fds := update s.fds i f }

/-- Assign to a handle slot. -/
def setHandle (s : State) (i : Nat) (h : Handle) : State :=
  { s with handles := update s.handles i h }

variable (s : State) (p q : NodeId) (f : Node → Node) (i : Nat) (d : Fd) (h : Handle)

@[simp] theorem modify_live : (s.modify p f).live = s.live := rfl
@[simp] theorem modify_fds : (s.modify p f).fds = s.fds := rfl

@[simp] theorem modify_node_self : (s.modify p f).node p = f (s.node p) := by
  simp [modify]

theorem modify_node_ne (hne : q ≠ p) : (s.modify p f).node q = s.node q := by
  simp [modify, hne]

theorem modify_node : (s.modify p f).node q = if q = p then f (s.node p) else s.node q := by
  simp [modify, update_apply]

theorem modify_field {β : Type*} (g : Node → β) (hf : g (f (s.node p)) = g (s.node p)) :
    g ((s.modify p f).node q) = g (s.node q) := by
  rw [modify_node]
  split
  · rename_i hq
    rw [hq, hf]
  · rfl

@[simp] theorem setFd_node : (s.setFd i d).node = s.node := rfl
@[simp] theorem setFd_live : (s.setFd i d).live = s.live := rfl

theorem setFd_fds (j : Nat) : (s.setFd i d).fds j = if j = i then d else s.fds j := by
  simp [setFd, update_apply]

@[simp] theorem setHandle_node : (s.setHandle i h).node = s.node := rfl
@[simp] theorem setHandle_live : (s.setHandle i h).live = s.live := rfl

theorem setHandle_handles (j : Nat) :
    (s.setHandle i h).handles j = if j = i then h else s.handles j := by
  simp [setHandle, update_apply]

end State

/-! ## Credentials and permissions -/

/-- The fields of `task_t` that `ramfs.c` reads. -/
structure Task where
  pid : Nat
  generation : Nat
  uid : Nat
  euid : Nat
  egid : Nat
  groups : List Nat
deriving DecidableEq, Repr

/-- `scheduler_get_current_task()`: `none` before the scheduler runs. -/
abbrev Caller := Option Task

/-- `ramfs_get_current_credentials`: effective uid and gid, root without a task. -/
def ramfsGetCurrentCredentials : Caller → Nat × Nat
  | some current => (current.euid, current.egid)
  | none => (0, 0)

def Caller.uid (cur : Caller) : Nat := (ramfsGetCurrentCredentials cur).1

def Caller.gid (cur : Caller) : Nat := (ramfsGetCurrentCredentials cur).2

/-- One of the owner/group/other branches: the mode bits an access mask asks for. -/
def requiredPerms (access read write exec : Nat) : Nat :=
  (if access &&& flagRead ≠ 0 then read else 0) |||
  (if access &&& flagWrite ≠ 0 then write else 0) |||
  (if access &&& flagExec ≠ 0 then exec else 0)

/-- The calling task holds `gid` as a supplemental group. -/
def groupMatch (cur : Caller) (gid : Nat) : Bool :=
  match cur with
  | some current => current.groups.contains gid
  | none => false

def ramfsCheckPermission (cur : Caller) (node : Node) (uid gid access : Nat) : Bool :=
  if uid = 0 then true
  -- an empty access mask never grants
  else if access &&& (flagRead ||| flagWrite ||| flagExec) = 0 then false
  else
    let required :=
      if uid = node.uid then requiredPerms access 0o400 0o200 0o100
      else if gid = node.gid then requiredPerms access 0o040 0o020 0o010
      else if groupMatch cur node.gid then requiredPerms access 0o040 0o020 0o010
      else requiredPerms access 0o004 0o002 0o001
    node.mode &&& required == required

/-- The check as every operation makes it: with the caller's own credentials. -/
def permits (cur : Caller) (node : Node) (access : Nat) : Bool :=
  ramfsCheckPermission cur node cur.uid cur.gid access

def maySearch (cur : Caller) (s : State) (dir : NodeId) : Bool :=
  permits cur (s.node dir) flagExec

def hiddenFromCaller (cur : Caller) (s : State) (p : NodeId) : Bool :=
  if cur.uid = 0 then false
  else match (s.node p).parent with
    | none => false
    | some parent =>
      if (s.node p).uid = cur.uid then false
      else if permits cur (s.node parent) flagRead then false
      else !permits cur (s.node p) flagRead && !permits cur (s.node p) flagWrite &&
        !permits cur (s.node p) flagExec

theorem permits_root {cur : Caller} (hroot : cur.uid = 0) (n : Node) (access : Nat) :
    permits cur n access = true := by
  simp [permits, ramfsCheckPermission, hroot]

theorem hiddenFromCaller_root {cur : Caller} (hroot : cur.uid = 0) (s : State) (p : NodeId) :
    hiddenFromCaller cur s p = false := by
  simp [hiddenFromCaller, hroot]

/-- Bits present together are present separately. -/
theorem land_eq_of_land_lor {m a b : Nat} (h : m &&& (a ||| b) = a ||| b) :
    m &&& a = a ∧ m &&& b = b := by
  have habsorb : ∀ c d : Nat, (c ||| d) &&& c = c := by
    intro c d
    apply Nat.eq_of_testBit_eq
    intro i
    cases hc : c.testBit i <;> simp [hc]
  have hpart : ∀ c, (a ||| b) &&& c = c → m &&& c = c := by
    intro c hc
    rw [← hc, ← Nat.and_assoc, h]
  exact ⟨hpart a (habsorb a b), hpart b (Nat.or_comm a b ▸ habsorb b a)⟩

section Weaken

variable {access flag : Nat}

/-- An access mask that contains one of the three rights is at least as hard to
pass as that right alone. -/
theorem permits_of_flag {cur : Caller} {n : Node} (hp : permits cur n access = true)
    (hflag : flag = flagRead ∨ flag = flagWrite ∨ flag = flagExec)
    (hmem : access &&& flag ≠ 0) : permits cur n flag = true := by
  have hreq : ∀ r w x : Nat, n.mode &&& requiredPerms access r w x = requiredPerms access r w x →
      n.mode &&& requiredPerms flag r w x = requiredPerms flag r w x := by
    intro r w x h
    obtain ⟨hrw, hx⟩ := land_eq_of_land_lor h
    obtain ⟨hr, hw⟩ := land_eq_of_land_lor hrw
    have hone : requiredPerms flagRead r w x = r ∧ requiredPerms flagWrite r w x = w ∧
        requiredPerms flagExec r w x = x := by
      simp [requiredPerms, flagRead, flagWrite, flagExec]
    rcases hflag with rfl | rfl | rfl
    · rw [hone.1]
      simpa [hmem] using hr
    · rw [hone.2.1]
      simpa [hmem] using hw
    · rw [hone.2.2]
      simpa [hmem] using hx
  have hne : flag &&& (flagRead ||| flagWrite ||| flagExec) ≠ 0 := by
    rcases hflag with rfl | rfl | rfl <;> decide
  by_cases hroot : cur.uid = 0
  · exact permits_root hroot n flag
  simp only [permits, ramfsCheckPermission, hroot, if_false, hne] at hp ⊢
  split at hp
  · exact absurd hp (by simp)
  · simp only [beq_iff_eq] at hp ⊢
    split_ifs at hp ⊢ <;> exact hreq _ _ _ hp

end Weaken

end TinyOS.Ramfs
