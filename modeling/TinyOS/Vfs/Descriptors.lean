import TinyOS.Ramfs.Ops
import TinyOS.Vfs.ProtectedPath

/-!
# The two descriptor tables

A file that is opened through the VFS takes a slot of `vfs_fd_table`, and if RAMFS holds it, a slot of
`file_descriptors` below that, with a handle of the driver's pool between the two. `vfsOpen` is
`vfs_open` with the RAMFS driver underneath and every field of the slots; it shares with `Vfs.vfsOpen`,
where the driver is a parameter, the steps that need less (`forget`).

`Sys` cuts the calls at their critical sections, for any number of threads. What happens in between
reads paths, searches and changes the tree, and decides whether a call goes on; it leaves both tables
alone, so here it is free.
-/

namespace TinyOS.Vfs.Descriptors

open Lib Function
open Ramfs (NodeId Handle)

/-! ## State -/

/-- What the two layers read of a task. -/
structure Process where
  task : Ramfs.Task
  capabilities : UInt32

/-- The current task; there is none before the scheduler runs. -/
abbrev Caller := Option Process

def Caller.ramfs (cur : Caller) : Ramfs.Caller := cur.map Process.task

def Caller.vfs (cur : Caller) : Option Task := cur.map fun p => ⟨p.task.uid, p.capabilities⟩

inductive Driver where
  | ramfs
  | fat32
  deriving DecidableEq

/-- `private_data`: a handle of the driver that owns the slot. -/
inductive Private where
  | null
  | handle (i : Nat)
  | fat32 (i : Nat)
  deriving DecidableEq

/-- `vfs_fd_type_t`, as far as it is used. -/
inductive FdType where
  | none
  | file
  deriving DecidableEq

/-- `vfs_file_descriptor_t`. The defaults are those of a cleared slot. -/
structure Slot where
  inUse : Bool := false
  flags : UInt32 := 0
  type : FdType := .none
  offset : Nat := 0
  privateData : Private := .null
  ops : Option Driver := .none
  ownerUid : Nat := 0
  path : Str := []
  deriving DecidableEq

structure State where
  initialized : Bool
  fds : Nat → Slot
  mounts : Nat → Option Driver
  drivers : List Driver
  fs : Ramfs.State
  denied : UInt32
  granted : UInt32

namespace State

def setSlot (s : State) (fd : Nat) (x : Slot) : State := { s with fds := update s.fds fd x }

def setFs (s : State) (fs : Ramfs.State) : State := { s with fs := fs }

/-- What `Vfs.State` has of it, with the drivers as they are called. -/
def forget (ops : Driver → FileOps Ramfs.State) (s : State) : Vfs.State Ramfs.State where
  initialized := s.initialized
  fds i := ⟨(s.fds i).inUse, (s.fds i).ownerUid⟩
  mounts d := (s.mounts d).map ops
  drivers := s.drivers.map ops
  dev := s.fs
  denied := s.denied
  granted := s.granted

end State

/-- Where no driver is called. -/
def noOps (_ : Driver) : FileOps Ramfs.State := ⟨none, none, none, none⟩

/-! ## The RAMFS driver -/

/-- `VFS_O_TRUNC`. -/
def oTrunc : UInt32 := 0x0200
/-- `VFS_O_DIRECTORY`. -/
def oDirectory : UInt32 := 0x0800
/-- `VFS_EMFILE`. -/
def emfile : Int := -24

/-- The access mode, as RAMFS flags. -/
def ramfsFlags (flags : UInt32) : Nat :=
  let mode := flags &&& 0x3
  (if mode = 0 ∨ mode = 2 then Ramfs.flagRead else 0) |||
    (if mode = 1 ∨ mode = 2 then Ramfs.flagWrite else 0)

/-- What `ramfs_vfs_open` makes of an error of `ramfs_open`. -/
def openError (e : Int) : Int :=
  if e = Ramfs.createEperm then eacces
  else if e = Ramfs.openLimit then eagain
  else if e = Ramfs.emfile then emfile
  else if e = -2 then enfile
  else enoent

/-- A handle for an open file. -/
def fileHandle (ramfsFd : Int) : Handle := ⟨ramfsFd, true, false, none, 0⟩

/-- A handle for an open directory. -/
def dirHandle (dir : NodeId) : Handle := ⟨-1, true, true, some dir, 0⟩

/-- The end of `ramfs_vfs_open`: the handle, or the slot is given back. -/
def takeHandle (ramfsFd : Int) (fs : Ramfs.State) : Except Int Private × Ramfs.State :=
  match Ramfs.ramfsAllocHandle fs with
  | none => (.error Ramfs.vfsEnomem, Ramfs.ramfsClose ramfsFd fs)
  | some i => (.ok (.handle i), fs.setHandle i (fileHandle ramfsFd))

def ramfsVfsOpen (cur : Ramfs.Caller) (alloc : Bool) (path : Str) (flags : UInt32)
    (fs : Ramfs.State) : Except Int Private × Ramfs.State :=
  if flags &&& oDirectory ≠ 0 then
    match Ramfs.ramfsFind cur fs (some path) with
    | none => (.error enoent, fs)
    | some dir =>
      if Ramfs.opendirCheck cur dir fs ≠ 0 then (.error (Ramfs.opendirCheck cur dir fs), fs)
      else
        match Ramfs.ramfsAllocHandle fs with
        | none => (.error Ramfs.vfsEnomem, fs)
        | some i => (.ok (.handle i), fs.setHandle i (dirHandle dir))
  else
    let r := Ramfs.ramfsOpen cur (some path) (ramfsFlags flags) alloc fs
    if r.1 < 0 then (.error (openError r.1), r.2)
    else if flags &&& oTrunc ≠ 0 then takeHandle r.1 (Ramfs.ramfsTruncate r.1 r.2).2
    else takeHandle r.1 r.2

/-! ## `vfs_open` -/

/-- `vfs_alloc_fd`. The other fields of the slot stay as they are. -/
def vfsAllocFd (s : State) (cur : Caller) : Except Int (Nat × State) :=
  match Vfs.vfsAllocFd (s.forget noOps) cur.vfs with
  | .error e => .error e
  | .ok (fd, _) =>
    .ok (fd, s.setSlot fd
      { s.fds fd with inUse := true, ownerUid := (cur.map fun p => p.task.uid).getD 0 })

def vfsFreeFd (s : State) (fd : Nat) : State := s.setSlot fd {}

/-- The protected-path check on the canonical path. -/
def checkProtected (s : State) (cur : Caller) (canonical : Str) : Bool × State :=
  let r := Vfs.checkProtected (s.forget noOps) cur.vfs canonical
  (r.1, { s with denied := r.2.denied, granted := r.2.granted })

/-- The outcomes of what the call does not decide: the allocation of a node in RAMFS, and the open of
the FAT32 driver, which has a table of its own. -/
structure Outcome where
  alloc : Bool
  /-- The handle, or the number of an error. -/
  fat32 : Except Nat Nat

/-- The driver's `open`. -/
def driverOpen (cur : Caller) (x : Outcome) (path : Str) (flags : UInt32) (fs : Ramfs.State) :
    Driver → Except Int Private × Ramfs.State
  | .ramfs => ramfsVfsOpen cur.ramfs x.alloc path flags fs
  | .fat32 =>
    match x.fat32 with
    | .error e => (.error (Int.negSucc e), fs)
    | .ok i => (.ok (.fat32 i), fs)

/-- The fields that are stored when the open has succeeded. -/
def storeInfo (s : State) (fd : Nat) (path : Str) (flags : UInt32) (priv : Private) (d : Driver) :
    State :=
  s.setSlot fd
    { s.fds fd with
      path := path, flags := flags, type := .file, offset := 0, privateData := priv, ops := some d }

def vfsOpen (cur : Caller) (x : Outcome) (path : Str) (flags : UInt32) (s : State) : Int × State :=
  if !s.initialized then (einval, s)
  else if path.length = 0 || maxPath ≤ path.length then (einval, s)
  else
    match vfsAllocFd s cur with
    | .error e => (e, s)
    | .ok (fd, s) =>
      match resolveDrive s.mounts s.drivers path with
      | .error e => (e, vfsFreeFd s fd)
      | .ok (d, rest) =>
        match vfsCanonicalizePath rest maxPath with
        | .error e => (e, vfsFreeFd s fd)
        | .ok canonical =>
          match if flags &&& writeIntent ≠ 0 then checkProtected s cur canonical else (true, s) with
          | (false, s) => (eacces, vfsFreeFd s fd)
          | (true, s) =>
            match driverOpen cur x canonical flags s.fs d with
            | (.error e, fs) => (e, vfsFreeFd (s.setFs fs) fd)
            | (.ok priv, fs) => (fd, storeInfo (s.setFs fs) fd path flags priv d)

end TinyOS.Vfs.Descriptors
