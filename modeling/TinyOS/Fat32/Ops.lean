import TinyOS.Fat32.Dir

/-!
# FAT32: the public operations

`fat32_mount` and the operations on a mounted volume: `fat32_open`, `close`,
`read`, `write`, `truncate`, `seek`, `create`, `unlink`, `mkdir`, `rmdir`. An
`Op` is one call; `Op.exec` runs it and `runOps` a sequence of them.

The caller's task is an argument of `open`. Machine words are natural numbers
below `2 ^ 32`; where the source's additions can wrap, the remainder is taken.
-/

namespace TinyOS.Fat32

open Lib

/-- What `fat32_open` reads of the current task. -/
structure Task where
  uid : Nat
  euid : Nat

/-- `(int)` of a `uint32_t`. -/
def toInt32 (n : Nat) : Int := if n < 2 ^ 31 then n else (n : Int) - 2 ^ 32

/-- `fat32_mount`: the volume, or `none` for `-1`. `alloc` is the outcome of
`pmm_alloc` for `cluster_buffer`. -/
def fat32Mount (diskSectors : Nat) (alloc : Bool) : FatM (Option Volume) := do
  match ← ideReadSectors 0 1 with
  | none => pure none
  | some sector =>
    match Volume.ofBootSector sector diskSectors with
    | none => pure none
    | some v => pure (if alloc then some v else none)

variable (v : Volume)

/-! ## open, close -/

/-- The component loop of `fat32_open`. -/
def openWalk : List Str → Nat → FatM (Option (Dirent × Nat × Nat))
  | [], _ => pure none
  | comp :: rest, parent => do
    match ← findDirEntry v parent comp with
    | none => pure none
    | some (e, cluster, index) =>
      if rest = [] then pure (some (e, cluster, index))
      else if !e.isDir then pure none
      else openWalk rest e.firstCluster

/-- The descriptor table as `fat32_open` counts it: the first free slot, the
number of free ones, and how many `uid` holds. -/
def freeFd (s : State) : Option Nat :=
  (List.range maxOpenFiles).find? fun i => !(s.files i).inUse

def availFds (s : State) : Nat := (List.range maxOpenFiles).countP fun i => !(s.files i).inUse

def heldFds (s : State) (uid : Nat) : Nat :=
  (List.range maxOpenFiles).countP fun i => (s.files i).inUse && (s.files i).ownerUid = uid

/-- The per-uid cap and the slots kept for root. -/
def overLimit (s : State) : Option Task → Bool
  | none => false
  | some self =>
    self.euid ≠ 0 && (userMaxFds ≤ heldFds s self.uid || availFds s ≤ rootReservedFds)

/-- The descriptor of the root directory, which has no entry of its own. -/
def rootFile (uid : Nat) : FatFile :=
  ⟨true, v.rootDirCluster, v.rootDirCluster, 0, 0, true, 0, 0, false, uid⟩

/-- The descriptor `fat32_open` fills in for an entry. -/
def openedFile (e : Dirent) (cluster index uid : Nat) : FatFile :=
  ⟨true, e.firstCluster, e.firstCluster, e.fileSize, 0, e.isDir, cluster, index, false, uid⟩

def fat32Open (self : Option Task) (path : Str) : FatM Int := do
  let s ← get
  let uid := (self.map Task.uid).getD 0
  match freeFd s with
  | none => pure (-1)
  | some fd =>
    if overLimit s self then pure openLimit
    else
      match parsePath path maxComponents with
      | none => pure (-1)
      | some [] => do
        setFile fd (rootFile v uid)
        pure fd
      | some comps =>
        match ← openWalk v comps v.rootDirCluster with
        | none => pure (-1)
        | some (e, cluster, index) => do
          setFile fd (openedFile e cluster index uid)
          pure fd

def fat32Close (fd : Int) : FatM Int := do
  match fdSlot (← get) fd with
  | none => pure (-1)
  | some i => do
    let flushed ← flushDirent v i
    let f := (← get).files i
    setFile i { f with inUse := false }
    pure (if flushed then 0 else -1)

/-! ## read -/

/-- The cluster the next byte is read from; `none` where the chain ends early. -/
def readTarget (f : FatFile) : FatM (Option Nat) := do
  if 0 < f.position ∧ f.position % v.bytesPerCluster = 0 then
    let next ← readFatEntry v f.currentCluster
    pure (if next < 2 ∨ badCluster ≤ next then none else some next)
  else pure (some f.currentCluster)

/-- The loop of `fat32_read`: `out` are the bytes copied so far. `false` is a
failed `read_cluster`. Running into `chain_limit` and running off the chain are
reported alike by the caller. -/
def readLoop (size : Nat) : Nat → FatFile → List UInt8 → FatM (Bool × FatFile × List UInt8)
  | fuel, f, out => do
    if out.length < size ∧ f.currentCluster < fatEoc then
      match fuel with
      | 0 => pure (true, f, out)
      | n + 1 =>
        match ← readTarget v f with
        | none => pure (true, f, out)
        | some cluster =>
          match ← readCluster v cluster with
          | none => pure (false, f, out)
          | some b =>
            let offset := f.position % v.bytesPerCluster
            let count := min (v.bytesPerCluster - offset) (size - out.length)
            readLoop size n
              { f with
                currentCluster := cluster
                position := (f.position + count) % 2 ^ 32 }
              (out ++ (List.range count).map fun k => b (offset + k))
    else pure (true, f, out)

/-- The `size` `fat32_read` works with: its end-of-file test adds in 32 bits. -/
def clampSize (f : FatFile) (size : UInt32) : Nat :=
  if f.fileSize < (f.position + size.toNat) % 2 ^ 32 then f.fileSize - f.position else size.toNat

/-- `fat32_read`: the result and the bytes copied to the caller. -/
def fat32Read (fd : Int) (size : UInt32) : FatM (Int × List UInt8) := do
  match fdSlot (← get) fd with
  | none => pure (-1, [])
  | some i => do
    let f := (← get).files i
    if f.isDirectory then pure (-1, [])
    else if f.fileSize ≤ f.position then pure (0, [])
    else do
      let size := clampSize f size
      let (ok, f, out) ← readLoop v size v.chainLimit f []
      setFile i f
      if !ok then pure (-1, out)
      else if out.length = 0 ∧ 0 < size then pure (-1, out)
      else pure (toInt32 out.length, out)

/-! ## write, truncate, seek -/

/-- The cluster the next byte is written to, extending the chain at its end;
`none` is one of the loop's `break`s. -/
def writeTarget (f : FatFile) : FatM (Option Nat) := do
  if 0 < f.position ∧ f.position % v.bytesPerCluster = 0 then
    let next ← readFatEntry v f.currentCluster
    if next = badCluster then pure none
    else if fatEoc ≤ next then
      let new ← allocateCluster v f.currentCluster
      pure (if new = 0 then none else some new)
    else pure (if next < 2 then none else some next)
  else pure (some f.currentCluster)

/-- The descriptor after `count` bytes went to `cluster`. -/
def advanced (f : FatFile) (cluster count : Nat) : FatFile :=
  let position := (f.position + count) % 2 ^ 32
  if f.fileSize < position then
    { f with currentCluster := cluster, position := position, fileSize := position, dirty := true }
  else { f with currentCluster := cluster, position := position }

/-- The loop of `fat32_write`: `written` bytes of `buf` are stored so far. -/
def writeLoop (buf : Buf) (size : Nat) : Nat → FatFile → Nat → FatM (FatFile × Nat)
  | fuel, f, written => do
    if written < size then
      match fuel with
      | 0 => pure (f, written)
      | n + 1 =>
        match ← writeTarget v f with
        | none => pure (f, written)
        | some cluster =>
          match ← readCluster v cluster with
          | none => pure (f, written)
          | some b =>
            let offset := f.position % v.bytesPerCluster
            let count := min (v.bytesPerCluster - offset) (size - written)
            if ← writeCluster v cluster
                (blit b offset count fun k => buf (written + k)) then
              writeLoop buf size n (advanced f cluster count) (written + count)
            else pure (f, written)
    else pure (f, written)

/-- The part of `fat32_write` that gives an empty file its first cluster. -/
def firstClusterFor (f : FatFile) : FatM (Option FatFile) := do
  if f.firstCluster = 0 then
    let first ← allocateCluster v 0
    pure (if first = 0 then none
      else some { f with firstCluster := first, currentCluster := first, dirty := true })
  else pure (some f)

def fat32Write (fd : Int) (buf : Buf) (size : UInt32) : FatM Int := do
  match fdSlot (← get) fd with
  | none => pure (-1)
  | some i => do
    let f := (← get).files i
    if f.isDirectory then pure (-1)
    else if size = 0 then pure 0
    else
      match ← firstClusterFor v f with
      | none => pure (-1)
      | some f => do
        setFile i f
        if f.currentCluster < 2 ∨ fatEoc ≤ f.currentCluster then pure (-1)
        else do
          let (f, written) ← writeLoop v buf size.toNat v.chainLimit f 0
          setFile i f
          let _ ← flushDirent v i
          syncOpenSiblings i false
          pure (if written = 0 then -1 else toInt32 written)

/-- The freeing loop of `fat32_truncate`; `false` when `chain_limit` stops it. -/
def truncateLoop : Nat → Nat → FatM Bool
  | fuel, cluster => do
    if 2 ≤ cluster ∧ cluster < fatEoc then
      match fuel with
      | 0 => pure false
      | n + 1 => do
        let next ← readFatEntry v cluster
        if next = badCluster then pure true
        else do
          let _ ← writeFatEntry v cluster fatFree
          truncateLoop n next
    else pure true

def fat32Truncate (fd : Int) : FatM Int := do
  match fdSlot (← get) fd with
  | none => pure (-1)
  | some i => do
    let f := (← get).files i
    if f.isDirectory then pure (-1)
    else if ← truncateLoop v v.chainLimit f.firstCluster then
      setFile i { f with
        firstCluster := 0, currentCluster := 0, fileSize := 0, position := 0, dirty := true }
      let flushed ← flushDirent v i
      syncOpenSiblings i true
      pure (if flushed then 0 else -1)
    else pure (-1)

/-- The loop of `fat32_seek`: `skip` clusters to go, `fuel` allowed by
`chain_limit`; where it ended and whether it got there. -/
def seekLoop : Nat → Nat → Nat → FatM (Nat × Bool)
  | 0, _, cluster => pure (cluster, true)
  | _ + 1, 0, cluster => pure (cluster, false)
  | skip + 1, fuel + 1, cluster => do
    let next ← readFatEntry v cluster
    if fatEoc ≤ next then pure (next, false) else seekLoop skip fuel next

def clustersToSkip (offset : Nat) : Nat :=
  if 0 < offset / v.bytesPerCluster ∧ offset % v.bytesPerCluster = 0 then
    offset / v.bytesPerCluster - 1
  else offset / v.bytesPerCluster

def fat32Seek (fd : Int) (offset : UInt32) : FatM Int := do
  match fdSlot (← get) fd with
  | none => pure (-1)
  | some i => do
    let f := (← get).files i
    let offset := min offset.toNat f.fileSize
    let f := { f with position := 0, currentCluster := f.firstCluster }
    if f.firstCluster = 0 then
      setFile i f
      pure (if offset = 0 then 0 else -1)
    else do
      let (cluster, ok) ← seekLoop v (clustersToSkip v offset) v.chainLimit f.firstCluster
      if ok then
        setFile i { f with currentCluster := cluster, position := offset }
        pure 0
      else
        setFile i { f with currentCluster := cluster }
        pure (-1)

/-! ## create, unlink, mkdir, rmdir -/

def fat32Create (path : Str) : FatM Int := do
  match ← resolveParentDir v path with
  | none => pure (-1)
  | some (parent, leaf) => do
    let name83 := filenameTo83 leaf
    let known ← dirNameExists v parent name83
    if known ≠ 0 then pure (-1)
    else
      match ← dirFindFreeSlot v parent with
      | none => pure (-1)
      | some (cluster, index, b) =>
        if ← writeCluster v cluster (putEntry b index name83 attrArchive 0 0) then pure 0
        else pure (-1)

/-- The freeing loop of `fat32_unlink` and `fat32_rmdir`. -/
def freeChainLoop : Nat → Nat → FatM Bool
  | fuel, cluster => do
    if 0 < cluster ∧ cluster < fatEoc then
      match fuel with
      | 0 => pure false
      | n + 1 => do
        let next ← readFatEntry v cluster
        let _ ← writeFatEntry v cluster fatFree
        freeChainLoop n next
    else pure true

/-- What `fat32_unlink` and `fat32_rmdir` end with: the entry is marked deleted,
then its chain is freed. -/
def removeEntry (e : Dirent) (cluster index : Nat) : FatM Int := do
  match ← readCluster v cluster with
  | none => pure (-1)
  | some b =>
    if ← writeCluster v cluster (deleteEntry b index) then
      if ← freeChainLoop v v.chainLimit e.firstCluster then pure 0 else pure (-1)
    else pure (-1)

def fat32Unlink (path : Str) : FatM Int := do
  match ← resolveParentDir v path with
  | none => pure (-1)
  | some (parent, leaf) =>
    match ← findDirEntry v parent leaf with
    | none => pure (-1)
    | some (e, cluster, index) =>
      if e.isDir then pure (-2)
      else if direntIsOpen (← get) cluster index then pure (-3)
      else removeEntry v e cluster index

/-- The name of the `"."` link. -/
def dotName : Str := dot :: List.replicate 10 space
/-- The name of the `".."` link. -/
def dotDotName : Str := dot :: dot :: List.replicate 9 space

/-- The first cluster of a new directory. -/
def newDirBuf (new dotdot : Nat) : Buf :=
  putEntry (putEntry zeroBuf 0 dotName attrDirectory new 0) 1 dotDotName attrDirectory dotdot 0

def fat32Mkdir (path : Str) : FatM Int := do
  match ← resolveParentDir v path with
  | none => pure (-1)
  | some (parent, leaf) => do
    let name83 := filenameTo83 leaf
    let known ← dirNameExists v parent name83
    if known < 0 then pure (-1)
    else if 0 < known then pure (-2)
    else do
      let new ← allocateCluster v 0
      if new = 0 then pure (-1)
      else
        let dotdot := if parent = v.rootDirCluster then 0 else parent
        if ← writeCluster v new (newDirBuf new dotdot) then
          match ← dirFindFreeSlot v parent with
          | none => do
            let _ ← writeFatEntry v new fatFree
            pure (-1)
          | some (cluster, index, b) =>
            if ← writeCluster v cluster (putEntry b index name83 attrDirectory new 0) then
              pure 0
            else do
              let _ ← writeFatEntry v new fatFree
              pure (-1)
        else do
          let _ ← writeFatEntry v new fatFree
          pure (-1)

/-- The emptiness test of `fat32_rmdir` on one cluster. -/
def emptyCluster (b : Buf) : Nat → Nat → Bool
  | 0, _ => true
  | n + 1, i =>
    if entMark b i = endMark then true
    else if entMark b i = deletedMark then emptyCluster b n (i + 1)
    else if isDotLink b i then emptyCluster b n (i + 1)
    else false

/-- The emptiness scan over a directory's chain: `0` when it is empty, else the
error `fat32_rmdir` returns. -/
def emptyLoop : Nat → Nat → FatM Int
  | fuel, cluster => do
    if 0 < cluster ∧ cluster < fatEoc then
      match fuel with
      | 0 => pure (-1)
      | n + 1 =>
        match ← readCluster v cluster with
        | none => pure (-1)
        | some b =>
          if emptyCluster b v.entriesPerCluster 0 then do
            let next ← readFatEntry v cluster
            emptyLoop n next
          else pure (-3)
    else pure 0

/-- The emptiness check of `fat32_rmdir`; `alloc` is `pmm_alloc`'s answer when
`rmdir_buffer` is not there yet. -/
def checkEmpty (dirCluster : Nat) (alloc : Bool) : FatM Int := do
  if dirCluster = 0 then pure 0
  else if (← get).rmdirBuffer || alloc then do
    modify fun s => { s with rmdirBuffer := true }
    emptyLoop v v.chainLimit dirCluster
  else pure (-1)

/-- `fat32_rmdir`'s own busy test, by first cluster. -/
def firstClusterIsOpen (s : State) (cluster : Nat) : Bool :=
  (List.range maxOpenFiles).any fun i =>
    (s.files i).inUse && cluster ≠ 0 && (s.files i).firstCluster = cluster

def fat32Rmdir (path : Str) (alloc : Bool) : FatM Int := do
  match ← resolveParentDir v path with
  | none => pure (-1)
  | some (parent, leaf) =>
    if leaf = [dot] ∨ leaf = [dot, dot] then pure (-1)
    else
      match ← findDirEntry v parent leaf with
      | none => pure (-1)
      | some (e, cluster, index) =>
        if !e.isDir then pure (-2)
        else if firstClusterIsOpen (← get) e.firstCluster then pure (-4)
        else do
          let empty ← checkEmpty v e.firstCluster alloc
          if empty ≠ 0 then pure empty
          else removeEntry v e cluster index

/-! ## Calls -/

/-- A path argument: a C string has no NUL inside. -/
structure CString where
  bytes : Str
  noNul : 0 ∉ bytes

/-- One call of the driver. -/
inductive Op where
  | create (path : CString)
  | open (self : Option Task) (path : CString)
  | close (fd : Int)
  | read (fd : Int) (size : UInt32)
  | write (fd : Int) (buf : Buf) (size : UInt32)
  | truncate (fd : Int)
  | seek (fd : Int) (offset : UInt32)
  | unlink (path : CString)
  | mkdir (path : CString)
  | rmdir (path : CString) (alloc : Bool)

/-- A call's result, with the bytes a read delivered. -/
structure Reply where
  ret : Int
  bytes : List UInt8

/-- The reply of a call that delivers no bytes. -/
def plain (m : FatM Int) : FatM Reply := do
  let ret ← m
  pure ⟨ret, []⟩

def Op.exec : Op → FatM Reply
  | .create path => plain (fat32Create v path.bytes)
  | .open self path => plain (fat32Open v self path.bytes)
  | .close fd => plain (fat32Close v fd)
  | .read fd size => do
    let (ret, bytes) ← fat32Read v fd size
    pure ⟨ret, bytes⟩
  | .write fd buf size => plain (fat32Write v fd buf size)
  | .truncate fd => plain (fat32Truncate v fd)
  | .seek fd offset => plain (fat32Seek v fd offset)
  | .unlink path => plain (fat32Unlink v path.bytes)
  | .mkdir path => plain (fat32Mkdir v path.bytes)
  | .rmdir path alloc => plain (fat32Rmdir v path.bytes alloc)

/-- The state after a sequence of calls. -/
def runOps : List Op → State → State
  | [], s => s
  | op :: ops, s => runOps ops (op.exec v s).2

end TinyOS.Fat32
