import TinyOS.Ramfs.Path

/-!
# RAMFS: the operations

`ramfs.c` and the directory half of `ramfs_vfs.c`, function by function. An
operation takes the calling task, its arguments and the state, and returns the
C return value with the new state. `pmm_alloc` is scripted: an operation that
may allocate takes the outcome of its allocations as an argument.

`ramfs_open` is cut at its locks: `ramfs_find`, `openCreate` (the second
`ramfs_mutex` section), `openCheck` (no lock held) and `openClaim` (interrupts
off). `ramfsOpen` runs them in order.
-/

namespace TinyOS.Ramfs

/-! ## Walking the tree -/

/-- A walk down a sibling list for `name`. `fuel` bounds the children looked at:
`RAMFS_MAX_FILES` in `ramfs_lookup_locked`, no bound in `walk_to_parent`. -/
def findChild (s : State) (name : Str) : Nat → Option NodeId → Option NodeId
  | _, none => none
  | 0, some _ => none
  | fuel + 1, some child =>
    if (s.node child).name = name then some child
    else findChild s name fuel (s.node child).next

/-- Enough fuel for a loop the source leaves unbounded: more than there are nodes. -/
def scanFuel (s : State) : Nat := s.nextId

/-- `WALK_NOT_DIR`, `WALK_NOT_FOUND`, `WALK_DENIED`, or the parent found. -/
inductive Walk where
  | notDir
  | notFound
  | denied
  | ok (parent : NodeId)
deriving DecidableEq, Repr

/-- The loop of `walk_to_parent` over the components before the last. -/
def walkLoop (cur : Caller) (s : State) : List Str → NodeId → Walk
  | [], parent => if maySearch cur s parent then .ok parent else .denied
  | c :: components, parent =>
    if !maySearch cur s parent then .denied
    else match findChild s c (scanFuel s) (s.node parent).children with
      | none => .notFound
      | some child =>
        if hiddenFromCaller cur s child then .notFound
        else if (s.node child).type ≠ .dir then .notDir
        else walkLoop cur s components child

/-- `walk_to_parent`: the directory that will hold the last component. -/
def walkToParent (cur : Caller) (s : State) (root : NodeId) (components : List Str) : Walk :=
  walkLoop cur s components.dropLast root

/-- The traversal loop of `ramfs_lookup_locked`. -/
def lookupLoop (cur : Caller) (s : State) (hide : Bool) : List Str → NodeId → Option NodeId
  | [], current => some current
  | c :: components, current =>
    if (s.node current).type ≠ .dir then none
    else if !maySearch cur s current then none
    else match findChild s c maxFiles (s.node current).children with
      | none => none
      | some child =>
        if hide && hiddenFromCaller cur s child then none
        else lookupLoop cur s hide components child

def ramfsLookupLocked (cur : Caller) (s : State) (path : Option Str) (hide : Bool) :
    Option NodeId :=
  match s.root, path with
  | some root, some path =>
    if path = [slash] then some root
    else match splitPath path 16 with
      | none => none
      | some components => lookupLoop cur s hide components root
  | _, _ => none

/-- `ramfs_find_locked`, and `ramfs_find` around it: hidden names are absent. -/
def ramfsFind (cur : Caller) (s : State) (path : Option Str) : Option NodeId :=
  ramfsLookupLocked cur s path true

/-- `ramfs_find_any_locked`: whether the name is taken, hidden or not. -/
def ramfsFindAny (cur : Caller) (s : State) (path : Option Str) : Option NodeId :=
  ramfsLookupLocked cur s path false

/-! ## Allocation and removal -/

/-- The node `alloc_node` builds. -/
def newNode (name : Str) (type : NodeType) (uid gid : Nat) : Node where
  name := name.take (maxName - 1)
  type := type
  size := 0
  mode := if type = .dir then defaultDirMode else defaultFileMode
  uid := uid
  gid := gid
  childCount := 0
  dataPages := fun _ => none
  parent := none
  children := none
  next := none

/-- `alloc_node`; `alloc` is the outcome of its `pmm_alloc`. -/
def allocNode (alloc : Bool) (name : Str) (type : NodeType) (uid gid : Nat) (s : State) :
    Option NodeId × State :=
  if s.totalNodes ≥ maxFiles then (none, s)
  else if !alloc then (none, s)
  else (some s.nextId, { s with
    node := Function.update s.node s.nextId (newNode name type uid gid)
    live := insert s.nextId s.live
    nextId := s.nextId + 1
    totalNodes := s.totalNodes + 1 })

/-- Push `id` on `parent`'s child list: the four assignments after `alloc_node`. -/
def linkChild (s : State) (parent id : NodeId) : State :=
  let s := s.modify id fun n => { n with parent := some parent, next := (s.node parent).children }
  s.modify parent fun n => { n with children := some id, childCount := n.childCount + 1 }

def freeNode (s : State) (p : NodeId) : State :=
  let s := s.modify p fun n => { n with dataPages := fun _ => none }
  { s with live := s.live.erase p, totalNodes := s.totalNodes - 1 }

/-- `ramfs_vfs_node_busy`: a live directory handle references the node. -/
def ramfsVfsNodeBusy (s : State) (p : NodeId) : Bool :=
  (List.range 64).any fun i =>
    (s.handles i).inUse && (s.handles i).isDir && (s.handles i).dirNode == some p

def ramfsNodeIsBusy (s : State) (p : NodeId) : Bool :=
  ((List.range maxFds).any fun i => (s.fds i).inUse && (s.fds i).node == some p) ||
    (s.busyHook && ramfsVfsNodeBusy s p)

/-- The search for the predecessor in `unlink`/`rmdir`: `none` when the bound
of `RAMFS_MAX_FILES` steps is passed, `some none` when the list ends. -/
def findPrev (s : State) (node : NodeId) : Nat → Option NodeId → Option (Option NodeId)
  | _, none => some none
  | 0, some prev => if (s.node prev).next = some node then some (some prev) else none
  | fuel + 1, some prev =>
    if (s.node prev).next = some node then some (some prev)
    else findPrev s node fuel (s.node prev).next

/-- Take `node` off its parent's child list, `none` on a corrupted list. -/
def unlinkChild (s : State) (parent node : NodeId) : Option State :=
  if (s.node parent).children = some node then
    some (s.modify parent fun n => { n with children := (s.node node).next })
  else match findPrev s node maxFiles (s.node parent).children with
    | none => none
    | some none => some s
    | some (some prev) => some (s.modify prev fun n => { n with next := (s.node node).next })

/-- The tail `ramfs_unlink` and `ramfs_rmdir` share: list surgery, counter,
`free_node`. -/
def removeNode (s : State) (parent node : NodeId) : Option State :=
  match unlinkChild s parent node with
  | none => none
  | some s =>
    let s := s.modify parent fun n => { n with childCount := n.childCount - 1 }
    some (freeNode s node)

/-! ## Initialisation -/

/-- The zeroed `.bss` before `ramfs_init`. -/
def State.boot : State where
  root := none
  node := fun _ => newNode [] .file 0 0
  live := ∅
  nextId := 0
  totalNodes := 0
  fds := fun _ => Fd.free
  handles := fun _ => Handle.free
  busyHook := false

/-- `ramfs_init`, with the outcome of the root directory's allocation. -/
def ramfsInit (alloc : Bool) : State :=
  match allocNode alloc [slash] .dir 0 0 State.boot with
  | (none, s) => s
  | (some root, s) =>
    { s.modify root (fun n => { n with mode := 0o711 }) with
      root := some root
      fds := fun _ => Fd.free }

/-! ## Directories -/

def ramfsMkdir (cur : Caller) (path : Option Str) (alloc : Bool) (s : State) : Int × State :=
  match path, s.root with
  | some p, some root =>
    if (ramfsFind cur s path).isSome then (-2, s)
    else match splitPath p 16 with
      | none => (-7, s)
      | some components =>
        match components.getLast? with
        | none => (-1, s)
        | some name =>
          match walkToParent cur s root components with
          | .notDir => (-3, s)
          | .notFound => (-4, s)
          | .denied => (-5, s)
          | .ok parent =>
            if !permits cur (s.node parent) flagWrite then (-5, s)
            else if (ramfsFindAny cur s path).isSome then (-2, s)
            else if (s.node parent).childCount ≥ maxChildrenPerDir then (-9, s)
            else match allocNode alloc name .dir cur.uid cur.gid s with
              | (none, s) => (-6, s)
              | (some id, s) => (0, linkChild s parent id)
  | _, _ => (-1, s)

def ramfsRmdir (cur : Caller) (path : Option Str) (s : State) : Int × State :=
  match ramfsFind cur s path with
  | none => (-1, s)
  | some node =>
    if s.root = some node then (-1, s)
    else if (s.node node).type ≠ .dir then (-2, s)
    -- emptiness is tested before the permission on the parent
    else if (s.node node).children ≠ none then (-3, s)
    else match (s.node node).parent with
      | none => (-4, s)
      | some parent =>
        if !permits cur (s.node parent) flagWrite then (-5, s)
        else if ramfsNodeIsBusy s node then (ramfsBusy, s)
        else match removeNode s parent node with
          | none => (-6, s)
          | some s => (0, s)

def ramfsUnlink (cur : Caller) (path : Option Str) (s : State) : Int × State :=
  match ramfsFind cur s path with
  | none => (-1, s)
  | some node =>
    if s.root = some node then (-1, s)
    else if (s.node node).type ≠ .file then (-2, s)
    else match (s.node node).parent with
      | none => (-3, s)
      | some parent =>
        if !permits cur (s.node parent) flagWrite then (-4, s)
        else if ramfsNodeIsBusy s node then (ramfsBusy, s)
        else match removeNode s parent node with
          | none => (-5, s)
          | some s => (0, s)

def ramfsRename (cur : Caller) (oldPath newPath : Option Str) (s : State) : Int × State :=
  match oldPath, newPath, s.root with
  | some _, some np, some root =>
    match ramfsFind cur s oldPath with
    | none => (-1, s)
    | some oldNode =>
      if s.root = some oldNode then (-1, s)
      else if (ramfsFind cur s newPath).isSome then (-2, s)
      else match (s.node oldNode).parent with
        | none => (-3, s)
        | some parent =>
          if !permits cur (s.node parent) flagWrite then (-4, s)
          else match splitPath np 16 with
            | none => (-3, s)
            | some components =>
              match components.getLast? with
              | none => (-3, s)
              | some name =>
                match walkToParent cur s root components with
                | .denied => (-4, s)
                | .ok newParent =>
                  if newParent ≠ parent then (-3, s)
                  else if (ramfsFindAny cur s newPath).isSome then (-2, s)
                  else (0, s.modify oldNode fun n => { n with name := name })
                | _ => (-3, s)
  -- without a root the source lookup already fails
  | some _, some _, none => (-1, s)
  | _, _, _ => (-3, s)

/-- What `ramfs_chmod` does with the node it found, no lock held any more. -/
def chmodNode (cur : Caller) (node : NodeId) (mode : Nat) (s : State) : Int × State :=
  if cur.uid ≠ 0 ∧ cur.uid ≠ (s.node node).uid then (chmodEperm, s)
  else (0, s.modify node fun n => { n with mode := mode &&& permMask })

def ramfsChmod (cur : Caller) (path : Option Str) (mode : Nat) (s : State) : Int × State :=
  match ramfsFind cur s path with
  | none => (-1, s)
  | some node => chmodNode cur node mode s

/-- The child list as the listing loops walk it. -/
def childList (s : State) : Nat → Option NodeId → List NodeId
  | _, none => []
  | 0, some _ => []
  | fuel + 1, some c => c :: childList s fuel (s.node c).next

/-- `ramfs_list`: the count or error, the node named, and the entries copied. -/
def ramfsList (cur : Caller) (path : Option Str) (max : Nat) (s : State) :
    Int × Option (NodeId × List NodeId) :=
  match ramfsFind cur s path with
  | none => (-1, none)
  | some node =>
    if !permits cur (s.node node) flagRead then (-2, none)
    else
      let entries := if (s.node node).type = .dir
        then childList s max (s.node node).children else []
      (entries.length, some (node, entries))

/-! ## Opening -/

def ramfsPickFd (self : Caller) (s : State) : Int :=
  let slots := List.range maxFds
  match slots.find? (fun i => !(s.fds i).inUse) with
  | none => -2
  | some fd =>
    match self with
    | none => fd
    | some t =>
      let avail := slots.countP fun i => !(s.fds i).inUse
      let mine := slots.countP fun i => (s.fds i).inUse &&
        (s.fds i).ownerPid == t.pid && (s.fds i).ownerGeneration == t.generation
      let uidHeld := slots.countP fun i => (s.fds i).inUse && (s.fds i).ownerUid == t.uid
      if mine ≥ processMaxFds then emfile
      else if t.euid ≠ 0 ∧ (uidHeld ≥ userMaxFds ∨ avail ≤ rootReservedFds) then openLimit
      else fd

/-- The create section of `ramfs_open`, under `ramfs_mutex`: the node found
after all or made, or the error returned. -/
def openCreate (cur : Caller) (path : Option Str) (alloc : Bool) (s : State) :
    Except Int NodeId × State :=
  match path, s.root with
  | some p, some root =>
    match ramfsFind cur s path with
    | some node => (.ok node, s)
    | none =>
      match splitPath p 16 with
      | none => (.error (-8), s)
      | some components =>
        match components.getLast? with
        | none => (.error (-1), s)
        | some name =>
          match walkToParent cur s root components with
          | .denied => (.error createEperm, s)
          | .ok parent =>
            if (s.node parent).childCount ≥ maxChildrenPerDir then (.error (-9), s)
            else if !permits cur (s.node parent) flagWrite then (.error createEperm, s)
            else if (ramfsFindAny cur s path).isSome then (.error (-7), s)
            else match allocNode alloc name .file cur.uid cur.gid s with
              | (none, s) => (.error (-5), s)
              | (some id, s) => (.ok id, linkChild s parent id)
          | _ => (.error (-4), s)
  | _, _ => (.error (-1), s)

/-- The checks of `ramfs_open` on the node it holds, with no lock: 0 or the error. -/
def openCheck (cur : Caller) (node : NodeId) (flags : Nat) (s : State) : Int :=
  if flags &&& flagNofollow ≠ 0 ∧ (s.node node).type = .symlink then -8
  else if (s.node node).type ≠ .file then -6
  else if !permits cur (s.node node) flags then -7
  else 0

/-- The descriptor `ramfs_open` fills in. -/
def openedFd (cur : Caller) (node : NodeId) (flags : Nat) : Fd where
  node := some node
  pos := 0
  flags := flags
  inUse := true
  refs := 1
  closeOnExec := flags &&& flagInherit = 0
  ownerPid := cur.elim 0 Task.pid
  ownerGeneration := cur.elim 0 Task.generation
  ownerUid := cur.elim 0 Task.uid

/-- The critical section of `ramfs_open` that picks and claims the slot. -/
def openClaim (cur : Caller) (node : NodeId) (flags : Nat) (s : State) : Int × State :=
  let fd := ramfsPickFd cur s
  if fd < 0 then (fd, s) else (fd, s.setFd fd.toNat (openedFd cur node flags))

/-- What `ramfs_open` does once it holds a node. -/
def openNode (cur : Caller) (node : NodeId) (flags : Nat) (s : State) : Int × State :=
  if openCheck cur node flags s ≠ 0 then (openCheck cur node flags s, s)
  else openClaim cur node flags s

def ramfsOpen (cur : Caller) (path : Option Str) (flags : Nat) (alloc : Bool) (s : State) :
    Int × State :=
  if path = none ∨ s.root = none then (-1, s)
  -- the early, advisory test: nothing is claimed here
  else if ramfsPickFd cur s < 0 then (ramfsPickFd cur s, s)
  else match ramfsFind cur s path with
    | some node => openNode cur node flags s
    | none =>
      if flags &&& flagWrite ≠ 0 then
        match openCreate cur path alloc s with
        | (.error e, s) => (e, s)
        | (.ok node, s) => openNode cur node flags s
      else (-3, s)

/-! ## Descriptors -/

/-- The descriptor an fd number names: in range and in use. -/
def fdSlot (s : State) (fd : Int) : Option Nat :=
  if 0 ≤ fd ∧ fd < maxFds ∧ (s.fds fd.toNat).inUse then some fd.toNat else none

/-- The byte at `off`, `none` where no page backs it. -/
def pageByte (n : Node) (off : Nat) : Option UInt8 :=
  if off / pageSize ≥ maxPages then none
  else (n.dataPages (off / pageSize)).map fun page => page (off % pageSize)

/-- The copy loop of `ramfs_read`: it stops at the first byte with no page. -/
def readLoop (n : Node) (off : Nat) : Nat → List UInt8
  | 0 => []
  | k + 1 =>
    match pageByte n off with
    | none => []
    | some b => b :: readLoop n (off + 1) k

/-- `ramfs_read`: return value, bytes stored in the buffer, new state. -/
def ramfsRead (fd : Int) (count : Nat) (s : State) : Int × List UInt8 × State :=
  match fdSlot s fd with
  | none => (-1, [], s)
  | some i =>
    if (s.fds i).flags &&& flagRead = 0 then (-2, [], s)
    else match (s.fds i).node with
      | none => (-3, [], s)
      | some node =>
        let pos := (s.fds i).pos
        if pos ≥ (s.node node).size then (0, [], s)
        else
          let available := (s.node node).size - pos
          let copied := readLoop (s.node node) pos (min count available)
          if copied.length = 0 then (-5, [], s)
          else (copied.length, copied,
            s.setFd i { s.fds i with pos := pos + copied.length })

/-- A data page straight from the allocator, cleared. -/
def zeroPage : Page := fun _ => 0

/-- Store one byte in a page. -/
def storeByte (n : Node) (off : Nat) (page : Page) (b : UInt8) : Node :=
  { n with
    dataPages := Function.update n.dataPages (off / pageSize)
      (some (Function.update page (off % pageSize) b)) }

/-- The store loop of `ramfs_write`. `allocs k` is the outcome of the call's
`k`-th `pmm_alloc`; the result is the node and the number of bytes stored. -/
def writeLoop (allocs : Nat → Bool) : List UInt8 → Nat → Nat → Node → Node × Nat
  | [], _, _, n => (n, 0)
  | b :: src, off, k, n =>
    if off / pageSize ≥ maxPages then (n, 0)
    else match n.dataPages (off / pageSize) with
      | some page =>
        let r := writeLoop allocs src (off + 1) k (storeByte n off page b)
        (r.1, r.2 + 1)
      | none =>
        if allocs k then
          let r := writeLoop allocs src (off + 1) (k + 1) (storeByte n off zeroPage b)
          (r.1, r.2 + 1)
        else (n, 0)

/-- The file after a write at `pos`, and the number of bytes stored: the store
loop, then the size update. -/
def writeNode (allocs : Nat → Bool) (src : List UInt8) (pos : Nat) (n : Node) : Node × Nat :=
  let r := writeLoop allocs src pos 0 n
  ({ r.1 with size := max r.1.size (pos + r.2) }, r.2)

def ramfsWrite (fd : Int) (buf : List UInt8) (allocs : Nat → Bool) (s : State) : Int × State :=
  match fdSlot s fd with
  | none => (-1, s)
  | some i =>
    if (s.fds i).flags &&& flagWrite = 0 then (-2, s)
    else match (s.fds i).node with
      | none => (-3, s)
      | some node =>
        let pos := (s.fds i).pos
        if pos ≥ maxData then (if buf.length > 0 then writeEfbig else 0, s)
        else
          let r := writeNode allocs (buf.take (maxData - pos)) pos (s.node node)
          (r.2, (s.modify node fun _ => r.1).setFd i { s.fds i with pos := pos + r.2 })

def ramfsTruncate (fd : Int) (s : State) : Int × State :=
  match fdSlot s fd with
  | none => (-1, s)
  | some i =>
    if (s.fds i).flags &&& flagWrite = 0 then (-13, s)
    else match (s.fds i).node with
      | none => (-3, s)
      | some node =>
        if (s.node node).type ≠ .file then (-21, s)
        else
          -- the pages are kept and zeroed
          let s' := s.modify node fun n =>
            { n with size := 0, dataPages := fun k => (n.dataPages k).map fun _ => zeroPage }
          (0, s'.setFd i { s.fds i with pos := 0 })

def ramfsSeek (fd : Int) (offset : Nat) (s : State) : Int × State :=
  match fdSlot s fd with
  | none => (-1, s)
  | some i =>
    match (s.fds i).node with
    | none => (-3, s)
    | some node =>
      let offset := min offset (s.node node).size
      (offset, s.setFd i { s.fds i with pos := offset })

def ramfsFdRef (fd : Int) (s : State) : Int × State :=
  match fdSlot s fd with
  | none => (-1, s)
  | some i =>
    if (s.fds i).refs < 255 then (0, s.setFd i { s.fds i with refs := (s.fds i).refs + 1 })
    else (-1, s)

def ramfsClose (fd : Int) (s : State) : State :=
  match fdSlot s fd with
  | none => s
  | some i =>
    if (s.fds i).refs > 1 then s.setFd i { s.fds i with refs := (s.fds i).refs - 1 }
    -- the last holder lets go; `close_on_exec` is the one field left as it was
    else s.setFd i { Fd.free with closeOnExec := (s.fds i).closeOnExec }

/-! ## The VFS driver's directory handles and metadata -/

def vfsEnoent : Int := -2
def vfsEnomem : Int := -12
def vfsEacces : Int := -13
def vfsEnotdir : Int := -20
def vfsEinval : Int := -22

/-- `ramfs_alloc_handle`: the first free slot of the pool. -/
def ramfsAllocHandle (s : State) : Option Nat :=
  (List.range 64).find? fun i => !(s.handles i).inUse

/-- The checks of `ramfs_vfs_open` with `VFS_O_DIRECTORY` on the node found. -/
def opendirCheck (cur : Caller) (dir : NodeId) (s : State) : Int :=
  if (s.node dir).type ≠ .dir then vfsEinval
  else if !permits cur (s.node dir) flagRead then vfsEacces
  else 0

/-- The handle claim of `ramfs_vfs_open` with `VFS_O_DIRECTORY`. -/
def opendirClaim (dir : NodeId) (s : State) : Int × State :=
  match ramfsAllocHandle s with
  | none => (vfsEnomem, s)
  | some i => (0, s.setHandle i
      { ramfsFd := -1, inUse := true, isDir := true, dirNode := some dir, dirPos := 0 })

/-- `ramfs_vfs_open` with `VFS_O_DIRECTORY`. -/
def ramfsVfsOpendir (cur : Caller) (path : Option Str) (s : State) : Int × State :=
  match ramfsFind cur s path with
  | none => (vfsEnoent, s)
  | some dir =>
    if opendirCheck cur dir s ≠ 0 then (opendirCheck cur dir s, s)
    else opendirClaim dir s

/-- `ramfs_vfs_close` on a directory handle: `ramfs_free_handle`. -/
def ramfsVfsClosedir (i : Nat) (s : State) : State :=
  if (s.handles i).isDir then s.setHandle i { Handle.free with ramfsFd := -1 } else s

/-- What `ramfs_vfs_stat` reports. -/
structure Stat where
  size : Nat
  mode : Nat
  isDir : Bool
deriving DecidableEq, Repr

def ramfsVfsStat (cur : Caller) (path : Option Str) (s : State) : Int × Option Stat :=
  match path with
  | none => (vfsEinval, none)
  | some _ =>
    match ramfsFind cur s path with
    | none => (vfsEnoent, none)
    | some node =>
      if !permits cur (s.node node) flagRead then (vfsEacces, none)
      else
        let isDir := (s.node node).type == .dir
        (0, some { size := if isDir then 0 else (s.node node).size
                   mode := (s.node node).mode
                   isDir := isDir })

def ramfsVfsAccessDir (cur : Caller) (path : Option Str) (s : State) : Int :=
  match path with
  | none => vfsEinval
  | some _ =>
    match ramfsFind cur s path with
    | none => vfsEnoent
    | some node =>
      if (s.node node).type ≠ .dir then vfsEnotdir
      else if !permits cur (s.node node) flagExec then vfsEacces
      else 0

/-! ## The operations as one system -/

/-- The calls that can change the state, with their arguments and the outcomes
of the allocations they make. -/
inductive Op where
  | mkdir (path : Option Str) (alloc : Bool)
  | rmdir (path : Option Str)
  | unlink (path : Option Str)
  | rename (oldPath newPath : Option Str)
  | chmod (path : Option Str) (mode : Nat)
  | open (path : Option Str) (flags : Nat) (alloc : Bool)
  | read (fd : Int) (count : Nat)
  | write (fd : Int) (buf : List UInt8) (allocs : Nat → Bool)
  | truncate (fd : Int)
  | seek (fd : Int) (offset : Nat)
  | fdRef (fd : Int)
  | close (fd : Int)
  | opendir (path : Option Str)
  | closedir (handle : Nat)

/-- The descriptor an operation names. -/
def Op.fd : Op → Option Int
  | .read fd _ | .write fd _ _ | .truncate fd | .seek fd _ | .fdRef fd | .close fd => some fd
  | _ => none

/-- A call and the task that makes it. -/
structure Call where
  cur : Caller
  op : Op

/-- What a call gives back: its return value and, for a read, the bytes. -/
structure Reply where
  ret : Int
  bytes : List UInt8
deriving DecidableEq

/-- Run one call. -/
def Call.exec (c : Call) (s : State) : Reply × State :=
  match c.op with
  | .mkdir path alloc => let r := ramfsMkdir c.cur path alloc s; (⟨r.1, []⟩, r.2)
  | .rmdir path => let r := ramfsRmdir c.cur path s; (⟨r.1, []⟩, r.2)
  | .unlink path => let r := ramfsUnlink c.cur path s; (⟨r.1, []⟩, r.2)
  | .rename oldPath newPath => let r := ramfsRename c.cur oldPath newPath s; (⟨r.1, []⟩, r.2)
  | .chmod path mode => let r := ramfsChmod c.cur path mode s; (⟨r.1, []⟩, r.2)
  | .open path flags alloc => let r := ramfsOpen c.cur path flags alloc s; (⟨r.1, []⟩, r.2)
  | .read fd count => let r := ramfsRead fd count s; (⟨r.1, r.2.1⟩, r.2.2)
  | .write fd buf allocs => let r := ramfsWrite fd buf allocs s; (⟨r.1, []⟩, r.2)
  | .truncate fd => let r := ramfsTruncate fd s; (⟨r.1, []⟩, r.2)
  | .seek fd offset => let r := ramfsSeek fd offset s; (⟨r.1, []⟩, r.2)
  | .fdRef fd => let r := ramfsFdRef fd s; (⟨r.1, []⟩, r.2)
  | .close fd => (⟨0, []⟩, ramfsClose fd s)
  | .opendir path => let r := ramfsVfsOpendir c.cur path s; (⟨r.1, []⟩, r.2)
  | .closedir handle => (⟨0, []⟩, ramfsVfsClosedir handle s)

/-- Run a sequence of calls. -/
def runCalls (s : State) (calls : List Call) : State :=
  calls.foldl (fun s c => (c.exec s).2) s

end TinyOS.Ramfs
