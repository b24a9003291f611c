import TinyOS.Fat32.Disk
import TinyOS.Fat32.Name

/-!
# FAT32: directory entries and directory scans

`find_dir_entry`, `dir_name_exists`, `dir_find_free_slot`, `resolve_parent_dir`,
`flush_dirent` and the table scans over open descriptors. A loop over a cluster
chain takes the iterations `chain_limit` still allows as its first argument.
-/

namespace TinyOS.Fat32

open Lib

/-! ## Entries in a cluster buffer -/

/-- `FAT32_ATTR_DIRECTORY`. -/
def attrDirectory : UInt8 := 0x10
/-- `FAT32_ATTR_ARCHIVE`. -/
def attrArchive : UInt8 := 0x20
/-- `FAT32_ATTR_LONG_NAME`. -/
def attrLongName : UInt8 := 0x0F

/-- The first byte of a slot that ends the directory. -/
def endMark : UInt8 := 0x00
/-- The first byte of a deleted slot. -/
def deletedMark : UInt8 := 0xE5

/-- `entries[i].name[0]`. -/
def entMark (b : Buf) (i : Nat) : UInt8 := b (32 * i)

/-- `entries[i].name`. -/
def entName (b : Buf) (i : Nat) : Str := (List.range 11).map fun j => b (32 * i + j)

/-- `entries[i].attributes`. -/
def entAttr (b : Buf) (i : Nat) : UInt8 := b (32 * i + 11)

/-- `first_cluster_high << 16 | first_cluster_low`. -/
def entFirst (b : Buf) (i : Nat) : Nat :=
  getLe 2 b (32 * i + 20) * 2 ^ 16 + getLe 2 b (32 * i + 26)

/-- `entries[i].file_size`. -/
def entSize (b : Buf) (i : Nat) : Nat := getLe 4 b (32 * i + 28)

/-- `attributes & FAT32_ATTR_DIRECTORY`. -/
def entIsDir (b : Buf) (i : Nat) : Bool := entAttr b i &&& attrDirectory ≠ 0

def isLfnEntry (b : Buf) (i : Nat) : Bool := entAttr b i = attrLongName

/-- The `"."` and `".."` links, as `fat32_rmdir` recognises them. -/
def isDotLink (b : Buf) (i : Nat) : Bool :=
  b (32 * i) = dot &&
    (b (32 * i + 1) = space || (b (32 * i + 1) = dot && b (32 * i + 2) = space))

/-- What the callers of `find_dir_entry` use of the entry it copies out. -/
structure Dirent where
  isDir : Bool
  firstCluster : Nat
  fileSize : Nat

def direntAt (b : Buf) (i : Nat) : Dirent := ⟨entIsDir b i, entFirst b i, entSize b i⟩

/-- Byte `j` of a fresh entry with the given fields, all others zero. -/
def entryByte (name : Str) (attr : UInt8) (first size j : Nat) : UInt8 :=
  if j < 11 then name.getD j 0
  else if j = 11 then attr
  else if 20 ≤ j ∧ j < 22 then UInt8.ofNat (first / 2 ^ 16 / 256 ^ (j - 20))
  else if 26 ≤ j ∧ j < 28 then UInt8.ofNat (first / 256 ^ (j - 26))
  else if 28 ≤ j then UInt8.ofNat (size / 256 ^ (j - 28))
  else 0

/-- `memset` of a slot followed by the stores of `create` and `mkdir`. -/
def putEntry (b : Buf) (i : Nat) (name : Str) (attr : UInt8) (first size : Nat) : Buf := fun k =>
  if 32 * i ≤ k ∧ k < 32 * i + 32 then entryByte name attr first size (k - 32 * i) else b k

/-- The stores of `flush_dirent`. -/
def patchEntry (b : Buf) (i first size : Nat) : Buf := fun k =>
  if k = 32 * i + 11 then b k ||| attrArchive
  else if 32 * i + 20 ≤ k ∧ k < 32 * i + 22 then
    UInt8.ofNat (first / 2 ^ 16 / 256 ^ (k - (32 * i + 20)))
  else if 32 * i + 26 ≤ k ∧ k < 32 * i + 28 then UInt8.ofNat (first / 256 ^ (k - (32 * i + 26)))
  else if 32 * i + 28 ≤ k ∧ k < 32 * i + 32 then UInt8.ofNat (size / 256 ^ (k - (32 * i + 28)))
  else b k

/-- `entries[i].name[0] = 0xE5`. -/
def deleteEntry (b : Buf) (i : Nat) : Buf := fun k => if k = 32 * i then deletedMark else b k

/-! ## Looking a name up -/

/-- How the scan of one cluster ends. -/
inductive Scan where
  | endOfDir
  | found (i : Nat)
  | exhausted
deriving DecidableEq

/-- The entry loop of `find_dir_entry` and `dir_name_exists`: `n` entries from
index `i` on. -/
def scanCluster (b : Buf) (name83 : Str) : Nat → Nat → Scan
  | 0, _ => .exhausted
  | n + 1, i =>
    if entMark b i = endMark then .endOfDir
    else if entMark b i = deletedMark then scanCluster b name83 n (i + 1)
    else if isLfnEntry b i then scanCluster b name83 n (i + 1)
    else if entName b i = name83 then .found i
    else scanCluster b name83 n (i + 1)

/-- The first slot of a cluster that is free or ends the directory. -/
def freeInCluster (b : Buf) : Nat → Nat → Option Nat
  | 0, _ => none
  | n + 1, i =>
    if entMark b i = endMark || entMark b i = deletedMark then some i
    else freeInCluster b n (i + 1)

variable (v : Volume)

def findDirEntryLoop (name83 : Str) : Nat → Nat → FatM (Option (Dirent × Nat × Nat))
  | fuel, cluster => do
    if cluster < fatEoc then
      match fuel with
      | 0 => pure none
      | n + 1 =>
        match ← readCluster v cluster with
        | none => pure none
        | some b =>
          match scanCluster b name83 v.entriesPerCluster 0 with
          | .endOfDir => pure none
          | .found i => pure (some (direntAt b i, cluster, i))
          | .exhausted => do
            let next ← readFatEntry v cluster
            findDirEntryLoop name83 n next
    else pure none

/-- `find_dir_entry`: the entry with its cluster and index, or `none` for `-1`. -/
def findDirEntry (dirCluster : Nat) (name : Str) : FatM (Option (Dirent × Nat × Nat)) :=
  findDirEntryLoop v (filenameTo83 name) v.chainLimit dirCluster

def dirNameExistsLoop (name83 : Str) : Nat → Nat → FatM Int
  | fuel, cluster => do
    if 0 < cluster ∧ cluster < fatEoc then
      match fuel with
      | 0 => pure (-1)
      | n + 1 =>
        match ← readCluster v cluster with
        | none => pure (-1)
        | some b =>
          match scanCluster b name83 v.entriesPerCluster 0 with
          | .endOfDir => pure 0
          | .found _ => pure 1
          | .exhausted => do
            let next ← readFatEntry v cluster
            dirNameExistsLoop name83 n next
    else pure 0

def dirNameExists (dirCluster : Nat) (name83 : Str) : FatM Int :=
  dirNameExistsLoop v name83 v.chainLimit dirCluster

/-! ## Walking a path -/

/-- The component loop of `resolve_parent_dir`. -/
def descend : List Str → Nat → FatM (Option Nat)
  | [], parent => pure (some parent)
  | comp :: rest, parent => do
    match ← findDirEntry v parent comp with
    | none => pure none
    | some (e, _, _) =>
      if !e.isDir then pure none
      else if e.firstCluster = 0 then pure none
      else descend rest e.firstCluster

/-- `resolve_parent_dir`: the parent's cluster and the leaf. Its callers treat
`-1` and `-2` alike. -/
def resolveParentDir (path : Str) : FatM (Option (Nat × Str)) := do
  match parsePath path maxComponents with
  | none => pure none
  | some comps =>
    match comps.getLast? with
    | none => pure none
    | some leaf =>
      match ← descend v comps.dropLast v.rootDirCluster with
      | none => pure none
      | some parent => pure (some (parent, leaf))

/-! ## Finding a slot for a new entry -/

/-- How the search of `dir_find_free_slot` through the chain ends. -/
inductive SlotSearch where
  | error
  | slot (cluster index : Nat) (buffer : Buf)
  | full (last : Nat)

def freeSlotLoop : Nat → Nat → Nat → FatM SlotSearch
  | fuel, cluster, last => do
    if 0 < cluster ∧ cluster < fatEoc then
      match fuel with
      | 0 => pure .error
      | n + 1 =>
        match ← readCluster v cluster with
        | none => pure .error
        | some b =>
          match freeInCluster b v.entriesPerCluster 0 with
          | some i => pure (.slot cluster i b)
          | none => do
            let next ← readFatEntry v cluster
            freeSlotLoop n next cluster
    else pure (.full last)

/-- The zeroed cluster of `dir_find_free_slot` and `fat32_mkdir`. -/
def zeroBuf : Buf := fun _ => 0

/-- `dir_find_free_slot`: the slot, with its cluster loaded. -/
def dirFindFreeSlot (dirCluster : Nat) : FatM (Option (Nat × Nat × Buf)) := do
  match ← freeSlotLoop v v.chainLimit dirCluster dirCluster with
  | .error => pure none
  | .slot cluster i b => pure (some (cluster, i, b))
  | .full last => do
    let grown ← allocateCluster v last
    if grown = 0 then pure none
    else if ← writeCluster v grown zeroBuf then pure (some (grown, 0, zeroBuf))
    else
      let _ ← writeFatEntry v last fatEoc
      let _ ← writeFatEntry v grown fatFree
      pure none

/-! ## Open descriptors and their entries -/

/-- `flush_dirent`; `false` is its `-1`. -/
def flushDirent (i : Nat) : FatM Bool := do
  let f := (← get).files i
  if !f.dirty || f.direntCluster = 0 then pure true
  else
    match ← readCluster v f.direntCluster with
    | none => pure false
    | some b =>
      if v.entriesPerCluster ≤ f.direntIndex then pure false
      else if ← writeCluster v f.direntCluster
          (patchEntry b f.direntIndex f.firstCluster f.fileSize) then
        setFile i { f with dirty := false }
        pure true
      else pure false

def direntIsOpen (s : State) (cluster index : Nat) : Bool :=
  (List.range maxOpenFiles).any fun i =>
    let f := s.files i
    f.inUse && f.direntCluster ≠ 0 && f.direntCluster = cluster && f.direntIndex = index

/-- What `sync_open_siblings` copies into another descriptor of the same entry. -/
def syncSibling (f other : FatFile) (truncated : Bool) : FatFile :=
  { other with
    firstCluster := f.firstCluster
    fileSize := f.fileSize
    dirty := f.dirty
    currentCluster :=
      if truncated then 0
      else if other.currentCluster = 0 then f.firstCluster
      else other.currentCluster
    position := if truncated then 0 else other.position }

def syncOpenSiblings (i : Nat) (truncated : Bool) : FatM Unit :=
  modify fun s =>
    let f := s.files i
    if f.direntCluster = 0 then s
    else
      { s with
        files := fun j =>
          let other := s.files j
          if j ≠ i ∧ j < maxOpenFiles ∧ other.inUse ∧ other.direntCluster = f.direntCluster ∧
              other.direntIndex = f.direntIndex then
            syncSibling f other truncated
          else other }

end TinyOS.Fat32
