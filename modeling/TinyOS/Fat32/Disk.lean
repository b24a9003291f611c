import TinyOS.Fat32.Volume
import TinyOS.Lib.Within

/-!
# FAT32: driver state, sector I/O, FAT entries and clusters

The bottom of `fat32.c`: `ide_read_sectors` and `ide_write_sectors` as the
driver sees them, `read_fat_entry`, `write_fat_entry`, `find_free_cluster`,
`allocate_cluster`, `read_cluster` and `write_cluster`.

The disk is a function from byte addresses to bytes. `State.faults` scripts the
I/O outcomes: each IDE command takes one item, `none` succeeds and `some n`
fails after `n` sectors; an exhausted script succeeds. Every write command is
appended to `State.writes`, failed ones included. `sector_buffer` and
`cluster_buffer` are passed as values: no function reads one that it, or the
callee it names, has not just filled.
-/

namespace TinyOS.Fat32

open Lib

/-- `FAT32_MAX_OPEN_FILES`. -/
def maxOpenFiles : Nat := 32
/-- `FAT32_USER_MAX_FDS`. -/
def userMaxFds : Nat := 8
/-- `FAT32_ROOT_RESERVED_FDS`. -/
def rootReservedFds : Nat := 4
/-- `FAT32_OPEN_LIMIT`. -/
def openLimit : Int := -11

/-- `fat32_file_t`, without `attributes` and `filename`, which nothing reads. -/
structure FatFile where
  inUse : Bool
  firstCluster : Nat
  currentCluster : Nat
  fileSize : Nat
  position : Nat
  isDirectory : Bool
  direntCluster : Nat
  direntIndex : Nat
  dirty : Bool
  ownerUid : Nat

/-- One `ide_write_sectors` command. -/
structure WriteCmd where
  lba : Nat
  count : Nat
  data : Buf

structure State where
  disk : Buf
  /-- The write commands issued so far, oldest first. -/
  writes : List WriteCmd
  faults : List (Option Nat)
  files : Nat → FatFile
  /-- `rmdir_buffer` has been allocated. -/
  rmdirBuffer : Bool

/-- Computations of the driver. -/
abbrev FatM := StateM State

/-! ## Sector I/O -/

/-- Take the next scripted outcome. -/
def nextFault : FatM (Option Nat) := fun s =>
  match s.faults with
  | [] => (none, s)
  | fault :: faults => (fault, { s with faults := faults })

/-- The `count` sectors from `lba` on, as a buffer. -/
def sectorsAt (disk : Buf) (lba count : Nat) : Buf := fun k =>
  if k < count * sectorSize then disk (lba * sectorSize + k) else 0

/-- `ide_read_sectors`: the bytes read, or `none` on an error. -/
def ideReadSectors (lba count : Nat) : FatM (Option Buf) := do
  match ← nextFault with
  | some _ => pure none
  | none => do
    let s ← get
    pure (some (sectorsAt s.disk lba count))

theorem ideReadSectors_state {lba count : Nat} {s : State} :
    (ideReadSectors lba count s).2 = { s with faults := s.faults.tail } := by
  rcases s with ⟨disk, writes, faults, files, buffer⟩
  rcases faults with _ | ⟨_ | n, faults⟩ <;> rfl

theorem ideReadSectors_data {lba count : Nat} {s : State} {b : Buf}
    (h : (ideReadSectors lba count s).1 = some b) : b = sectorsAt s.disk lba count := by
  simp only [ideReadSectors, bind_run, nextFault] at h
  rcases hf : s.faults with _ | ⟨_ | n, faults⟩ <;> rw [hf] at h <;> cases h
  · rfl
  · rfl

/-- `ide_write_sectors`; `false` on an error. -/
def ideWriteSectors (lba count : Nat) (data : Buf) : FatM Bool := do
  let fault ← nextFault
  let done := match fault with
    | none => count
    | some n => min n count
  modify fun s => { s with
    disk := blit s.disk (lba * sectorSize) (done * sectorSize) data
    writes := s.writes ++ [⟨lba, count, data⟩] }
  pure fault.isNone

/-! ## FAT entries -/

variable (v : Volume)

def readFatEntry (cluster : Nat) : FatM Nat := do
  if v.clusterInRange cluster then
    match ← ideReadSectors (v.fatSector cluster) 1 with
    | none => pure badCluster
    | some sector => pure (getLe 4 sector (fatOffset cluster) % 2 ^ 28)
  else pure badCluster

/-- The FAT sector with one entry replaced, its upper four bits kept. -/
def setFatEntry (sector : Buf) (cluster value : Nat) : Buf :=
  let old := getLe 4 sector (fatOffset cluster)
  putLe 4 sector (fatOffset cluster) (old / 2 ^ 28 * 2 ^ 28 + value % 2 ^ 28)

/-- `write_fat_entry`; `false` is its `-1`. A failure to write the second FAT is
ignored, as in the source. -/
def writeFatEntry (cluster value : Nat) : FatM Bool := do
  if v.clusterInRange cluster then
    match ← ideReadSectors (v.fatSector cluster) 1 with
    | none => pure false
    | some sector => do
      let sector := setFatEntry sector cluster value
      if ← ideWriteSectors (v.fatSector cluster) 1 sector then
        if 1 < v.numFats then
          let _ ← ideWriteSectors ((v.fatSector cluster + v.fatSize32) % 2 ^ 32) 1 sector
          pure true
        else pure true
      else pure false
  else pure false

/-- The scan of `find_free_cluster`; the first argument is what `chain_limit`
still allows. -/
def findFreeLoop : Nat → Nat → FatM Nat
  | 0, _ => pure 0
  | n + 1, cluster => do
    if cluster ≤ v.maxCluster then
      let entry ← readFatEntry v cluster
      if entry = fatFree then pure cluster
      else if entry = badCluster then pure 0
      else findFreeLoop n (cluster + 1)
    else pure 0

/-- `find_free_cluster`: 0 when there is none. -/
def findFreeCluster : FatM Nat := findFreeLoop v v.chainLimit 2

/-- `allocate_cluster`: 0 on failure. -/
def allocateCluster (previous : Nat) : FatM Nat := do
  let new ← findFreeCluster v
  if new = 0 then pure 0
  else if ← writeFatEntry v new fatEoc then
    if previous = 0 then pure new
    else if ← writeFatEntry v previous new then pure new
    else
      let _ ← writeFatEntry v new fatFree
      pure 0
  else pure 0

/-! ## Clusters -/

def readCluster (cluster : Nat) : FatM (Option Buf) := do
  if v.clusterInRange cluster then
    ideReadSectors (v.clusterToSector cluster) v.sectorsPerCluster
  else pure none

/-- `write_cluster`; `false` is its error. -/
def writeCluster (cluster : Nat) (buffer : Buf) : FatM Bool := do
  if v.clusterInRange cluster then
    ideWriteSectors (v.clusterToSector cluster) v.sectorsPerCluster buffer
  else pure false

/-! ## Descriptors -/

def setFile (i : Nat) (f : FatFile) : FatM Unit :=
  modify fun s => { s with files := Function.update s.files i f }

/-- The test every descriptor operation makes first: the table index of `fd`. -/
def fdSlot (s : State) (fd : Int) : Option Nat :=
  if fd < 0 || maxOpenFiles ≤ fd.toNat then none
  else if (s.files fd.toNat).inUse then some fd.toNat
  else none

end TinyOS.Fat32
