import TinyOS.Lib.Bytes

/-!
# FAT32: the boot sector and the geometry it fixes

`fat32_mount` reads the boot sector, which an attacker may have written, and
derives the driver's globals from it. A `Volume` is what a successful mount
leaves behind; its fields state what the checks in `fat32_mount` guarantee, so
that no operation on a `Volume` has to ask again.

* `Volume.fatSector_lt`, `Volume.clusterToSector_eq`: on clusters in range the
  driver's 32-bit sector arithmetic does not wrap.
-/

namespace TinyOS.Fat32

open Lib

/-! ## Constants of `fat32.h` -/

def sectorSize : Nat := 512
def dirEntrySize : Nat := 32
/-- `FAT32_FREE`. -/
def fatFree : Nat := 0
/-- `FAT32_BAD_CLUSTER`. -/
def badCluster : Nat := 0x0FFFFFF7
/-- `FAT32_EOC`. -/
def fatEoc : Nat := 0x0FFFFFF8
/-- `FAT32_MAX_CLUSTER_CHAIN`. -/
def maxClusterChain : Nat := 2000000
/-- `PMM_PAGE_SIZE`, the size of `cluster_buffer`. -/
def pageSize : Nat := 4096

/-! ## The boot sector -/

/-- The fields of `fat32_boot_sector_t` that `fat32_mount` reads. -/
structure BootSector where
  bytesPerSector : Nat
  sectorsPerCluster : Nat
  reservedSectors : Nat
  numFats : Nat
  rootEntryCount : Nat
  totalSectors32 : Nat
  fatSize32 : Nat
  rootCluster : Nat

/-- The packed layout of `fat32_boot_sector_t`. -/
def BootSector.ofBuf (b : Buf) : BootSector where
  bytesPerSector := getLe 2 b 11
  sectorsPerCluster := getLe 1 b 13
  reservedSectors := getLe 2 b 14
  numFats := getLe 1 b 16
  rootEntryCount := getLe 2 b 17
  totalSectors32 := getLe 4 b 32
  fatSize32 := getLe 4 b 36
  rootCluster := getLe 4 b 44

/-! ## The mounted volume -/

/-- The driver's globals after a successful `fat32_mount`. -/
structure Volume where
  /-- `boot_sector.reserved_sectors`, which is also `fat_start_sector`. -/
  reservedSectors : Nat
  numFats : Nat
  fatSize32 : Nat
  totalSectors32 : Nat
  sectorsPerCluster : Nat
  rootDirCluster : Nat
  maxCluster : Nat
  chainLimit : Nat
  numFats_pos : 0 < numFats
  sectors_pos : 0 < sectorsPerCluster
  cluster_fits : sectorsPerCluster * sectorSize ≤ pageSize
  data_inside : reservedSectors + numFats * fatSize32 < totalSectors32
  total_lt : totalSectors32 < 2 ^ 32
  max_ge : 2 ≤ maxCluster
  max_data : maxCluster ≤
    (totalSectors32 - (reservedSectors + numFats * fatSize32)) / sectorsPerCluster + 1
  max_fat : maxCluster < fatSize32 * (sectorSize / 4)
  max_bad : maxCluster < badCluster
  limit_eq : chainLimit = min (maxCluster - 1) maxClusterChain
  root_range : 2 ≤ rootDirCluster ∧ rootDirCluster ≤ maxCluster

/-- `entry_offset`, as a byte offset into the FAT sector. -/
@[irreducible] def fatOffset (cluster : Nat) : Nat := cluster * 4 % 2 ^ 32 % sectorSize / 4 * 4

namespace Volume

/-- `data_start_sector`. -/
def dataStart (v : Volume) : Nat := v.reservedSectors + v.numFats * v.fatSize32

def bytesPerCluster (v : Volume) : Nat := v.sectorsPerCluster * sectorSize

def entriesPerCluster (v : Volume) : Nat := v.bytesPerCluster / dirEntrySize

def clusterInRange (v : Volume) (cluster : Nat) : Bool := 2 ≤ cluster && cluster ≤ v.maxCluster

/-- The last cluster with both a data slot and a FAT entry. -/
def lastCluster (b : BootSector) : Nat :=
  let dataClusters :=
    (b.totalSectors32 - (b.reservedSectors + b.numFats * b.fatSize32)) / b.sectorsPerCluster
  let fatEntries := b.fatSize32 * (sectorSize / 4)
  min (min (dataClusters + 1) (fatEntries - 1)) (badCluster - 1)

/-- Everything `fat32_mount` asks of a boot sector. `diskSectors` is
`ide_get_sector_count()`, 0 when the size is unknown. -/
def Mountable (b : BootSector) (diskSectors : Nat) : Prop :=
  b.bytesPerSector = 512 ∧ b.rootEntryCount = 0 ∧ (b.numFats ≠ 0 ∧ b.fatSize32 ≠ 0) ∧
    b.reservedSectors + b.numFats * b.fatSize32 < b.totalSectors32 ∧
    (diskSectors = 0 ∨ b.totalSectors32 ≤ diskSectors) ∧
    (b.sectorsPerCluster ≠ 0 ∧ b.sectorsPerCluster * sectorSize ≤ pageSize) ∧
    2 ≤ lastCluster b ∧ 2 ≤ b.rootCluster ∧ b.rootCluster ≤ lastCluster b

instance (b : BootSector) (diskSectors : Nat) : Decidable (Mountable b diskSectors) := by
  unfold Mountable
  infer_instance

/-- The volume `fat32_mount` derives from the first sector of the disk. -/
def ofBootSector (sector : Buf) (diskSectors : Nat) : Option Volume :=
  let b := BootSector.ofBuf sector
  if h : Mountable b diskSectors then
    some {
      reservedSectors := b.reservedSectors
      numFats := b.numFats
      fatSize32 := b.fatSize32
      totalSectors32 := b.totalSectors32
      sectorsPerCluster := b.sectorsPerCluster
      rootDirCluster := b.rootCluster
      maxCluster := lastCluster b
      chainLimit := min (lastCluster b - 1) maxClusterChain
      numFats_pos := Nat.pos_of_ne_zero h.2.2.1.1
      sectors_pos := Nat.pos_of_ne_zero h.2.2.2.2.2.1.1
      cluster_fits := h.2.2.2.2.2.1.2
      data_inside := h.2.2.2.1
      total_lt := getLe_lt 4 sector 32
      max_ge := h.2.2.2.2.2.2.1
      max_data := Nat.le_trans (Nat.min_le_left _ _) (Nat.min_le_left _ _)
      max_fat := by
        have hpos : 0 < b.fatSize32 := Nat.pos_of_ne_zero h.2.2.1.2
        have hle : lastCluster b ≤ b.fatSize32 * (sectorSize / 4) - 1 :=
          Nat.le_trans (Nat.min_le_left _ _) (Nat.min_le_right _ _)
        simp only [sectorSize] at hle ⊢
        omega
      max_bad := by
        have hle : lastCluster b ≤ badCluster - 1 := Nat.min_le_right _ _
        simp only [badCluster] at hle ⊢
        omega
      limit_eq := rfl
      root_range := h.2.2.2.2.2.2.2 }
  else none

/-! ## Sector arithmetic -/

variable (v : Volume)

/-- `cluster_to_sector`: 64-bit arithmetic on a 32-bit `cluster - 2`. -/
@[irreducible] def clusterToSector (cluster : Nat) : Nat :=
  let lba := v.dataStart + (cluster + 2 ^ 32 - 2) % 2 ^ 32 * v.sectorsPerCluster
  if 0xFFFFFFFF < lba then 0 else lba

/-- `fat_sector` of `read_fat_entry` and `write_fat_entry`. -/
@[irreducible] def fatSector (cluster : Nat) : Nat :=
  (v.reservedSectors + cluster * 4 % 2 ^ 32 / sectorSize) % 2 ^ 32

variable {v} {cluster : Nat}

theorem clusterInRange_iff :
    v.clusterInRange cluster = true ↔ 2 ≤ cluster ∧ cluster ≤ v.maxCluster := by
  simp [clusterInRange]

theorem dataStart_lt : v.dataStart < v.totalSectors32 := v.data_inside

variable (h : v.clusterInRange cluster = true)

include h

theorem cluster_end_le :
    v.dataStart + (cluster - 2) * v.sectorsPerCluster + v.sectorsPerCluster ≤ v.totalSectors32 := by
  rw [clusterInRange_iff] at h
  have hmax := v.max_data
  have hslots : (v.totalSectors32 - v.dataStart) / v.sectorsPerCluster * v.sectorsPerCluster ≤
      v.totalSectors32 - v.dataStart := Nat.div_mul_le_self _ _
  have hmul : (cluster - 2 + 1) * v.sectorsPerCluster ≤
      (v.totalSectors32 - v.dataStart) / v.sectorsPerCluster * v.sectorsPerCluster := by
    apply Nat.mul_le_mul_right
    simp only [dataStart]
    omega
  rw [Nat.add_mul, Nat.one_mul] at hmul
  have hlt := v.dataStart_lt
  omega

theorem clusterToSector_eq :
    v.clusterToSector cluster = v.dataStart + (cluster - 2) * v.sectorsPerCluster := by
  have hend := cluster_end_le h
  have htotal := v.total_lt
  rw [clusterInRange_iff] at h
  have hbad := v.max_bad
  have hsub : (cluster + 2 ^ 32 - 2) % 2 ^ 32 = cluster - 2 := by
    simp only [badCluster] at hbad
    omega
  simp only [clusterToSector, hsub]
  rw [if_neg]
  omega

theorem fatSector_eq : v.fatSector cluster = v.reservedSectors + cluster * 4 / sectorSize := by
  rw [clusterInRange_iff] at h
  have hbad := v.max_bad
  have hfat := v.max_fat
  have hdata := v.data_inside
  have htotal := v.total_lt
  have hone : v.fatSize32 ≤ v.numFats * v.fatSize32 := Nat.le_mul_of_pos_left _ v.numFats_pos
  simp only [fatSector, badCluster, sectorSize] at hbad hfat ⊢
  omega

theorem fatSector_lt : v.fatSector cluster < v.reservedSectors + v.fatSize32 := by
  rw [fatSector_eq h]
  rw [clusterInRange_iff] at h
  have hfat := v.max_fat
  simp only [sectorSize] at hfat ⊢
  omega

end Volume

end TinyOS.Fat32
