import TinyOS.Fat32.Reads

/-!
# FAT32: where the driver writes

Every byte of the volume may be hostile, and I/O may fail at any point; the only
facts to rely on are the ones a mount establishes. Each write command goes
through `write_fat_entry` or `write_cluster`, which check the cluster number, so
every operation only appends placed commands (`Op.exec_appends`) and every run
does (`runOps_appends`).

The boot sector is safe on volumes with a reserved region. `fat32_mount` does
not ask for one: with `reserved_sectors = 0` the first FAT starts at LBA 0, and
allocating a cluster overwrites the boot sector.
-/

namespace TinyOS.Fat32

open Lib

/-! ## Placed commands -/

/-- A sector of one of the FATs. -/
def InFat (v : Volume) (lba : Nat) : Prop :=
  v.reservedSectors ≤ lba ∧ lba < v.reservedSectors + v.numFats * v.fatSize32

/-- A sector of the data region. -/
def InData (v : Volume) (lba : Nat) : Prop := v.dataStart ≤ lba ∧ lba < v.totalSectors32

/-- Every sector of the command lies in a FAT or in the data region. -/
def WriteCmd.Placed (v : Volume) (cmd : WriteCmd) : Prop :=
  ∀ lba, cmd.lba ≤ lba → lba < cmd.lba + cmd.count → InFat v lba ∨ InData v lba

/-- The step from `s` to `t` only issued placed commands. -/
def Appends (v : Volume) (s t : State) : Prop :=
  ∃ cmds, t.writes = s.writes ++ cmds ∧ ∀ cmd ∈ cmds, cmd.Placed v

variable {v : Volume}

instance : Std.Refl (Appends v) where
  refl s := ⟨[], by simp, by simp⟩

instance : IsTrans State (Appends v) where
  trans s t u := by
    rintro ⟨cs, hcs, hp⟩ ⟨ds, hds, hq⟩
    refine ⟨cs ++ ds, by rw [hds, hcs, List.append_assoc], ?_⟩
    intro cmd hcmd
    rcases List.mem_append.mp hcmd with h | h
    · exact hp cmd h
    · exact hq cmd h

theorem Appends.of_eq {s t : State} (h : t.writes = s.writes) : Appends v s t :=
  ⟨[], by simp [h], by simp⟩

/-! ## Sector I/O -/

theorem nextFault_within : Within (Appends v) nextFault := by
  intro s
  simp only [nextFault]
  split <;> exact .of_eq rfl

instance : ReadStep (Appends v) where
  read lba count := by
    refine nextFault_within.bind fun fault => ?_
    cases fault with
    | some n => exact .pure _
    | none => exact Within.get.bind fun s => .pure _

theorem ideWriteSectors_within {lba count : Nat} {data : Buf}
    (h : WriteCmd.Placed v ⟨lba, count, data⟩) :
    Within (Appends v) (ideWriteSectors lba count data) := by
  refine nextFault_within.bind fun fault => ?_
  refine Within.bind (.modify fun s => ?_) fun _ => .pure _
  refine ⟨[⟨lba, count, data⟩], rfl, ?_⟩
  intro cmd hcmd
  rw [List.mem_singleton] at hcmd
  subst hcmd
  exact h

variable {cluster : Nat}

theorem placed_fat {data : Buf} (h : v.clusterInRange cluster = true) :
    WriteCmd.Placed v ⟨v.fatSector cluster, 1, data⟩ := by
  intro lba hle hlt
  have hsector := Volume.fatSector_lt h
  have hone : v.fatSize32 ≤ v.numFats * v.fatSize32 := Nat.le_mul_of_pos_left _ v.numFats_pos
  rw [Volume.fatSector_eq h] at hle hlt hsector
  simp only [sectorSize] at hle hlt hsector
  left
  constructor <;> omega

theorem placed_fat2 {data : Buf} (h : v.clusterInRange cluster = true) (htwo : 1 < v.numFats) :
    WriteCmd.Placed v ⟨(v.fatSector cluster + v.fatSize32) % 2 ^ 32, 1, data⟩ := by
  intro lba hle hlt
  have hsector := Volume.fatSector_lt h
  have htwice : 2 * v.fatSize32 ≤ v.numFats * v.fatSize32 := Nat.mul_le_mul_right _ htwo
  have hdata := v.data_inside
  have htotal := v.total_lt
  rw [Volume.fatSector_eq h] at hle hlt hsector
  have hmod : (v.reservedSectors + cluster * 4 / sectorSize + v.fatSize32) % 2 ^ 32 =
      v.reservedSectors + cluster * 4 / sectorSize + v.fatSize32 := Nat.mod_eq_of_lt (by omega)
  rw [hmod] at hle hlt
  simp only [sectorSize] at hle hlt hsector
  left
  constructor <;> omega

theorem placed_cluster {data : Buf} (h : v.clusterInRange cluster = true) :
    WriteCmd.Placed v ⟨v.clusterToSector cluster, v.sectorsPerCluster, data⟩ := by
  intro lba hle hlt
  have hend := Volume.cluster_end_le h
  rw [Volume.clusterToSector_eq h] at hle hlt
  simp only [] at hle hlt
  right
  constructor <;> omega

/-! ## FAT entries and clusters -/

theorem writeFatEntry_within {value : Nat} :
    Within (Appends v) (writeFatEntry v cluster value) := by
  unfold writeFatEntry
  split
  swap
  · exact .pure _
  rename_i hrange
  refine (ReadStep.read _ _).bindSome (.pure _) fun sector => ?_
  refine (ideWriteSectors_within (placed_fat hrange)).bind fun ok => .ite ?_ (.pure _)
  split
  · rename_i htwo
    exact (ideWriteSectors_within (placed_fat2 hrange htwo)).bind fun _ => .pure _
  · exact .pure _

theorem allocateCluster_within {previous : Nat} :
    Within (Appends v) (allocateCluster v previous) := by
  refine findFreeLoop_within.bind fun new => .ite (.pure _) ?_
  refine writeFatEntry_within.bind fun ok => .ite (.ite (.pure _) ?_) (.pure _)
  refine writeFatEntry_within.bind fun ok => .ite (.pure _) ?_
  exact writeFatEntry_within.bind fun _ => .pure _

theorem writeCluster_within {b : Buf} : Within (Appends v) (writeCluster v cluster b) := by
  unfold writeCluster
  split
  · rename_i hrange
    exact ideWriteSectors_within (placed_cluster hrange)
  · exact .pure _

variable {i : Nat}

theorem setFile_within {f : FatFile} : Within (Appends v) (setFile i f) :=
  .modify fun _ => .of_eq rfl

/-! ## Directory scans -/

theorem dirFindFreeSlot_within : Within (Appends v) (dirFindFreeSlot v cluster) := by
  refine freeSlotLoop_within.bind fun search => ?_
  cases search with
  | error => exact .pure _
  | slot cluster i b => exact .pure _
  | full last =>
    refine allocateCluster_within.bind fun grown => .ite (.pure _) ?_
    refine writeCluster_within.bind fun ok => .ite (.pure _) ?_
    exact writeFatEntry_within.bind fun _ => writeFatEntry_within.bind fun _ => .pure _

theorem flushDirent_within : Within (Appends v) (flushDirent v i) := by
  refine Within.get.bind fun s => .ite (.pure _) ?_
  refine readCluster_within.bindSome (.pure _) fun b => ?_
  refine .ite (.pure _) (writeCluster_within.bind fun ok => .ite ?_ (.pure _))
  exact setFile_within.bind fun _ => .pure _

theorem syncOpenSiblings_within {truncated : Bool} :
    Within (Appends v) (syncOpenSiblings i truncated) := by
  refine .modify fun s => .of_eq ?_
  dsimp only
  split <;> rfl

/-! ## Operations -/

theorem fat32Open_within {self : Option Task} {path : Str} :
    Within (Appends v) (fat32Open v self path) := by
  refine Within.get.bind fun s => ?_
  split
  · exact .pure _
  refine .ite (.pure _) ?_
  split
  · exact .pure _
  · exact setFile_within.bind fun _ => .pure _
  · refine openWalk_within.bindSome (.pure _) fun e => ?_
    exact setFile_within.bind fun _ => .pure _

theorem fat32Close_within {fd : Int} : Within (Appends v) (fat32Close v fd) := by
  refine Within.get.bind fun s => ?_
  split
  · exact .pure _
  · refine flushDirent_within.bind fun ok => Within.get.bind fun t => ?_
    exact setFile_within.bind fun _ => .pure _

theorem fat32Read_within {fd : Int} {size : UInt32} :
    Within (Appends v) (fat32Read v fd size) := by
  refine Within.get.bind fun s => ?_
  split
  · exact .pure _
  refine Within.get.bind fun t => .ite (.pure _) (.ite (.pure _) ?_)
  refine readLoop_within.bind fun r => setFile_within.bind fun _ => ?_
  exact .ite (.pure _) (.ite (.pure _) (.pure _))

theorem writeTarget_within {f : FatFile} : Within (Appends v) (writeTarget v f) := by
  refine .ite (readFatEntry_within.bind fun next => .ite (.pure _) ?_) (.pure _)
  exact .ite (allocateCluster_within.bind fun _ => .pure _) (.pure _)

variable {n : Nat}

theorem writeLoop_within {buf : Buf} {size written : Nat} {f : FatFile} :
    Within (Appends v) (writeLoop v buf size n f written) := by
  induction n generalizing f written with
  | zero =>
    exact .ite (.pure _) (.pure _)
  | succ n ih =>
    refine .ite (writeTarget_within.bindSome (.pure _) fun cluster => ?_) (.pure _)
    refine readCluster_within.bindSome (.pure _) fun b => ?_
    exact writeCluster_within.bind fun ok => .ite ih (.pure _)

theorem firstClusterFor_within {f : FatFile} : Within (Appends v) (firstClusterFor v f) :=
  .ite (allocateCluster_within.bind fun _ => .pure _) (.pure _)

theorem fat32Write_within {fd : Int} {buf : Buf} {size : UInt32} :
    Within (Appends v) (fat32Write v fd buf size) := by
  refine Within.get.bind fun s => ?_
  split
  · exact .pure _
  refine Within.get.bind fun t => .ite (.pure _) (.ite (.pure _) ?_)
  refine firstClusterFor_within.bindSome (.pure _) fun f => ?_
  refine setFile_within.bind fun _ => .ite (.pure _) ?_
  refine writeLoop_within.bind fun r => setFile_within.bind fun _ => ?_
  exact flushDirent_within.bind fun _ => syncOpenSiblings_within.bind fun _ => .pure _

theorem truncateLoop_within : Within (Appends v) (truncateLoop v n cluster) := by
  induction n generalizing cluster with
  | zero =>
    exact .ite (.pure _) (.pure _)
  | succ n ih =>
    refine .ite (readFatEntry_within.bind fun next => .ite (.pure _) ?_) (.pure _)
    exact writeFatEntry_within.bind fun _ => ih

theorem fat32Truncate_within {fd : Int} : Within (Appends v) (fat32Truncate v fd) := by
  refine Within.get.bind fun s => ?_
  split
  · exact .pure _
  refine Within.get.bind fun t => .ite (.pure _) ?_
  refine truncateLoop_within.bind fun ok => .ite (setFile_within.bind fun _ => ?_) (.pure _)
  exact flushDirent_within.bind fun _ => syncOpenSiblings_within.bind fun _ => .pure _

theorem fat32Seek_within {fd : Int} {offset : UInt32} :
    Within (Appends v) (fat32Seek v fd offset) := by
  refine Within.get.bind fun s => ?_
  split
  · exact .pure _
  refine Within.get.bind fun t => .ite (setFile_within.bind fun _ => .pure _) ?_
  refine seekLoop_within.bind fun r => .ite ?_ ?_
  · exact setFile_within.bind fun _ => .pure _
  · exact setFile_within.bind fun _ => .pure _

theorem fat32Create_within {path : Str} : Within (Appends v) (fat32Create v path) := by
  refine resolveParentDir_within.bindSome (.pure _) fun p => ?_
  refine dirNameExists_within.bind fun known => .ite (.pure _) ?_
  refine dirFindFreeSlot_within.bindSome (.pure _) fun slot => ?_
  exact writeCluster_within.bind fun ok => .ite (.pure _) (.pure _)

theorem freeChainLoop_within : Within (Appends v) (freeChainLoop v n cluster) := by
  induction n generalizing cluster with
  | zero =>
    exact .ite (.pure _) (.pure _)
  | succ n ih =>
    refine .ite (readFatEntry_within.bind fun next => ?_) (.pure _)
    exact writeFatEntry_within.bind fun _ => ih

theorem removeEntry_within {e : Dirent} {index : Nat} :
    Within (Appends v) (removeEntry v e cluster index) := by
  refine readCluster_within.bindSome (.pure _) fun b => ?_
  refine writeCluster_within.bind fun ok => .ite ?_ (.pure _)
  exact freeChainLoop_within.bind fun ok => .ite (.pure _) (.pure _)

theorem fat32Unlink_within {path : Str} : Within (Appends v) (fat32Unlink v path) := by
  refine resolveParentDir_within.bindSome (.pure _) fun p => ?_
  refine findDirEntry_within.bindSome (.pure _) fun e => ?_
  refine .ite (.pure _) (Within.get.bind fun s => .ite (.pure _) removeEntry_within)

theorem fat32Mkdir_within {path : Str} : Within (Appends v) (fat32Mkdir v path) := by
  refine resolveParentDir_within.bindSome (.pure _) fun p => ?_
  refine dirNameExists_within.bind fun known => .ite (.pure _) (.ite (.pure _) ?_)
  refine allocateCluster_within.bind fun new => .ite (.pure _) ?_
  have hundo : Within (Appends v) (do
      let _ ← writeFatEntry v new fatFree
      pure (-1 : Int)) := writeFatEntry_within.bind fun _ => .pure _
  refine writeCluster_within.bind fun ok => .ite ?_ hundo
  refine dirFindFreeSlot_within.bindSome hundo fun slot => ?_
  exact writeCluster_within.bind fun ok => .ite (.pure _) hundo

theorem checkEmpty_within {alloc : Bool} : Within (Appends v) (checkEmpty v cluster alloc) := by
  refine .ite (.pure _) (Within.get.bind fun s => .ite ?_ (.pure _))
  exact Within.bind (.modify fun s => .of_eq rfl) fun _ => emptyLoop_within

theorem fat32Rmdir_within {path : Str} {alloc : Bool} :
    Within (Appends v) (fat32Rmdir v path alloc) := by
  refine resolveParentDir_within.bindSome (.pure _) fun p => ?_
  refine .ite (.pure _) (findDirEntry_within.bindSome (.pure _) fun e => ?_)
  refine .ite (.pure _) (Within.get.bind fun s => .ite (.pure _) ?_)
  exact checkEmpty_within.bind fun r => .ite (.pure _) removeEntry_within

/-- Every operation, on every volume and under every I/O outcome, issues placed
commands only. -/
theorem Op.exec_appends (op : Op) : Within (Appends v) (op.exec v) := by
  cases op with
  | create path => exact fat32Create_within.bind fun _ => .pure _
  | «open» self path => exact fat32Open_within.bind fun _ => .pure _
  | close fd => exact fat32Close_within.bind fun _ => .pure _
  | read fd size => exact fat32Read_within.bind fun _ => .pure _
  | write fd buf size => exact fat32Write_within.bind fun _ => .pure _
  | truncate fd => exact fat32Truncate_within.bind fun _ => .pure _
  | seek fd offset => exact fat32Seek_within.bind fun _ => .pure _
  | unlink path => exact fat32Unlink_within.bind fun _ => .pure _
  | mkdir path => exact fat32Mkdir_within.bind fun _ => .pure _
  | rmdir path alloc => exact fat32Rmdir_within.bind fun _ => .pure _

theorem runOps_appends (ops : List Op) (s : State) : Appends v s (runOps v ops s) := by
  induction ops generalizing s with
  | nil => exact Std.Refl.refl s
  | cons op ops ih => exact IsTrans.trans _ _ _ (op.exec_appends s) (ih _)

/-! ## Runs from a mount -/

/-- What the driver's writes must satisfy on the volume `v`. -/
structure WritesSafe (v : Volume) (writes : List WriteCmd) : Prop where
  placed : ∀ cmd ∈ writes, cmd.Placed v
  disjoint : ∀ lba, ¬ (InFat v lba ∧ InData v lba)
  boot : ∀ cmd ∈ writes, ∀ lba, cmd.lba ≤ lba → lba < cmd.lba + cmd.count → lba ≠ 0

theorem inFat_inData_disjoint (lba : Nat) : ¬ (InFat v lba ∧ InData v lba) := by
  rintro ⟨⟨-, hfat⟩, ⟨hdata, -⟩⟩
  simp only [Volume.dataStart] at hdata
  omega

/-- A placed command misses LBA 0 when there is a reserved region. -/
theorem WriteCmd.Placed.ne_zero {cmd : WriteCmd} (h : cmd.Placed v) (hres : v.reservedSectors ≠ 0)
    (lba : Nat) (hle : cmd.lba ≤ lba) (hlt : lba < cmd.lba + cmd.count) : lba ≠ 0 := by
  rcases h lba hle hlt with ⟨hfat, -⟩ | ⟨hdata, -⟩
  · omega
  · simp only [Volume.dataStart] at hdata
    omega

variable {diskSectors : Nat}

theorem fat32Mount_state {alloc : Bool} {s : State} :
    (fat32Mount diskSectors alloc s).2 = { s with faults := s.faults.tail } := by
  have hread : (ideReadSectors 0 1 s).2 = { s with faults := s.faults.tail } := ideReadSectors_state
  rw [← hread]
  simp only [fat32Mount, bind_run]
  cases (ideReadSectors 0 1 s).1 with
  | none => rfl
  | some sector =>
    dsimp only
    cases Volume.ofBootSector sector diskSectors <;> rfl

/-- A mounted volume is the one the boot sector of the image describes. -/
theorem fat32Mount_volume {alloc : Bool} {s : State}
    (h : (fat32Mount diskSectors alloc s).1 = some v) :
    Volume.ofBootSector (sectorsAt s.disk 0 1) diskSectors = some v := by
  simp only [fat32Mount, bind_run] at h
  cases hread : (ideReadSectors 0 1 s).1 with
  | none =>
    rw [hread] at h
    cases h
  | some sector =>
    rw [hread] at h
    rw [← ideReadSectors_data hread]
    dsimp only at h
    cases hboot : Volume.ofBootSector sector diskSectors with
    | none =>
      rw [hboot] at h
      cases h
    | some w =>
      rw [hboot] at h
      simp only [pure_run] at h
      split at h
      · exact h
      · cases h

theorem ofBootSector_reserved {disk : Buf}
    (h : Volume.ofBootSector (sectorsAt disk 0 1) diskSectors = some v) :
    v.reservedSectors = (BootSector.ofBuf disk).reservedSectors := by
  simp only [Volume.ofBootSector] at h
  split at h
  · cases h
    apply getLe_congr
    intro j hj
    rw [sectorsAt, if_pos (by simp only [sectorSize]; omega), Nat.zero_mul, Nat.zero_add]
  · cases h

/-- On every image that mounts with a reserved region, every run of the driver
writes into the FATs and the data region only, and never to the boot sector. -/
theorem runOps_writes_safe (s : State) (diskSectors : Nat) (alloc : Bool) (ops : List Op)
    (hfresh : s.writes = []) (hmount : (fat32Mount diskSectors alloc s).1 = some v)
    (hres : (BootSector.ofBuf s.disk).reservedSectors ≠ 0) :
    WritesSafe v (runOps v ops (fat32Mount diskSectors alloc s).2).writes := by
  rcases runOps_appends (v := v) ops (fat32Mount diskSectors alloc s).2 with ⟨cmds, hcmds, hplaced⟩
  have hnone : (fat32Mount diskSectors alloc s).2.writes = [] := by
    rw [fat32Mount_state]
    exact hfresh
  rw [hnone, List.nil_append] at hcmds
  rw [← ofBootSector_reserved (fat32Mount_volume hmount)] at hres
  rw [hcmds]
  exact ⟨hplaced, inFat_inData_disjoint, fun cmd hcmd => (hplaced cmd hcmd).ne_zero hres⟩

/-- The state `fat32_init` leaves, with the given disk. -/
def freshState (disk : Buf) : State where
  disk := disk
  writes := []
  faults := []
  files := fun _ => ⟨false, 0, 0, 0, 0, false, 0, 0, false, 0⟩
  rmdirBuffer := false

/-- A boot sector with one reserved sector in front of a one-sector FAT, and
clusters of one sector. -/
def reservedImage : Buf := fun k =>
  if k = 12 then 2 else if k = 13 then 1 else if k = 14 then 1 else if k = 16 then 1
  else if k = 32 then 7 else if k = 36 then 1 else if k = 44 then 2 else 0

theorem runOps_writes_safe_mkdir :
    (BootSector.ofBuf reservedImage).reservedSectors ≠ 0 ∧
      ∃ v, (fat32Mount 0 true (freshState reservedImage)).1 = some v ∧
        WritesSafe v (runOps v [.mkdir ⟨[47, 65], by decide⟩]
          (fat32Mount 0 true (freshState reservedImage)).2).writes := by
  refine ⟨by decide, ?_⟩
  have hmounts : (fat32Mount 0 true (freshState reservedImage)).1.isSome = true := by
    decide +kernel
  rcases Option.isSome_iff_exists.mp hmounts with ⟨v, hv⟩
  exact ⟨v, hv, runOps_writes_safe _ 0 true _ rfl hv (by decide)⟩

/-- The same volume without a reserved sector: the FAT starts in the boot sector
itself, whose byte 8 makes the entry of the root cluster non-free. -/
def noReserveImage : Buf := fun k =>
  if k = 8 then 0xFF else if k = 12 then 2 else if k = 13 then 1 else if k = 16 then 1
  else if k = 32 then 6 else if k = 36 then 1 else if k = 44 then 2 else 0

/-- LBA 0 is among the sectors `mkdir("/A")` writes there. -/
def bootOverwritten : Bool :=
  match fat32Mount 0 true (freshState noReserveImage) with
  | (none, _) => false
  | (some v, s) => (runOps v [.mkdir ⟨[47, 65], by decide⟩] s).writes.any fun cmd =>
      cmd.lba = 0 && 0 < cmd.count

theorem boot_sector_overwritten :
    ∃ v, (fat32Mount 0 true (freshState noReserveImage)).1 = some v ∧
      ¬ WritesSafe v (runOps v [.mkdir ⟨[47, 65], by decide⟩]
        (fat32Mount 0 true (freshState noReserveImage)).2).writes := by
  have hrun : bootOverwritten = true := by decide +kernel
  simp only [bootOverwritten] at hrun
  split at hrun
  · cases hrun
  rename_i v s hmount
  rw [hmount]
  refine ⟨v, rfl, fun hsafe => ?_⟩
  rcases List.any_eq_true.mp hrun with ⟨cmd, hcmd, hzero⟩
  simp only [Bool.and_eq_true, decide_eq_true_eq] at hzero
  exact hsafe.boot cmd hcmd 0 (by omega) (by omega) rfl

end TinyOS.Fat32
