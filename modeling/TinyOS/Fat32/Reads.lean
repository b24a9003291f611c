import TinyOS.Fat32.Ops

/-!
# FAT32: functions that only read

A relation that every sector read stays within holds of every function built
from reads. The two uses are the relation of issuing no stray write and the
relation of changing nothing at all while I/O succeeds (`Still`).
-/

namespace TinyOS.Fat32

open Lib

/-- Sector reads are steps of `R`. -/
class ReadStep (R : State → State → Prop) : Prop where
  read : ∀ lba count, Within R (ideReadSectors lba count)

section

variable {v : Volume} {R : State → State → Prop} [Std.Refl R] [IsTrans State R] [ReadStep R]

variable {cluster : Nat}

theorem readFatEntry_within : Within R (readFatEntry v cluster) := by
  refine .ite ?_ (.pure _)
  refine (ReadStep.read _ _).bind fun sector => ?_
  cases sector <;> exact .pure _

variable {n : Nat}

theorem findFreeLoop_within : Within R (findFreeLoop v n cluster) := by
  induction n generalizing cluster with
  | zero => exact .pure _
  | succ n ih =>
    refine .ite (readFatEntry_within.bind fun entry => ?_) (.pure _)
    exact .ite (.pure _) (.ite (.pure _) ih)

omit [IsTrans State R] in
theorem readCluster_within : Within R (readCluster v cluster) :=
  .ite (ReadStep.read _ _) (.pure _)

theorem findDirEntryLoop_within {name83 : Str} :
    Within R (findDirEntryLoop v name83 n cluster) := by
  induction n generalizing cluster with
  | zero =>
    exact .ite (.pure _) (.pure _)
  | succ n ih =>
    refine .ite (readCluster_within.bindSome (.pure _) fun b => ?_) (.pure _)
    dsimp only
    split
    · exact .pure _
    · exact .pure _
    · exact readFatEntry_within.bind fun next => ih

theorem findDirEntry_within {name : Str} :
    Within R (findDirEntry v cluster name) := findDirEntryLoop_within

theorem dirNameExists_within {name83 : Str} : Within R (dirNameExistsLoop v name83 n cluster) := by
  induction n generalizing cluster with
  | zero =>
    exact .ite (.pure _) (.pure _)
  | succ n ih =>
    refine .ite (readCluster_within.bindSome (.pure _) fun b => ?_) (.pure _)
    dsimp only
    split
    · exact .pure _
    · exact .pure _
    · exact readFatEntry_within.bind fun next => ih

theorem descend_within {comps : List Str} {parent : Nat} :
    Within R (descend v comps parent) := by
  induction comps generalizing parent with
  | nil => exact .pure _
  | cons comp comps ih =>
    refine findDirEntry_within.bindSome (.pure _) fun e => ?_
    exact .ite (.pure _) (.ite (.pure _) ih)

theorem resolveParentDir_within {path : Str} :
    Within R (resolveParentDir v path) := by
  unfold resolveParentDir
  split
  · exact .pure _
  split
  · exact .pure _
  · refine descend_within.bind fun parent => ?_
    cases parent <;> exact .pure _

theorem freeSlotLoop_within {last : Nat} : Within R (freeSlotLoop v n cluster last) := by
  induction n generalizing cluster last with
  | zero =>
    exact .ite (.pure _) (.pure _)
  | succ n ih =>
    refine .ite (readCluster_within.bindSome (.pure _) fun b => ?_) (.pure _)
    dsimp only
    split
    · exact .pure _
    · exact readFatEntry_within.bind fun next => ih

theorem openWalk_within {comps : List Str} {parent : Nat} :
    Within R (openWalk v comps parent) := by
  induction comps generalizing parent with
  | nil => exact .pure _
  | cons comp comps ih =>
    refine findDirEntry_within.bindSome (.pure _) fun e => ?_
    exact .ite (.pure _) (.ite (.pure _) ih)

theorem readTarget_within {f : FatFile} : Within R (readTarget v f) :=
  .ite (readFatEntry_within.bind fun _ => .pure _) (.pure _)

theorem readLoop_within {size : Nat} {f : FatFile} {out : List UInt8} :
    Within R (readLoop v size n f out) := by
  induction n generalizing f out with
  | zero =>
    exact .ite (.pure _) (.pure _)
  | succ n ih =>
    refine .ite (readTarget_within.bindSome (.pure _) fun cluster => ?_) (.pure _)
    refine readCluster_within.bindSome (.pure _) fun b => ?_
    exact ih

theorem seekLoop_within {skip : Nat} : Within R (seekLoop v skip n cluster) := by
  induction skip generalizing n cluster with
  | zero => exact .pure _
  | succ skip ih =>
    cases n with
    | zero => exact .pure _
    | succ n => exact readFatEntry_within.bind fun next => .ite (.pure _) ih

theorem emptyLoop_within : Within R (emptyLoop v n cluster) := by
  induction n generalizing cluster with
  | zero =>
    exact .ite (.pure _) (.pure _)
  | succ n ih =>
    refine .ite (readCluster_within.bindSome (.pure _) fun b => ?_) (.pure _)
    exact .ite (readFatEntry_within.bind fun next => ih) (.pure _)

end

end TinyOS.Fat32
