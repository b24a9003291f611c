import TinyOS.Fat32.Name
import TinyOS.Vfs.Path

/-!
# VFS: the protected-path gate against FAT32 name resolution

`vfs_open`, `vfs_mkdir`, `vfs_rmdir` and `vfs_unlink` test the canonical path
with `vfs_path_is_protected` and then hand it to the driver, which reads it a
second time with `parse_path` and `filename_to_83`. The drivers are a parameter:
a record of operations on a state of their own.

* `Modify.exec_refused`: when the gate sees a protected path, no entry point
  reaches the driver for a caller without `CAP_SYS_ADMIN`.
* `gateAgrees_iff`: the two readings agree on every path except those whose
  first component is a protected name followed by padding, which FAT32 drops and
  the gate does not.
-/

namespace TinyOS.Vfs

open Lib List Fat32

/-! ## The entry points -/

/-- `VFS_ENOENT`. -/
def enoent : Int := -2
/-- `VFS_EAGAIN`. -/
def eagain : Int := -11
/-- `VFS_EACCES`. -/
def eacces : Int := -13
/-- `VFS_ENFILE`. -/
def enfile : Int := -23
/-- `VFS_ENOSYS`. -/
def enosys : Int := -38

/-- `VFS_MAX_FDS`. -/
def maxFds : Nat := 64
/-- `VFS_RESERVED_FDS`. -/
def reservedFds : Nat := 6
/-- `VFS_USER_MAX_FDS`. -/
def userMaxFds : Nat := 24

def capSystemCritical : UInt32 := 0x01
def capSysAdmin : UInt32 := 0x08

/-- `VFS_O_WRONLY | VFS_O_RDWR | VFS_O_CREAT | VFS_O_TRUNC`. -/
def writeIntent : UInt32 := 0x0303

/-- What the entry points read of `task_t`. -/
structure Task where
  uid : Nat
  capabilities : UInt32

/-- The operations of a driver that modify the file system; `none` is a null
pointer in `file_operations_t`. -/
structure FileOps (σ : Type) where
  openFile : Option (Str → UInt32 → σ → Int × σ)
  mkdir : Option (Str → σ → Int × σ)
  rmdir : Option (Str → σ → Int × σ)
  unlink : Option (Str → σ → Int × σ)

/-- What `vfs_alloc_fd` reads of a descriptor. -/
structure FdSlot where
  inUse : Bool
  ownerUid : Nat

/-- The VFS state; `dev` is the state the drivers work on. -/
structure State (σ : Type) where
  initialized : Bool
  fds : Nat → FdSlot
  /-- `vfs_mounts`, by drive index. -/
  mounts : Nat → Option (FileOps σ)
  /-- The registered drivers in table order. -/
  drivers : List (FileOps σ)
  dev : σ
  denied : UInt32
  granted : UInt32

variable {σ : Type}

def isDriveLetter (c : UInt8) : Bool := (65 ≤ c && c ≤ 90) || (97 ≤ c && c ≤ 122)

/-- `drive - 'A'` after the letter is upper-cased. -/
def driveIndex (c : UInt8) : Nat := if 97 ≤ c then c.toNat - 97 else c.toNat - 65

/-- `VFS_DEFAULT_DRIVE - 'A'`. -/
def defaultDrive : Nat := 3

/-- The choice of the driver, and the path it is given. -/
def resolveDrive {δ : Type} (mounts : Nat → Option δ) (drivers : List δ) (path : Str) :
    Except Int (δ × Str) :=
  match path with
  | letter :: 58 :: rest =>
    if isDriveLetter letter then
      match mounts (driveIndex letter) with
      | none => .error enoent
      | some ops => .ok (ops, rest)
    else fallback
  | _ => fallback
where
  fallback : Except Int (δ × Str) :=
    match mounts defaultDrive with
    | some ops => .ok (ops, path)
    | none =>
      match drivers with
      | [] => .error enoent
      | ops :: _ => .ok (ops, path)

/-- `vfs_resolve_drive`, which the other three entry points carry inline. -/
def vfsResolveDrive (v : State σ) (path : Str) : Except Int (FileOps σ × Str) :=
  resolveDrive v.mounts v.drivers path

/-- The test of `vfs_protected_access_allowed`. -/
def hasSysAdmin : Option Task → Bool
  | none => false
  | some task => task.capabilities &&& capSysAdmin ≠ 0

/-- `vfs_protected_access_allowed`, which also counts its decisions. -/
def vfsProtectedAccessAllowed (v : State σ) (task : Option Task) : Bool × State σ :=
  if hasSysAdmin task then (true, { v with granted := v.granted + 1 })
  else (false, { v with denied := v.denied + 1 })

/-- The protected-path check every entry point makes on the canonical path. -/
def checkProtected (v : State σ) (task : Option Task) (canonical : Str) : Bool × State σ :=
  if vfsPathIsProtected canonical then vfsProtectedAccessAllowed v task else (true, v)

/-- The common body of `vfs_mkdir`, `vfs_rmdir` and `vfs_unlink`; `missing` is
the error for a driver without the operation. -/
def gatedOp (sel : FileOps σ → Option (Str → σ → Int × σ)) (missing : Int)
    (v : State σ) (task : Option Task) (path : Str) : Int × State σ :=
  if !v.initialized then (einval, v)
  else if path.length = 0 || maxPath ≤ path.length then (einval, v)
  else
    match vfsResolveDrive v path with
    | .error e => (e, v)
    | .ok (ops, rest) =>
      match sel ops with
      | none => (missing, v)
      | some f =>
        match vfsCanonicalizePath rest maxPath with
        | .error e => (e, v)
        | .ok canonical =>
          match checkProtected v task canonical with
          | (false, v) => (eacces, v)
          | (true, v) =>
            let r := f canonical v.dev
            (r.1, { v with dev := r.2 })

def vfsMkdir (v : State σ) (task : Option Task) (path : Str) : Int × State σ :=
  gatedOp FileOps.mkdir enoent v task path

def vfsRmdir (v : State σ) (task : Option Task) (path : Str) : Int × State σ :=
  gatedOp FileOps.rmdir enoent v task path

def vfsUnlink (v : State σ) (task : Option Task) (path : Str) : Int × State σ :=
  gatedOp FileOps.unlink enosys v task path

/-- `is_privileged` of `vfs_alloc_fd`. -/
def isPrivileged : Option Task → Bool
  | none => false
  | some task => task.uid = 0 || task.capabilities &&& capSystemCritical ≠ 0

def vfsAllocFd (v : State σ) (task : Option Task) : Except Int (Nat × State σ) :=
  let uid := (task.map Task.uid).getD 0
  let held := (List.range maxFds).countP (fun i => (v.fds i).inUse && (v.fds i).ownerUid = uid)
  if task.isSome && !isPrivileged task && userMaxFds ≤ held then .error eagain
  else
    let pool := if isPrivileged task then maxFds else maxFds - reservedFds
    match (List.range pool).find? (fun i => !(v.fds i).inUse) with
    | none => .error enfile
    | some fd => .ok (fd, { v with fds := Function.update v.fds fd ⟨true, uid⟩ })

def vfsFreeFd (v : State σ) (fd : Nat) : State σ :=
  { v with fds := Function.update v.fds fd ⟨false, 0⟩ }

def vfsOpen (v : State σ) (task : Option Task) (path : Str) (flags : UInt32) : Int × State σ :=
  if !v.initialized then (einval, v)
  else if path.length = 0 || maxPath ≤ path.length then (einval, v)
  else
    match vfsAllocFd v task with
    | .error e => (e, v)
    | .ok (fd, v) =>
      match vfsResolveDrive v path with
      | .error e => (e, vfsFreeFd v fd)
      | .ok (ops, rest) =>
        match ops.openFile with
        | none => (enoent, vfsFreeFd v fd)
        | some f =>
          match vfsCanonicalizePath rest maxPath with
          | .error e => (e, vfsFreeFd v fd)
          | .ok canonical =>
            match if flags &&& writeIntent ≠ 0 then checkProtected v task canonical
              else (true, v) with
            | (false, v) => (eacces, vfsFreeFd v fd)
            | (true, v) =>
              let r := f canonical flags v.dev
              let v := { v with dev := r.2 }
              if r.1 < 0 then (r.1, vfsFreeFd v fd) else (fd, v)

/-! ## What the gate refuses -/

/-- The calls that modify the file system. -/
inductive Modify where
  | openFile (flags : UInt32) (write : flags &&& writeIntent ≠ 0)
  | mkdir
  | rmdir
  | unlink

def Modify.exec (op : Modify) (v : State σ) (task : Option Task) (path : Str) : Int × State σ :=
  match op with
  | .openFile flags _ => vfsOpen v task path flags
  | .mkdir => vfsMkdir v task path
  | .rmdir => vfsRmdir v task path
  | .unlink => vfsUnlink v task path

/-- The call failed and did not reach the driver. -/
def Refused (v : State σ) (r : Int × State σ) : Prop := r.1 < 0 ∧ r.2.dev = v.dev

theorem einval_neg : einval < 0 := by decide
theorem enoent_neg : enoent < 0 := by decide
theorem eacces_neg : eacces < 0 := by decide

/-- `"C:"` in front of a path. -/
def onDriveC (path : Str) : Str := 67 :: 58 :: path

variable {path : Str}

theorem vfsResolveDrive_onDriveC {v : State σ} : vfsResolveDrive v (onDriveC path) =
      match v.mounts 2 with
      | none => .error enoent
      | some ops => .ok (ops, path) := by
  have hletter : isDriveLetter 67 = true := rfl
  have hindex : driveIndex 67 = 2 := rfl
  rw [vfsResolveDrive, onDriveC, resolveDrive, if_pos hletter, hindex]
  cases v.mounts 2 <;> rfl

variable {canonical : Str} {task : Option Task}

theorem vfsAllocFd_error {v : State σ} {e : Int} (h : vfsAllocFd v task = .error e) : e < 0 := by
  simp only [vfsAllocFd] at h
  split at h
  · cases h
    decide
  split at h
  · cases h
    decide
  · cases h

theorem vfsAllocFd_dev {v v' : State σ} {fd : Nat}
    (h : vfsAllocFd v task = .ok (fd, v')) : v'.dev = v.dev ∧ v'.mounts = v.mounts := by
  simp only [vfsAllocFd] at h
  split at h
  · cases h
  split at h
  · cases h
  · cases h
    exact ⟨rfl, rfl⟩

section refused

variable {v : State σ} (hprot : vfsPathIsProtected canonical = true)
  (htask : hasSysAdmin task = false)

include hprot htask

theorem checkProtected_denied :
    checkProtected v task canonical = (false, { v with denied := v.denied + 1 }) := by
  rw [checkProtected, if_pos hprot, vfsProtectedAccessAllowed, htask]
  rfl

variable (hcanon : vfsCanonicalizePath path maxPath = .ok canonical)

include hcanon

theorem gatedOp_refused {sel : FileOps σ → Option (Str → σ → Int × σ)} {missing : Int}
    (hmissing : missing < 0) :
    Refused v (gatedOp sel missing v task (onDriveC path)) := by
  simp only [gatedOp, vfsResolveDrive_onDriveC]
  split
  · exact ⟨einval_neg, rfl⟩
  split
  · exact ⟨einval_neg, rfl⟩
  cases v.mounts 2 with
  | none => exact ⟨enoent_neg, rfl⟩
  | some ops =>
    dsimp only
    cases sel ops with
    | none => exact ⟨hmissing, rfl⟩
    | some f =>
      simp only [hcanon, checkProtected_denied hprot htask]
      exact ⟨eacces_neg, rfl⟩

theorem vfsOpen_refused {flags : UInt32} (hflags : flags &&& writeIntent ≠ 0) :
    Refused v (vfsOpen v task (onDriveC path) flags) := by
  simp only [vfsOpen]
  split
  · exact ⟨einval_neg, rfl⟩
  split
  · exact ⟨einval_neg, rfl⟩
  split
  · rename_i e halloc
    exact ⟨vfsAllocFd_error halloc, rfl⟩
  rename_i fd v' halloc
  rcases vfsAllocFd_dev halloc with ⟨hdev, hmounts⟩
  simp only [vfsResolveDrive_onDriveC, hmounts]
  cases v.mounts 2 with
  | none => exact ⟨enoent_neg, hdev⟩
  | some ops =>
    dsimp only
    cases ops.openFile with
    | none => exact ⟨enoent_neg, hdev⟩
    | some f =>
      simp only [hcanon, checkProtected_denied hprot htask]
      exact ⟨eacces_neg, hdev⟩

/-- A path the gate calls protected is out of reach on `C:` without
`CAP_SYS_ADMIN`. -/
theorem Modify.exec_refused (op : Modify) :
    Refused v (op.exec v task (onDriveC path)) := by
  cases op with
  | openFile flags write => exact vfsOpen_refused hprot htask hcanon write
  | mkdir | rmdir | unlink => exact gatedOp_refused hprot htask hcanon (by decide)

end refused

/-! ## The two readings of one path -/

/-- The 8.3 names of BIN, SBIN, ETC, BOOT and KERNEL. -/
def protected83 : List Str := protectedNames.map (fun w => Fat32.filenameTo83 (w.map Fat32.upcase))

/-- FAT32 resolves the path to a protected directory or below it. -/
def ResolvesProtected (canonical : Str) : Prop :=
  ∃ first rest, Fat32.parsePath canonical Fat32.maxComponents = some (first :: rest) ∧
    Fat32.filenameTo83 first ∈ protected83

/-- The gate and FAT32 agree on `path`, and so the gate holds. -/
def GateAgrees (path : Str) : Prop :=
  ∀ canonical, vfsCanonicalizePath path maxPath = .ok canonical → ResolvesProtected canonical →
    vfsPathIsProtected canonical = true ∧
      ∀ (σ : Type) (v : State σ) (task : Option Task) (op : Modify), hasSysAdmin task = false →
        Refused v (op.exec v task (onDriveC path))

/-- A protected name, in any case, with at least one byte of padding behind it:
spaces, or spaces and a dot with spaces. -/
def PaddedName (n : Str) : Prop :=
  ∃ w ∈ protectedNames, ∃ k m, 0 < k + m ∧ n.map downcase = w ++ Fat32.padding k m

/-- FAT32 accepts the canonical path, and its first component is padded. -/
def GateMisses (path : Str) : Prop :=
  ∃ canonical first rest, vfsCanonicalizePath path maxPath = .ok canonical ∧
    Fat32.parsePath canonical Fat32.maxComponents = some (first :: rest) ∧ PaddedName first

/-- For a byte that is no capital, folding up and folding down identify the same bytes. -/
theorem upcase_eq_iff_downcase_eq {x : UInt8} (hx : ¬ (65 ≤ x ∧ x ≤ 90)) (c : UInt8) :
    Fat32.upcase c = Fat32.upcase x ↔ downcase c = x := by
  have hsub : ∀ y : UInt8, 97 ≤ y → (y - 32).toNat = y.toNat - 32 := by
    intro y hy
    rw [UInt8.toNat_sub_of_le]
    · rfl
    · rw [UInt8.le_iff_toNat_le] at hy ⊢
      simp at hy ⊢
      omega
  simp only [upcase, downcase, Bool.and_eq_true, decide_eq_true_eq]
  split <;> split <;> split <;>
    simp_all [UInt8.le_iff_toNat_le, ← UInt8.toNat_inj, UInt8.toNat_add] <;> omega

theorem map_upcase_eq_iff {l : Str} (hl : ∀ x ∈ l, ¬ (65 ≤ x ∧ x ≤ 90)) (n : Str) :
    n.map Fat32.upcase = l.map Fat32.upcase ↔ n.map downcase = l := by
  induction l generalizing n with
  | nil => simp
  | cons x l ih =>
    cases n with
    | nil => simp
    | cons c n =>
      simp only [map_cons, List.cons.injEq]
      rw [upcase_eq_iff_downcase_eq (hl x (by simp)) c, ih (fun y hy => hl y (by simp [hy])) n]

theorem protectedNames_plain {w : Str} (hw : w ∈ protectedNames) :
    Fat32.Plain83 (w.map Fat32.upcase) ∧ ∀ x ∈ w, ¬ (65 ≤ x ∧ x ≤ 90) := by
  have hall : ∀ w ∈ protectedNames,
      (w.map upcase ≠ [] ∧ (w.map upcase).length ≤ 8 ∧
        dot ∉ w.map upcase ∧ space ∉ w.map upcase ∧
        (w.map upcase).map upcase = w.map upcase) ∧
      ∀ x ∈ w, ¬ (65 ≤ x ∧ x ≤ 90) := by decide +kernel
  rcases hall w hw with ⟨⟨hne, hlen, hdot, hspace, hup⟩, hlow⟩
  exact ⟨⟨hne, hlen, hdot, hspace, hup⟩, hlow⟩

theorem padding_upcase {k m : Nat} : (Fat32.padding k m).map Fat32.upcase = Fat32.padding k m := by
  have hspace : Fat32.upcase Fat32.space = Fat32.space := by decide
  have hdot : Fat32.upcase Fat32.dot = Fat32.dot := by decide
  rw [padding]
  split <;> simp [hspace, hdot]

theorem padding_no_capital {k m : Nat} : ∀ x ∈ Fat32.padding k m, ¬ (65 ≤ x ∧ x ≤ 90) := by
  intro x hx
  have hx : x = space ∨ x = dot := by
    rw [padding] at hx
    split at hx
    · simp only [append_nil, mem_replicate] at hx
      exact .inl hx.2
    simp only [mem_append, mem_replicate, mem_cons] at hx
    rcases hx with hx | hx | hx
    · exact .inl hx.2
    · exact .inr hx
    · exact .inl hx.2
  rcases hx with rfl | rfl <;> decide

/-- The components FAT32 files under a protected name. -/
theorem mem_protected83_iff {n : Str} (hn : Fat32.componentIs83 n = true) :
    Fat32.filenameTo83 n ∈ protected83 ↔
      ∃ w ∈ protectedNames, ∃ k m, n.map downcase = w ++ Fat32.padding k m := by
  have hspell : ∀ w ∈ protectedNames,
      filenameTo83 n = filenameTo83 (w.map upcase) ↔
        ∃ k m, n.map downcase = w ++ padding k m := by
    intro w hw
    rcases protectedNames_plain hw with ⟨hplain, hlow⟩
    rw [filenameTo83_eq_iff_spells hplain hn]
    refine exists_congr fun k => exists_congr fun m => ?_
    have hmap : n.map upcase = (w ++ padding k m).map upcase ↔ _ :=
      map_upcase_eq_iff ?_ n
    · rw [← hmap, map_append, padding_upcase]
    intro x hx
    rcases mem_append.mp hx with hx | hx
    · exact hlow x hx
    · exact padding_no_capital x hx
  simp only [protected83, mem_map]
  constructor
  · rintro ⟨w, hw, heq⟩
    exact ⟨w, hw, (hspell w hw).mp heq.symm⟩
  · rintro ⟨w, hw, h⟩
    exact ⟨w, hw, ((hspell w hw).mpr h).symm⟩

/-- Padding keeps a name from folding to a protected one. -/
theorem PaddedName.not_mem {n : Str} (h : PaddedName n) : n.map downcase ∉ protectedNames := by
  rcases h with ⟨w, -, k, m, hpos, heq⟩
  intro hmem
  have hall : ∀ u ∈ protectedNames, space ∉ u := by decide
  apply hall _ hmem
  rw [heq, padding]
  rcases Nat.eq_zero_or_pos m with rfl | hm
  · simp [show k ≠ 0 by omega]
  · simp [show m ≠ 0 by omega]

/-- `parse_path` returns the components the canonical path was built from. -/
theorem parsePath_join {first c : Str} {rest cs : List Str}
    (hcomps : ∀ c ∈ first :: rest, Component c)
    (h : Fat32.parsePath (join slash (first :: rest)) Fat32.maxComponents = some (c :: cs)) :
    c = first ∧ Fat32.componentIs83 first = true := by
  simp only [parsePath] at h
  have htok : tokens Fat32.slash (join slash (first :: rest)) = first :: rest :=
    tokens_join (fun t ht => (hcomps t ht).1)
  rw [htok] at h
  split at h
  · rename_i hok
    cases h
    simp only [Bool.and_eq_true, all_cons] at hok
    exact ⟨rfl, hok.2.1⟩
  · cases h

/-- The gate agrees with FAT32 on a path exactly when the first component is not
a padded protected name. -/
theorem gateAgrees_iff (path : Str) : GateAgrees path ↔ ¬ GateMisses path := by
  constructor
  · rintro hagree ⟨canonical, first, rest, hcanon, hparse, hpad⟩
    rcases vfsCanonicalizePath_ok hcanon with rfl | ⟨f, r, hcomps, rfl⟩
    · cases hparse
    rcases parsePath_join hcomps hparse with ⟨rfl, h83⟩
    have hres : ResolvesProtected (join slash (first :: r)) := by
      refine ⟨first, rest, hparse, (mem_protected83_iff h83).mpr ?_⟩
      rcases hpad with ⟨w, hw, k, m, -, heq⟩
      exact ⟨w, hw, k, m, heq⟩
    have hprot := (hagree _ hcanon hres).1
    rw [vfsPathIsProtected_join (hcomps first (by simp)).1.2] at hprot
    exact hpad.not_mem hprot
  · intro hnot canonical hcanon hres
    have hprot : vfsPathIsProtected canonical = true := by
      rcases hres with ⟨first, rest, hparse, hmem⟩
      rcases vfsCanonicalizePath_ok hcanon with rfl | ⟨f, r, hcomps, rfl⟩
      · cases hparse
      rcases parsePath_join hcomps hparse with ⟨rfl, h83⟩
      rw [vfsPathIsProtected_join (hcomps first (by simp)).1.2]
      rcases (mem_protected83_iff h83).mp hmem with ⟨w, hw, k, m, heq⟩
      rcases Nat.eq_zero_or_pos (k + m) with hzero | hpos
      · -- no padding: the component folds to the name itself
        rw [show k = 0 by omega, show m = 0 by omega] at heq
        rw [heq]
        simpa [padding] using hw
      · exact absurd ⟨_, first, rest, hcanon, hparse, w, hw, k, m, hpos, heq⟩ hnot
    exact ⟨hprot, fun σ v task op htask => op.exec_refused hprot htask hcanon⟩

/-- `"/BIN /X"`: FAT32 reads `/BIN/X`, the gate sees no protected path. -/
theorem gate_misses_padded_bin : ¬ GateAgrees [47, 66, 73, 78, 32, 47, 88] := by
  intro hagree
  have hcanon : vfsCanonicalizePath [47, 66, 73, 78, 32, 47, 88] maxPath =
      .ok [47, 66, 73, 78, 32, 47, 88] := by decide
  have hres : ResolvesProtected [47, 66, 73, 78, 32, 47, 88] :=
    ⟨[66, 73, 78, 32], [[88]], by decide, by decide⟩
  have hprot := (hagree _ hcanon hres).1
  revert hprot
  decide

end TinyOS.Vfs
