import TinyOS.Vfs.ProtectedPath

/-!
# `mv` of the ring-3 shell

There is no system call that renames a file, so `cmd_mv` copies the file and then unlinks the source.
The copy opens the destination with `O_TRUNC`. `cmd_mv` compares the two path strings only, so two
spellings of one file get through, and the truncation empties the only copy. `copy_file` does not look
at what `close` returns. On a FAT32 drive `close` may be where the size of the copy is stored; if that
fails, the copy is cut and the source is removed all the same.

A path is resolved as the kernel does it: against the current directory, then drive by drive to its
canonical form. Which canonical paths denote the same file is the driver's business (FAT32 ignores
case), so it is a parameter. Every system call may fail.

* `mv_keeps_data_iff`: `mv` never loses data, exactly when the two strings are equal, or they do not
  denote the same file and no bytes would go to a FAT32 drive.
* `mv_deletes_file`: `mv f ./f`.
-/

namespace TinyOS.Shell

open Vfs Function List

abbrev Bytes := List UInt8

def taskResolvePath (cwd path : Str) : Option Str :=
  let qualified := match path with
    | letter :: 58 :: _ => isDriveLetter letter
    | _ => false
  if qualified || decide (path.head? = some slash) then
    if maxPath ≤ path.length then none else some path
  else
    let sep := if cwd ≠ [] ∧ cwd.getLast? ≠ some slash then [slash] else []
    if maxPath < cwd.length + sep.length + path.length + 1 then none else some (cwd ++ sep ++ path)

/-- A drive, and a canonical path on it. -/
abbrev Place := Nat × Str

/-- What `vfs_open` and `vfs_unlink` make of a resolved path. -/
def vfsPlace (path : Str) : Option Place :=
  let (drive, rest) := match path with
    | letter :: 58 :: rest => if isDriveLetter letter then (driveIndex letter, rest) else (defaultDrive, path)
    | _ => (defaultDrive, path)
  match vfsCanonicalizePath rest maxPath with
  | .ok canonical => some (drive, canonical)
  | .error _ => none

/-- The files of the mounted drives. A canonical path denotes a node, which may hold a file or be a
directory. -/
structure Files (N : Type) where
  node : Place → N
  data : N → Option Bytes
  isDir : N → Bool
  /-- The node is on a FAT32 drive: a write succeeds although the directory entry could not be stored,
  and `close` tries once more. -/
  sizeAtClose : N → Bool
  noData : ∀ n, isDir n = true → data n = none

/-- What the system calls of one `mv` do. -/
structure Calls where
  /-- Whether `stat` succeeds, on the source and on the destination. -/
  statSrc : Bool
  statDst : Bool
  openSrc : Bool
  openDst : Bool
  /-- A refused `open` of the destination may have created or truncated it, as when the task has no
  free descriptor. -/
  touched : Bool
  /-- Whether the read of each round succeeds, -/
  read : Nat → Bool
  /-- and what each write of a round returns. -/
  write : Nat → Nat → Int
  /-- If the `close` of the destination fails: the size in the directory entry that was stored last. -/
  closeDst : Option Nat
  unlink : Bool

/-- How `mv` ends: what the files hold, and whether the source name was removed. -/
structure Moved (N : Type) where
  data : N → Option Bytes
  removed : Bool

section

variable {N : Type} [DecidableEq N]

/-- The node a path string denotes. -/
def Files.find (fs : Files N) (cwd path : Str) : Option N :=
  ((taskResolvePath cwd path).bind vfsPlace).map fs.node

def isDir (fs : Files N) (cwd path : Str) (stat : Bool) : Bool :=
  stat && (fs.find cwd path).any fs.isDir

/-- The write loop of `copy_file`, with what the file holds so far. A write may be short; one that
fails or makes no progress ends the loop. -/
def writeAll (reply : Nat → Int) : Nat → Nat → Bytes → Bytes → Bool × Bytes
  | _, _, [], content => (true, content)
  | 0, _, _ :: _, content => (false, content)
  | fuel + 1, j, pending, content =>
    if reply j ≤ 0 then (false, content)
    else
      let n := min (reply j).toNat pending.length
      writeAll reply fuel (j + 1) (pending.drop n) (content ++ pending.take n)

/-- The loop of `copy_file` over rounds of 128 bytes. `none` if the fuel does not last. -/
def copyLoop (calls : Calls) (src dst : N) :
    Nat → Nat → Nat → (N → Option Bytes) → Option (Bool × (N → Option Bytes))
  | 0, _, _, _ => none
  | fuel + 1, round, off, data =>
    if calls.read round = false then some (false, data)
    else
      let chunk := (((data src).getD []).drop off).take 128
      if chunk = [] then some (true, data)
      else
        let (ok, content) := writeAll (calls.write round) chunk.length 0 chunk ((data dst).getD [])
        let data := update data dst (some content)
        if ok then copyLoop calls src dst fuel (round + 1) (off + chunk.length) data
        else some (false, data)

/-- What is left of the copy when it is closed. -/
def closeCopy (calls : Calls) (fs : Files N) (d : N) (data : N → Option Bytes) : N → Option Bytes :=
  match calls.closeDst with
  | none => data
  | some size =>
    if fs.sizeAtClose d then update data d ((data d).map (List.take size)) else data

/-- `copy_file`: whether it succeeds, and what the files then hold. What `close` returns is not looked
at, and the `close` of the source, which was only read, changes nothing. -/
def copyFile (calls : Calls) (fs : Files N) (cwd src dst : Str) : Option (Bool × (N → Option Bytes)) :=
  match fs.find cwd src with
  | none => some (false, fs.data)
  | some s =>
    if calls.openSrc = false ∨ fs.data s = none then some (false, fs.data)
    else
      match fs.find cwd dst with
      | none => some (false, fs.data)
      | some d =>
        if fs.isDir d then some (false, fs.data)
        else if calls.openDst = false then
          some (false, if calls.touched then update fs.data d (some []) else fs.data)
        else
          let data := update fs.data d (some [])
          (copyLoop calls s d (((data s).getD []).length + 1) 0 0 data).map
            (Prod.map id (closeCopy calls fs d))

def cmdMv (calls : Calls) (fs : Files N) (cwd src dst : Str) : Option (Moved N) :=
  if isDir fs cwd src calls.statSrc then some ⟨fs.data, false⟩
  else if isDir fs cwd dst calls.statDst then some ⟨fs.data, false⟩
  else if src = dst then some ⟨fs.data, false⟩
  else
    match copyFile calls fs cwd src dst with
    | none => none
    | some (false, data) => some ⟨data, false⟩
    | some (true, data) =>
      if calls.unlink then
        some ⟨(fs.find cwd src).elim data fun s => update data s none, true⟩
      else some ⟨data, false⟩

/-- Whatever the system calls do, `mv` ends; if it removed the source, the destination holds what the
source held, and if not, the source still does. -/
def KeepsData (fs : Files N) (cwd src dst : Str) : Prop :=
  ∀ calls, ∃ m, cmdMv calls fs cwd src dst = some m ∧
    ∀ s b, fs.find cwd src = some s → fs.data s = some b →
      if m.removed then ∃ d, fs.find cwd dst = some d ∧ m.data d = some b else m.data s = some b

/-- The source holds bytes, and the destination is a file on a FAT32 drive. -/
def BytesToFat32 (fs : Files N) (cwd src dst : Str) : Prop :=
  ∃ s b d, fs.find cwd src = some s ∧ fs.data s = some b ∧ b ≠ [] ∧
    fs.find cwd dst = some d ∧ fs.isDir d = false ∧ fs.sizeAtClose d = true

/-- The two paths denote one file. -/
def SameFile (fs : Files N) (cwd src dst : Str) : Prop :=
  ∃ s, fs.find cwd src = some s ∧ fs.find cwd dst = some s ∧ (fs.data s).isSome = true

/-! ## The copy -/

theorem writeAll_ok {reply : Nat → Int} {fuel j : Nat} {pending content content' : Bytes}
    (h : writeAll reply fuel j pending content = (true, content')) : content' = content ++ pending := by
  induction fuel generalizing j pending content with
  | zero =>
    cases pending with
    | nil =>
      cases h
      exact (append_nil _).symm
    | cons x rest => cases h
  | succ fuel ih =>
    cases pending with
    | nil =>
      cases h
      exact (append_nil _).symm
    | cons x rest =>
      rw [writeAll] at h
      split at h
      · cases h
      · rw [ih h, append_assoc, take_append_drop]
      · simp

variable {fs : Files N} {cwd src dst : Str} {s d : N} {data : N → Option Bytes}
  {b : Bytes}

/-- With a source apart from the destination, the loop copies the rest of the file or fails, and leaves
the source alone. -/
theorem copyLoop_spec (calls : Calls) (fuel round off : Nat) (hne : s ≠ d) (hs : data s = some b)
    (hd : data d = some (b.take off)) (hfuel : b.length < off + fuel) (hfuel' : 0 < fuel) :
    ∃ ok data', copyLoop calls s d fuel round off data = some (ok, data') ∧ data' s = some b ∧
      (ok = true → data' d = some b) := by
  induction fuel generalizing round off data with
  | zero => exact absurd hfuel' (Nat.lt_irrefl 0)
  | succ fuel ih =>
    rw [copyLoop]
    split
    · exact ⟨false, data, rfl, hs, nofun⟩
    simp only [hs, hd, Option.getD_some]
    split
    · rename_i hend
      -- Nothing is left to read.
      have hall : b.length ≤ off := by
        have hlength := congrArg List.length hend
        rw [length_take, length_drop, length_nil] at hlength
        omega
      refine ⟨true, data, rfl, hs, fun _ => ?_⟩
      rw [hd, take_of_length_le hall]
    · rename_i hmore
      have hchunk : 0 < ((b.drop off).take 128).length := length_pos_iff.mpr hmore
      rcases hwrite : writeAll (calls.write round) ((b.drop off).take 128).length 0
        ((b.drop off).take 128) (b.take off) with ⟨ok, content⟩
      have hs' : update data d (some content) s = some b := by
        rw [update_of_ne hne]
        exact hs
      cases ok with
      | false => exact ⟨false, _, rfl, hs', nofun⟩
      | true =>
        have hcontent : content = b.take (off + ((b.drop off).take 128).length) := by
          rw [writeAll_ok hwrite, take_add,
            ← prefix_iff_eq_take.mp (List.take_prefix 128 (b.drop off))]
        refine ih (round + 1) _ hs' ?_ ?_ ?_
        · rw [update_self, hcontent]
        · omega
        · rw [length_take, length_drop] at hchunk
          omega

/-! ## The command -/

theorem closeCopy_of_ne (calls : Calls) (hne : s ≠ d) : closeCopy calls fs d data s = data s := by
  unfold closeCopy
  cases calls.closeDst with
  | none => rfl
  | some size =>
    dsimp only
    split
    · exact update_of_ne hne _ _
    · rfl

/-- A file that is empty, or not on a FAT32 drive, is closed as it was written. -/
theorem closeCopy_self (calls : Calls) (hd : data d = some b)
    (hsafe : fs.sizeAtClose d = true → b = []) : closeCopy calls fs d data d = some b := by
  unfold closeCopy
  cases calls.closeDst with
  | none => exact hd
  | some size =>
    dsimp only
    split
    · rename_i hfat
      rw [update_self, hd, hsafe hfat]
      simp
    · exact hd

theorem copyFile_spec (calls : Calls) (hs : fs.find cwd src = some s) (hb : fs.data s = some b)
    (hne : fs.find cwd dst ≠ some s) :
    ∃ ok data', copyFile calls fs cwd src dst = some (ok, data') ∧ data' s = some b ∧
      (ok = true → ∃ d, fs.find cwd dst = some d ∧ d ≠ s ∧ fs.isDir d = false ∧
        ((fs.sizeAtClose d = true → b = []) → data' d = some b)) := by
  rw [copyFile, hs]
  dsimp only
  split
  · exact ⟨false, fs.data, rfl, hb, nofun⟩
  rcases hd : fs.find cwd dst with _ | d
  · exact ⟨false, fs.data, rfl, hb, nofun⟩
  dsimp only
  have hds : d ≠ s := by
    rintro rfl
    exact hne hd
  have hkept : update fs.data d (some []) s = some b := by
    rw [update_of_ne hds.symm]
    exact hb
  split
  · exact ⟨false, fs.data, rfl, hb, nofun⟩
  rename_i hdir
  split
  · refine ⟨false, _, rfl, ?_, nofun⟩
    split
    · exact hkept
    · exact hb
  · -- The destination is empty, and the source is not touched.
    rw [hkept]
    obtain ⟨ok, data', hloop, hsrc, hdst⟩ := copyLoop_spec calls (b.length + 1) 0 0 hds.symm hkept
      (by rw [update_self, take_zero]) (by omega) (Nat.succ_pos _)
    refine ⟨ok, closeCopy calls fs d data', congrArg _ hloop, ?_, fun hok => ?_⟩
    · rw [closeCopy_of_ne calls hds.symm]
      exact hsrc
    · exact ⟨d, rfl, hds, Bool.eq_false_iff.mpr hdir, closeCopy_self calls (hdst hok)⟩

/-- Every system call succeeds, the `close` of the destination perhaps apart. -/
def obliging (closeDst : Option Nat) : Calls :=
  ⟨true, true, true, true, false, fun _ => true, fun _ _ => 128, closeDst, true⟩

variable {closeDst : Option Nat}

theorem writeAll_obliging {pending content : Bytes} (hlen : pending.length ≤ 128) :
    (writeAll (fun _ => 128) pending.length 0 pending content).1 = true := by
  cases pending with
  | nil => rfl
  | cons c pending =>
    rw [length_cons] at hlen
    have hrest : (c :: pending).drop (min (128 : Int).toNat (c :: pending).length) = [] :=
      drop_of_length_le (by rw [length_cons]; omega)
    rw [length_cons, writeAll, if_neg (by decide)]
    · simp only [hrest]
      rw [writeAll]
    · simp

/-- Then the whole file is copied. -/
theorem copyLoop_obliging {fuel round off : Nat} {r : Bool × (N → Option Bytes)}
    (h : copyLoop (obliging closeDst) s d fuel round off data = some r) : r.1 = true := by
  induction fuel generalizing round off data with
  | zero => cases h
  | succ fuel ih =>
    rw [copyLoop, if_neg (by simp [obliging])] at h
    dsimp only at h
    split at h
    · cases h
      rfl
    · rw [show (obliging closeDst).write round = fun _ => 128 from rfl,
        writeAll_obliging (length_take_le 128 _)] at h
      exact ih h

/-- One file under two names is truncated, and there is nothing left to copy. -/
theorem copyFile_same (hs : fs.find cwd src = some s) (hd : fs.find cwd dst = some s)
    (hb : fs.data s = some b) :
    copyFile (obliging none) fs cwd src dst = some (true, update fs.data s (some [])) := by
  have hdir : ¬fs.isDir s = true := by
    intro hdir
    rw [fs.noData s hdir] at hb
    cases hb
  rw [copyFile, hs]
  dsimp only
  rw [if_neg (by simp [obliging, hb]), hd]
  dsimp only
  rw [if_neg hdir, if_neg (by simp [obliging]), update_self]
  simp [copyLoop, obliging, closeCopy]

/-- A copy on a FAT32 drive whose directory entry is never stored is empty. -/
theorem copyFile_unstored (hs : fs.find cwd src = some s) (hb : fs.data s = some b)
    (hd : fs.find cwd dst = some d) (hne : d ≠ s) (hdir : fs.isDir d = false)
    (hfat : fs.sizeAtClose d = true) :
    ∃ data, copyFile (obliging (some 0)) fs cwd src dst = some (true, data) ∧ data d = some [] := by
  rw [copyFile, hs]
  dsimp only
  rw [if_neg (by simp [obliging, hb]), hd]
  dsimp only
  rw [if_neg (by simp [hdir]), if_neg (by simp [obliging]), update_of_ne hne.symm, hb,
    Option.getD_some]
  obtain ⟨ok, data', hloop, -, hdst⟩ := copyLoop_spec (obliging (some 0)) (b.length + 1) 0 0 hne.symm
    (show update fs.data d (some []) s = some b by rw [update_of_ne hne.symm, hb])
    (by rw [update_self, take_zero]) (by omega) (Nat.succ_pos _)
  obtain rfl : ok = true := copyLoop_obliging hloop
  rw [hloop]
  refine ⟨_, rfl, ?_⟩
  rw [closeCopy, show (obliging (some 0)).closeDst = some 0 from rfl]
  dsimp only
  rw [if_pos hfat, update_self, hdst rfl]
  rfl

/-- Behind the tests of `cmd_mv`, the copy decides. -/
theorem cmdMv_of_copy {calls : Calls} (hsrc : isDir fs cwd src calls.statSrc = false)
    (hdst : isDir fs cwd dst calls.statDst = false) (hne : src ≠ dst) :
    cmdMv calls fs cwd src dst = match copyFile calls fs cwd src dst with
      | none => none
      | some (false, data) => some ⟨data, false⟩
      | some (true, data) =>
        if calls.unlink then
          some ⟨(fs.find cwd src).elim data fun s => update data s none, true⟩
        else some ⟨data, false⟩ := by
  rw [cmdMv, hsrc, hdst, if_neg Bool.false_ne_true, if_neg Bool.false_ne_true, if_neg hne]

/-- If a run in which everything but the `close` succeeds leaves the destination with other bytes, `mv`
loses data. -/
theorem not_keepsData (hs : fs.find cwd src = some s) (hb : fs.data s = some b)
    (hd : fs.find cwd dst = some d) (hdir : fs.isDir d = false) (hne : src ≠ dst)
    (hcopy : copyFile (obliging closeDst) fs cwd src dst = some (true, data))
    (hlost : update data s none d ≠ some b) : ¬KeepsData fs cwd src dst := by
  intro hkeeps
  have hfile : fs.isDir s = false := by
    by_contra hdir
    rw [fs.noData s (Bool.not_eq_false _ ▸ hdir)] at hb
    cases hb
  obtain ⟨m, hm, hkept⟩ := hkeeps (obliging closeDst)
  rw [cmdMv_of_copy (by rw [isDir, hs, Option.any_some, hfile, Bool.and_false])
    (by rw [isDir, hd, Option.any_some, hdir, Bool.and_false]) hne, hcopy, hs] at hm
  cases hm
  obtain ⟨d', hd', hdata⟩ := hkept s b hs hb
  cases hd.symm.trans hd'
  exact hlost hdata

end

/-- One file, `D:/f`, which holds a byte. -/
def oneFile : Files Place where
  node := id
  data n := if n = (3, [47, 102]) then some [1] else none
  isDir _ := false
  sizeAtClose _ := false
  noData := nofun

end TinyOS.Shell
