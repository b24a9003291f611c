import TinyOS.Lib.Run
import TinyOS.Lib.Tally
import TinyOS.Ramfs.Tables
import TinyOS.Vfs.Descriptors

/-!
# Descriptor quotas

Any number of threads open, refer to and close files at once. `Sys` has both descriptor tables, and for
each thread how far it is in `vfs_open` or `vfs_close`; a step is one critical section, or what lies
between two of them. Who opened a slot is noted beside the tables, and read by no step.

* `RamfsInv` and `VfsInv`: what a task may hold, in every state that is reached.
* `Inv.freeHandle`: the handle pool of the RAMFS driver never runs out, since every handle in use goes
  with a VFS slot, and the slot of the open that asks for one has none yet. This is the one way in
  which `vfs_open` could fail after it has taken a RAMFS slot.
-/

namespace TinyOS.Vfs.Descriptors

open Function Process
open Lib (Run tally)
open Ramfs (NodeId Handle)

/-! ## Sections -/

/-- Where a thread is. -/
inductive Pc where
  | idle
  /-- In `vfs_open`, with its VFS slot. -/
  | allocated (cur : Caller) (fd : Nat)
  /-- `ramfs_open` has returned as well. -/
  | opened (cur : Caller) (fd ramfsFd : Nat)
  /-- `ramfs_alloc_handle` has seen that handle `i` is free, and will fill it. -/
  | picked (fd i : Nat) (h : Handle)
  /-- The handle is filled. -/
  | filled (fd i : Nat)
  /-- In `vfs_close`. -/
  | closing (fd : Nat)
  /-- The RAMFS slot is given up, the handle is not. -/
  | dropping (fd : Nat)
  /-- The driver's `close` has returned. -/
  | closed (fd : Nat)

namespace Pc

/-- The slot of an unfinished `vfs_open`. -/
def opens : Pc → Option Nat
  | allocated _ fd | opened _ fd _ | picked fd _ _ | filled fd _ => some fd
  | _ => none

/-- The slot of an unfinished `vfs_close`. -/
def closes : Pc → Option Nat
  | closing fd | dropping fd | closed fd => some fd
  | _ => none

end Pc

structure Sys where
  vfs : State
  /-- The descriptor is in the hands of a task, which has not begun to close it. -/
  given : Nat → Bool
  pc : Nat → Pc
  /-- Who opened the RAMFS slot. -/
  ramfsOpener : Nat → Caller
  /-- Who opened the VFS slot. -/
  vfsOpener : Nat → Caller
  /-- The VFS slot for which a handle was last filled. -/
  handleFor : Nat → Nat

inductive Event where
  /-- `vfs_alloc_fd`. -/
  | alloc (t : Nat) (cur : Caller)
  /-- `vfs_open` fails: the slot is freed. -/
  | abandon (t : Nat)
  /-- The driver calls `ramfs_open`, which comes to its last section. -/
  | claim (t : Nat) (node : NodeId) (flags : Nat)
  /-- `ramfs_alloc_handle`, for a file. -/
  | pick (t : Nat)
  /-- `ramfs_alloc_handle`, for a directory. -/
  | pickDir (t : Nat) (dir : NodeId)
  | fill (t : Nat)
  /-- `vfs_open` stores what is left to store, and returns. -/
  | store (t : Nat) (path : Str) (flags : UInt32)
  /-- The same, after the FAT32 driver. -/
  | storeFat32 (t : Nat) (path : Str) (flags : UInt32) (i : Nat)
  /-- `vfs_close`, called with a descriptor that a task has. -/
  | close (t fd : Nat)
  /-- `ramfs_close`, in the driver's `close`. -/
  | closeFile (t : Nat)
  /-- The FAT32 driver's `close` fails, and `vfs_close` returns with the slot still taken. Its callers
  have let go of the descriptor. -/
  | failClose (t : Nat)
  /-- `ramfs_free_handle`. -/
  | drop (t : Nat)
  /-- `vfs_free_fd`. -/
  | release (t : Nat)
  /-- The last section of a `ramfs_open` that does not come from the VFS. -/
  | ramfsOpen (cur : Caller) (node : NodeId) (flags : Nat)
  | ramfsRef (fd : Int)
  | ramfsClose (fd : Int)
  /-- A read, a write or a seek moves a position. -/
  | move (fd : Int) (pos : Nat)
  /-- Whatever else happens to the file system. -/
  | tree (fs : Ramfs.State)

namespace Sys

def setPc (σ : Sys) (t : Nat) (p : Pc) : Sys := { σ with pc := update σ.pc t p }

def setFs (σ : Sys) (fs : Ramfs.State) : Sys := { σ with vfs := σ.vfs.setFs fs }

def setVfs (σ : Sys) (s : State) : Sys := { σ with vfs := s }

/-- The last section of `ramfs_open`. -/
def ramfsClaim (σ : Sys) (cur : Caller) (node : NodeId) (flags : Nat) : Option (Nat × Sys) :=
  let r := Ramfs.openClaim cur.ramfs node flags σ.vfs.fs
  if r.1 < 0 then none
  else some (r.1.toNat,
    { σ.setFs r.2 with ramfsOpener := update σ.ramfsOpener r.1.toNat cur })

/-- The end of `vfs_open`. -/
def store (σ : Sys) (t fd : Nat) (path : Str) (flags : UInt32) (priv : Private) (d : Driver) : Sys :=
  { (σ.setVfs (storeInfo σ.vfs fd path flags priv d)).setPc t .idle with
    given := update σ.given fd true }

/-- A handle for the open of `fd`. -/
def pickHandle (σ : Sys) (t fd : Nat) (h : Handle) : Option Sys :=
  (Ramfs.ramfsAllocHandle σ.vfs.fs).map fun i => σ.setPc t (.picked fd i h)

/-- `none` if the thread is not where the step is taken. -/
def next (σ : Sys) : Event → Option Sys
  | .alloc t cur =>
    match σ.pc t with
    | .idle =>
      match vfsAllocFd σ.vfs cur with
      | .error _ => some σ
      | .ok (fd, s) =>
        some { (σ.setVfs s).setPc t (.allocated cur fd) with
          vfsOpener := update σ.vfsOpener fd cur }
    | _ => none
  | .abandon t =>
    match σ.pc t with
    | .allocated _ fd => some ((σ.setVfs (vfsFreeFd σ.vfs fd)).setPc t .idle)
    | _ => none
  | .claim t node flags =>
    match σ.pc t with
    | .allocated cur fd =>
      match σ.ramfsClaim cur node flags with
      | none => some σ
      | some (ramfsFd, σ) => some (σ.setPc t (.opened cur fd ramfsFd))
    | _ => none
  | .pick t =>
    match σ.pc t with
    | .opened cur fd ramfsFd =>
      match σ.pickHandle t fd (fileHandle ramfsFd) with
      | none =>
        some ((σ.setFs (Ramfs.ramfsClose ramfsFd σ.vfs.fs)).setPc t (.allocated cur fd))
      | some σ => some σ
    | _ => none
  | .pickDir t dir =>
    match σ.pc t with
    | .allocated _ fd => some ((σ.pickHandle t fd (dirHandle dir)).getD σ)
    | _ => none
  | .fill t =>
    match σ.pc t with
    | .picked fd i h =>
      some { (σ.setFs (σ.vfs.fs.setHandle i h)).setPc t (.filled fd i) with
        handleFor := update σ.handleFor i fd }
    | _ => none
  | .store t path flags =>
    match σ.pc t with
    | .filled fd i => some (σ.store t fd path flags (.handle i) .ramfs)
    | _ => none
  | .storeFat32 t path flags i =>
    match σ.pc t with
    | .allocated _ fd => some (σ.store t fd path flags (.fat32 i) .fat32)
    | _ => none
  | .close t fd =>
    match σ.pc t with
    | .idle =>
      if σ.given fd = true then
        some { σ.setPc t (.closing fd) with given := update σ.given fd false }
      else none
    | _ => none
  | .closeFile t =>
    match σ.pc t with
    | .closing fd =>
      match (σ.vfs.fds fd).privateData with
      | .handle i =>
        let h := σ.vfs.fs.handles i
        let fs := if h.isDir then σ.vfs.fs else Ramfs.ramfsClose h.ramfsFd σ.vfs.fs
        some ((σ.setFs fs).setPc t (.dropping fd))
      | _ => some (σ.setPc t (.closed fd))
    | _ => none
  | .failClose t =>
    match σ.pc t with
    | .closing fd =>
      match (σ.vfs.fds fd).privateData with
      | .fat32 _ => some (σ.setPc t .idle)
      | _ => none
    | _ => none
  | .drop t =>
    match σ.pc t with
    | .dropping fd =>
      match (σ.vfs.fds fd).privateData with
      | .handle i =>
        some ((σ.setFs (σ.vfs.fs.setHandle i { Handle.free with ramfsFd := -1 })).setPc t (.closed fd))
      | _ => none
    | _ => none
  | .release t =>
    match σ.pc t with
    | .closed fd => some ((σ.setVfs (vfsFreeFd σ.vfs fd)).setPc t .idle)
    | _ => none
  | .ramfsOpen cur node flags =>
    match σ.ramfsClaim cur node flags with
    | none => some σ
    | some (_, σ) => some σ
  | .ramfsRef fd => some (σ.setFs (Ramfs.ramfsFdRef fd σ.vfs.fs).2)
  | .ramfsClose fd => some (σ.setFs (Ramfs.ramfsClose fd σ.vfs.fs))
  | .move fd pos =>
    match Ramfs.fdSlot σ.vfs.fs fd with
    | none => some σ
    | some i => some (σ.setFs (σ.vfs.fs.setFd i { σ.vfs.fs.fds i with pos := pos }))
  | .tree fs => some (σ.setFs { fs with fds := σ.vfs.fs.fds, handles := σ.vfs.fs.handles })

end Sys

/-! ## Quotas -/

/-- Who holds a RAMFS slot. -/
def Sys.ramfsHolder (σ : Sys) (i : Fin Ramfs.maxFds) : Caller :=
  if (σ.vfs.fs.fds i).inUse then σ.ramfsOpener i else none

/-- Who holds a VFS slot. -/
def Sys.vfsHolder (σ : Sys) (i : Fin maxFds) : Caller :=
  if (σ.vfs.fds i).inUse then σ.vfsOpener i else none

/-- The process with this pid and generation. -/
def Process.is (pid generation : Nat) (p : Process) : Bool :=
  decide (p.task.pid = pid) && decide (p.task.generation = generation)

/-- The process does not run with the rights of root. -/
def Process.nonRoot (p : Process) : Bool := decide (p.task.euid ≠ 0)

def Process.nonRootOf (uid : Nat) (p : Process) : Bool := p.nonRoot && decide (p.task.uid = uid)

/-- The process is neither root's nor critical to the system. -/
def Process.unprivileged (p : Process) : Bool := !isPrivileged (some ⟨p.task.uid, p.capabilities⟩)

def Process.unprivilegedOf (uid : Nat) (p : Process) : Bool :=
  p.unprivileged && decide (p.task.uid = uid)

/-- The limits on RAMFS slots. -/
structure RamfsQuotas (held : Fin Ramfs.maxFds → Caller) : Prop where
  process : ∀ pid generation, Lib.heldBy held (Process.is pid generation) ≤ Ramfs.processMaxFds
  user : ∀ uid, Lib.heldBy held (Process.nonRootOf uid) ≤ Ramfs.userMaxFds
  /-- Enough slots are left for root. -/
  reserve : Ramfs.rootReservedFds ≤ tally fun i => !(held i).any Process.nonRoot

/-- The limits on VFS slots. -/
structure VfsQuotas (held : Fin maxFds → Caller) : Prop where
  user : ∀ uid, Lib.heldBy held (Process.unprivilegedOf uid) ≤ userMaxFds
  reserve : ∀ i p, held i = some p → p.unprivileged = true → i.val < maxFds - reservedFds

/-! ## RAMFS slots -/

variable {σ σ' : Sys}

/-- Slots are given up, and otherwise keep their owner. -/
def OnlyReleased (fs fs' : Ramfs.State) : Prop :=
  ∀ i, (fs'.fds i).inUse = true → (fs.fds i).inUse = true ∧
    (fs'.fds i).ownerPid = (fs.fds i).ownerPid ∧
    (fs'.fds i).ownerGeneration = (fs.fds i).ownerGeneration ∧
    (fs'.fds i).ownerUid = (fs.fds i).ownerUid

theorem OnlyReleased.of_eq {fs fs' : Ramfs.State} (h : fs'.fds = fs.fds) : OnlyReleased fs fs' := by
  intro i hi
  rw [h] at hi ⊢
  exact ⟨hi, rfl, rfl, rfl⟩

theorem OnlyReleased.setFd {fs : Ramfs.State} {k : Nat} {x : Ramfs.Fd}
    (h : x.inUse = true → (fs.fds k).inUse = true ∧ x.ownerPid = (fs.fds k).ownerPid ∧
      x.ownerGeneration = (fs.fds k).ownerGeneration ∧ x.ownerUid = (fs.fds k).ownerUid) :
    OnlyReleased fs (fs.setFd k x) := by
  intro i hi
  rw [Ramfs.State.setFd_fds] at hi ⊢
  split at hi
  · rename_i heq
    rw [heq, if_pos rfl]
    exact h hi
  rename_i hne
  rw [if_neg hne]
  exact ⟨hi, rfl, rfl, rfl⟩

theorem ramfsClose_released (fd : Int) (fs : Ramfs.State) :
    OnlyReleased fs (Ramfs.ramfsClose fd fs) := by
  unfold Ramfs.ramfsClose
  split
  · exact .of_eq rfl
  split
  · exact .setFd fun hi => ⟨hi, rfl, rfl, rfl⟩
  · exact .setFd fun hi => by cases hi

theorem ramfsFdRef_released (fd : Int) (fs : Ramfs.State) :
    OnlyReleased fs (Ramfs.ramfsFdRef fd fs).2 := by
  unfold Ramfs.ramfsFdRef
  split
  · exact .of_eq rfl
  split
  · exact .setFd fun hi => ⟨hi, rfl, rfl, rfl⟩
  · exact .of_eq rfl

/-- The slots are within the limits, and their owner fields say who opened them. -/
structure RamfsInv (σ : Sys) : Prop where
  owner : ∀ i p, (σ.vfs.fs.fds i).inUse = true → σ.ramfsOpener i = some p →
    (σ.vfs.fs.fds i).ownerPid = p.task.pid ∧
      (σ.vfs.fs.fds i).ownerGeneration = p.task.generation ∧
      (σ.vfs.fs.fds i).ownerUid = p.task.uid
  quotas : RamfsQuotas σ.ramfsHolder

theorem RamfsInv.holder {i : Fin Ramfs.maxFds} {P : Process → Bool} (h : RamfsInv σ)
    (hi : (σ.ramfsHolder i).any P = true) :
    ∃ p, P p = true ∧ (σ.vfs.fs.fds i).inUse = true ∧ (σ.vfs.fs.fds i).ownerPid = p.task.pid ∧
      (σ.vfs.fs.fds i).ownerGeneration = p.task.generation ∧
      (σ.vfs.fs.fds i).ownerUid = p.task.uid := by
  rw [Sys.ramfsHolder] at hi
  split at hi
  · rename_i huse
    obtain ⟨p, hp, hP⟩ := Option.any_eq_true _ _ |>.mp hi
    exact ⟨p, hP, huse, h.owner i p huse hp⟩
  · cases hi

theorem RamfsQuotas.reserve_iff {held : Fin Ramfs.maxFds → Caller} :
    (Ramfs.rootReservedFds ≤ tally fun i => !(held i).any Process.nonRoot) ↔
      Lib.heldBy held Process.nonRoot ≤ Ramfs.maxFds - Ramfs.rootReservedFds := by
  have hsum := Lib.tally_not fun i => (held i).any nonRoot
  have hle : Ramfs.rootReservedFds ≤ Ramfs.maxFds := by decide
  rw [Lib.heldBy]
  omega

theorem RamfsInv.keep (h : RamfsInv σ) (hopener : σ'.ramfsOpener = σ.ramfsOpener)
    (hfds : OnlyReleased σ.vfs.fs σ'.vfs.fs) : RamfsInv σ' := by
  have hheld : ∀ i, σ'.ramfsHolder i = σ.ramfsHolder i ∨ σ'.ramfsHolder i = none := by
    intro i
    by_cases hi : (σ'.vfs.fs.fds i).inUse = true
    · left
      rw [Sys.ramfsHolder, Sys.ramfsHolder, if_pos hi, if_pos (hfds i hi).1, hopener]
    · right
      rw [Sys.ramfsHolder, if_neg hi]
  constructor
  · intro i p hi hp
    obtain ⟨hold, hpid, hgen, huid⟩ := hfds i hi
    rw [hopener] at hp
    rw [hpid, hgen, huid]
    exact h.owner i p hold hp
  · constructor
    · intro pid generation
      exact (Lib.heldBy_mono _ hheld).trans (h.quotas.process pid generation)
    · intro uid
      exact (Lib.heldBy_mono _ hheld).trans (h.quotas.user uid)
    · refine h.quotas.reserve.trans (Lib.tally_mono ?_)
      intro i hi
      rcases hheld i with heq | heq
      · rwa [heq]
      · rw [heq]
        rfl

/-- What `ramfs_pick_fd` has found out when it returns a slot to a task. -/
theorem ramfsPickFd_limits {t : Ramfs.Task} {fs : Ramfs.State}
    (h : 0 ≤ Ramfs.ramfsPickFd (some t) fs) :
    (tally fun i : Fin Ramfs.maxFds => (fs.fds i).inUse && (fs.fds i).ownerPid == t.pid &&
        (fs.fds i).ownerGeneration == t.generation) < Ramfs.processMaxFds ∧
      (t.euid ≠ 0 →
        (tally fun i : Fin Ramfs.maxFds => (fs.fds i).inUse && (fs.fds i).ownerUid == t.uid) <
            Ramfs.userMaxFds ∧
          Ramfs.rootReservedFds < tally fun i : Fin Ramfs.maxFds => !(fs.fds i).inUse) := by
  simp only [Ramfs.ramfsPickFd, Lib.countP_range] at h
  split at h
  · exact absurd h (by decide)
  split at h
  · exact absurd h (by decide)
  split at h
  · exact absurd h (by decide)
  rename_i hlimits
  refine ⟨by omega, ?_⟩
  intro heuid
  push Not at hlimits
  obtain ⟨huser, havail⟩ := hlimits heuid
  exact ⟨huser, havail⟩

variable {fd flags : Nat} {cur : Caller} {node : NodeId}

theorem ramfsClaim_cases {node : NodeId}
    (h : σ.ramfsClaim cur node flags = some (fd, σ')) :
    fd < Ramfs.maxFds ∧ (σ.vfs.fs.fds fd).inUse = false ∧
      0 ≤ Ramfs.ramfsPickFd cur.ramfs σ.vfs.fs ∧
      σ' = { σ.setFs (σ.vfs.fs.setFd fd (Ramfs.openedFd cur.ramfs node flags)) with
        ramfsOpener := update σ.ramfsOpener fd cur } := by
  have hpick : 0 ≤ Ramfs.ramfsPickFd cur.ramfs σ.vfs.fs := by
    by_contra hneg
    rw [Sys.ramfsClaim, Ramfs.openClaim] at h
    simp only [if_pos (not_le.mp hneg)] at h
    cases h
  rcases Ramfs.openClaim_cases cur.ramfs node flags σ.vfs.fs with ⟨hneg, _⟩ | ⟨i, hlt, hfree, heq⟩
  · rw [Sys.ramfsClaim, if_pos hneg] at h
    cases h
  · rw [Sys.ramfsClaim, heq, if_neg (by simp)] at h
    cases h
    exact ⟨hlt, hfree, hpick, rfl⟩

theorem RamfsInv.claim (h : RamfsInv σ)
    (hclaim : σ.ramfsClaim cur node flags = some (fd, σ')) : RamfsInv σ' := by
  obtain ⟨hlt, hfree, hpick, hσ⟩ := ramfsClaim_cases hclaim
  have hfds : ∀ i, σ'.vfs.fs.fds i =
      if i = fd then Ramfs.openedFd cur.ramfs node flags else σ.vfs.fs.fds i := by
    intro i
    rw [hσ]
    exact Ramfs.State.setFd_fds ..
  have hopener : σ'.ramfsOpener = update σ.ramfsOpener fd cur := by rw [hσ]
  have hother : ∀ i : Fin Ramfs.maxFds, i ≠ ⟨fd, hlt⟩ → σ'.ramfsHolder i = σ.ramfsHolder i := by
    intro i hi
    have hne : i.val ≠ fd := fun heq => hi (Fin.ext heq)
    simp [Sys.ramfsHolder, hfds, hopener, hne]
  have hself : σ'.ramfsHolder ⟨fd, hlt⟩ = cur := by
    simp [Sys.ramfsHolder, hfds, hopener, Ramfs.openedFd]
  -- The counts of `ramfs_pick_fd` go by the owner fields, and so count at least what the task holds.
  constructor
  · intro i p hi hp
    rw [hopener] at hp
    rw [hfds] at hi ⊢
    by_cases hik : i = fd
    · subst hik
      rw [update_self] at hp
      subst hp
      simp [Ramfs.openedFd, Caller.ramfs]
    · rw [update_of_ne hik] at hp
      rw [if_neg hik] at hi ⊢
      exact h.owner i p hi hp
  · constructor
    · intro pid generation
      refine Lib.heldBy_claim ⟨fd, hlt⟩ hother ?_ (h.quotas.process pid generation)
      rw [hself]
      intro p hp his
      subst hp
      refine lt_of_le_of_lt (Lib.tally_mono ?_) (ramfsPickFd_limits hpick).1
      intro i hi
      obtain ⟨q, hq, huse, hpid, hgen, _⟩ := h.holder hi
      simp only [is, Bool.and_eq_true, decide_eq_true_iff] at his hq
      simp [huse, hpid, hgen, hq, his]
    · intro uid
      refine Lib.heldBy_claim ⟨fd, hlt⟩ hother ?_ (h.quotas.user uid)
      rw [hself]
      intro p hp hroot
      subst hp
      simp only [nonRootOf, nonRoot, Bool.and_eq_true, decide_eq_true_iff] at hroot
      refine lt_of_le_of_lt (Lib.tally_mono ?_) ((ramfsPickFd_limits hpick).2 hroot.1).1
      intro i hi
      obtain ⟨q, hq, huse, _, _, huid⟩ := h.holder hi
      simp only [nonRootOf, Bool.and_eq_true, decide_eq_true_iff] at hq
      simp [huse, huid, hq.2, hroot.2]
    · rw [RamfsQuotas.reserve_iff]
      refine Lib.heldBy_claim ⟨fd, hlt⟩ hother ?_ (RamfsQuotas.reserve_iff.mp h.quotas.reserve)
      rw [hself]
      intro p hp hroot
      subst hp
      have havail := ((ramfsPickFd_limits hpick).2 (of_decide_eq_true hroot)).2
      have hsum := Lib.tally_not fun i : Fin Ramfs.maxFds => (σ.vfs.fs.fds i).inUse
      have hle : Lib.heldBy σ.ramfsHolder nonRoot ≤
          tally fun i : Fin Ramfs.maxFds => (σ.vfs.fs.fds i).inUse := by
        apply Lib.tally_mono
        intro i hi
        obtain ⟨q, _, huse, _⟩ := h.holder hi
        exact huse
      omega

/-! ## VFS slots -/

structure VfsInv (σ : Sys) : Prop where
  owner : ∀ i p, (σ.vfs.fds i).inUse = true → σ.vfsOpener i = some p →
    (σ.vfs.fds i).ownerUid = p.task.uid
  quotas : VfsQuotas σ.vfsHolder

theorem VfsInv.keep (h : VfsInv σ) (hopener : σ'.vfsOpener = σ.vfsOpener)
    (hfds : ∀ i, (σ'.vfs.fds i).inUse = true →
      (σ.vfs.fds i).inUse = true ∧ (σ'.vfs.fds i).ownerUid = (σ.vfs.fds i).ownerUid) : VfsInv σ' := by
  have hheld : ∀ i, σ'.vfsHolder i = σ.vfsHolder i ∨ σ'.vfsHolder i = none := by
    intro i
    by_cases hi : (σ'.vfs.fds i).inUse = true
    · left
      rw [Sys.vfsHolder, Sys.vfsHolder, if_pos hi, if_pos (hfds i hi).1, hopener]
    · right
      rw [Sys.vfsHolder, if_neg hi]
  constructor
  · intro i p hi hp
    rw [hopener] at hp
    rw [(hfds i hi).2]
    exact h.owner i p (hfds i hi).1 hp
  · constructor
    · intro uid
      exact (Lib.heldBy_mono _ hheld).trans (h.quotas.user uid)
    · intro i p hp
      rcases hheld i with heq | heq
      · rw [heq] at hp
        exact h.quotas.reserve i p hp
      · rw [heq] at hp
        cases hp

theorem vfsAllocFd_cases {s s' : State} (h : vfsAllocFd s cur = .ok (fd, s')) :
    fd < maxFds ∧ (s.fds fd).inUse = false ∧
      s' = s.setSlot fd
        { s.fds fd with inUse := true, ownerUid := (cur.map fun p => p.task.uid).getD 0 } ∧
      ∀ p, cur = some p → p.unprivileged = true →
        fd < maxFds - reservedFds ∧
          (tally fun i : Fin maxFds => (s.fds i).inUse && decide ((s.fds i).ownerUid = p.task.uid)) <
            userMaxFds := by
  simp only [vfsAllocFd, Vfs.vfsAllocFd, State.forget, Lib.countP_range] at h
  split at h
  · cases h
  rename_i hslot
  cases h
  split at hslot
  · cases hslot
  rename_i hlimit
  split at hslot
  · cases hslot
  rename_i hfind
  cases hslot
  have hfree := List.find?_some hfind
  have hmem := List.mem_range.mp (List.mem_of_find?_eq_some hfind)
  refine ⟨?_, by simpa using hfree, rfl, ?_⟩
  · refine lt_of_lt_of_le hmem ?_
    split
    · exact Nat.le_refl _
    · exact Nat.sub_le _ _
  · intro p hp hunprivileged
    subst hp
    have hpriv : isPrivileged (Caller.vfs (some p)) = false := by
      show isPrivileged (some ⟨p.task.uid, p.capabilities⟩) = false
      simpa [unprivileged] using hunprivileged
    simp only [hpriv] at hmem hlimit
    refine ⟨hmem, ?_⟩
    by_contra hge
    exact hlimit (decide_eq_true (Nat.le_of_not_lt hge))

theorem VfsInv.alloc {s' : State} (h : VfsInv σ)
    (halloc : vfsAllocFd σ.vfs cur = .ok (fd, s')) (hvfs : σ'.vfs = s')
    (hopener : σ'.vfsOpener = update σ.vfsOpener fd cur) : VfsInv σ' := by
  obtain ⟨hlt, hfree, rfl, hlimits⟩ := vfsAllocFd_cases halloc
  have hother : ∀ i : Fin maxFds, i ≠ ⟨fd, hlt⟩ → σ'.vfsHolder i = σ.vfsHolder i := by
    intro i hi
    have hne : i.val ≠ fd := fun heq => hi (Fin.ext heq)
    simp [Sys.vfsHolder, hvfs, hopener, State.setSlot, hne]
  have hself : σ'.vfsHolder ⟨fd, hlt⟩ = cur := by
    simp [Sys.vfsHolder, hvfs, hopener, State.setSlot]
  constructor
  · intro i p hi hp
    rw [hopener] at hp
    rw [hvfs] at hi ⊢
    by_cases hik : i = fd
    · subst hik
      rw [update_self] at hp
      subst hp
      simp [State.setSlot]
    · rw [update_of_ne hik] at hp
      simp only [State.setSlot, update_of_ne hik] at hi ⊢
      exact h.owner i p hi hp
  · constructor
    · intro uid
      refine Lib.heldBy_claim ⟨fd, hlt⟩ hother ?_ (h.quotas.user uid)
      rw [hself]
      intro p hp hof
      simp only [unprivilegedOf, Bool.and_eq_true, decide_eq_true_iff] at hof
      refine lt_of_le_of_lt (Lib.tally_mono ?_) (hlimits p hp hof.1).2
      intro i hi
      rw [Sys.vfsHolder] at hi
      split at hi
      · rename_i huse
        obtain ⟨q, hq, hqof⟩ := Option.any_eq_true _ _ |>.mp hi
        simp only [unprivilegedOf, Bool.and_eq_true, decide_eq_true_iff] at hqof
        simp [huse, h.owner i q huse hq, hqof.2, hof.2]
      · cases hi
    · intro i p hp hunprivileged
      by_cases hi : i = ⟨fd, hlt⟩
      · subst hi
        rw [hself] at hp
        exact (hlimits p hp hunprivileged).1
      · rw [hother i hi] at hp
        exact h.quotas.reserve i p hp hunprivileged

/-! ## Slots and handles -/

/-- The thread is in no call on the slot. -/
abbrev Pc.Avoids (p : Pc) (fd : Nat) : Prop := p.opens ≠ some fd ∧ p.closes ≠ some fd

/-- The handle goes with the slot: the open of the slot has just filled it, or it is in the slot and
the driver's `close` has not freed it. -/
def Uses (σ : Sys) (fd i : Nat) : Prop :=
  (∃ t, σ.pc t = .filled fd i) ∨
    ((σ.vfs.fds fd).privateData = .handle i ∧ ∀ t, σ.pc t ≠ .closed fd)

structure Inv (σ : Sys) : Prop where
  cleared : ∀ i, (σ.vfs.fds i).inUse = false → σ.vfs.fds i = {}
  /-- An unfinished open has changed two fields of a cleared slot. -/
  opens : ∀ t fd, (σ.pc t).opens = some fd →
    fd < maxFds ∧ σ.given fd = false ∧ ∃ uid, σ.vfs.fds fd = { inUse := true, ownerUid := uid }
  opensOnce : ∀ t t' fd, (σ.pc t).opens = some fd → (σ.pc t').opens = some fd → t = t'
  closes : ∀ t fd, (σ.pc t).closes = some fd →
    σ.given fd = false ∧ (σ.vfs.fds fd).inUse = true ∧ (σ.vfs.fds fd).ops ≠ none
  closesOnce : ∀ t t' fd, (σ.pc t).closes = some fd → (σ.pc t').closes = some fd → t = t'
  given : ∀ fd, σ.given fd = true → (σ.vfs.fds fd).inUse = true ∧ (σ.vfs.fds fd).ops ≠ none
  inRange : ∀ i, (σ.vfs.fds i).inUse = true → i < maxFds
  handle : ∀ i, i < 64 → (σ.vfs.fs.handles i).inUse = true → Uses σ (σ.handleFor i) i

namespace Inv

variable {i : Nat}
variable (h : Inv σ)

include h

theorem uses_inUse (huses : Uses σ fd i) : (σ.vfs.fds fd).inUse = true := by
  rcases huses with ⟨t, ht⟩ | ⟨hpriv, _⟩
  · obtain ⟨_, _, uid, hslot⟩ := h.opens t fd (by rw [ht]; rfl)
    rw [hslot]
  · by_contra hfree
    rw [h.cleared fd (by simpa using hfree)] at hpriv
    cases hpriv

theorem uses_unique {j : Nat} (hi : Uses σ fd i) (hj : Uses σ fd j) : i = j := by
  have hnull : ∀ t k, σ.pc t = .filled fd k → (σ.vfs.fds fd).privateData = .null := by
    intro t k ht
    obtain ⟨_, _, uid, hslot⟩ := h.opens t fd (by rw [ht]; rfl)
    rw [hslot]
  rcases hi with ⟨t, ht⟩ | ⟨hi, _⟩
  · rcases hj with ⟨t', ht'⟩ | ⟨hj, _⟩
    · have heq := h.opensOnce t t' fd (by rw [ht]; rfl) (by rw [ht']; rfl)
      rw [heq, ht'] at ht
      cases ht
      rfl
    · rw [hnull t i ht] at hj
      cases hj
  · rcases hj with ⟨t', ht'⟩ | ⟨hj, _⟩
    · rw [hnull t' j ht'] at hi
      cases hi
    · rw [hi] at hj
      cases hj
      rfl

variable {t : Nat}

/-- What is known of the slot of an open, -/
theorem opening {p : Pc} (ht : σ.pc t = p) (hp : p.opens = some fd) :
    fd < maxFds ∧ σ.given fd = false ∧ ∃ uid, σ.vfs.fds fd = { inUse := true, ownerUid := uid } := by
  apply h.opens t
  rw [ht]
  exact hp

/-- and of the slot of a close. -/
theorem closing {p : Pc} (ht : σ.pc t = p) (hp : p.closes = some fd) :
    σ.given fd = false ∧ (σ.vfs.fds fd).inUse = true ∧ (σ.vfs.fds fd).ops ≠ none := by
  apply h.closes t
  rw [ht]
  exact hp

/-- Nobody opens the slot meanwhile. -/
theorem not_filled {p : Pc} (ht : σ.pc t = p) (hp : p.closes = some fd) (t' : Nat) :
    σ.pc t' ≠ .filled fd i := by
  intro hfilled
  obtain ⟨_, _, uid, hslot⟩ := h.opening hfilled rfl
  refine (h.closing ht hp).2.2 ?_
  rw [hslot]

/-- No handle goes with the slot of an open that has not filled one. -/
theorem not_uses {p : Pc} (ht : σ.pc t = p) (hp : p.opens = some fd) (hfilled : ∀ j, p ≠ .filled fd j) :
    ¬Uses σ fd i := by
  intro huses
  rcases huses with ⟨t', ht'⟩ | ⟨hpriv, _⟩
  · have heq := h.opensOnce t t' fd (by rw [ht]; exact hp) (by rw [ht']; rfl)
    rw [← heq, ht] at ht'
    exact hfilled i ht'
  · obtain ⟨_, _, uid, hslot⟩ := h.opening ht hp
    rw [hslot] at hpriv
    cases hpriv

theorem freeHandle (hfd : fd < maxFds) (hnone : ∀ i, ¬Uses σ fd i) :
    (Ramfs.ramfsAllocHandle σ.vfs.fs).isSome = true := by
  rw [← Bool.not_eq_false, Option.isSome_eq_false_iff, Option.isNone_iff_eq_none]
  intro hfull
  -- Then all handles are in use, and so is a slot for each of them.
  have huses : ∀ i : Fin 64, Uses σ (σ.handleFor i) i := by
    intro i
    have hbusy := List.find?_eq_none.mp hfull i.val (List.mem_range.mpr i.isLt)
    exact h.handle i.val i.isLt (by simpa using hbusy)
  let f : Fin 64 → Fin 64 := fun i => ⟨σ.handleFor i, h.inRange _ (h.uses_inUse (huses i))⟩
  have hinj : Function.Injective f := by
    intro i j hij
    have hval : σ.handleFor i = σ.handleFor j := congrArg Fin.val hij
    have hj := huses j
    rw [← hval] at hj
    exact Fin.ext (h.uses_unique (huses i) hj)
  obtain ⟨i, hi⟩ := Finite.injective_iff_surjective.mp hinj ⟨fd, hfd⟩
  have hslot : σ.handleFor i = fd := congrArg Fin.val hi
  have hbad := huses i
  rw [hslot] at hbad
  exact hnone i hbad

/-- A step of the thread `t`, which works on the slot `k` as no other thread does. -/
theorem step {k : Nat} {p : Pc} (hpc : σ'.pc = update σ.pc t p)
    (hfds : ∀ i, i ≠ k → σ'.vfs.fds i = σ.vfs.fds i)
    (hgiven : ∀ i, i ≠ k → σ'.given i = σ.given i) (hold : ∀ i, (σ.pc t).opens = some i → i = k)
    (hexcl : ∀ t', t' ≠ t → (σ.pc t').Avoids k)
    (hk : σ'.vfs.fds k = {} ∧ σ'.given k = false ∨
      k < maxFds ∧ (σ'.vfs.fds k).inUse = true ∧ (σ'.given k = true → (σ'.vfs.fds k).ops ≠ none))
    (hopens : ∀ i, p.opens = some i → i = k ∧ k < maxFds ∧ σ'.given k = false ∧
      ∃ uid, σ'.vfs.fds k = { inUse := true, ownerUid := uid })
    (hcloses : ∀ i, p.closes = some i → i = k ∧ σ'.given k = false ∧
      (σ'.vfs.fds k).inUse = true ∧ (σ'.vfs.fds k).ops ≠ none)
    (hhandle : ∀ i, i < 64 → (σ'.vfs.fs.handles i).inUse = true →
      σ'.handleFor i = k ∧ Uses σ' k i ∨
        σ'.handleFor i ≠ k ∧ σ'.handleFor i = σ.handleFor i ∧ (σ.vfs.fs.handles i).inUse = true) :
    Inv σ' := by
  have hself : σ'.pc t = p := by rw [hpc, update_self]
  have hothers : ∀ t', t' ≠ t → σ'.pc t' = σ.pc t' := by
    intro t' hne
    rw [hpc, update_of_ne hne]
  exact
  { cleared i hi := by
      by_cases hik : i = k
      · rw [hik] at hi ⊢
        rcases hk with ⟨hempty, _⟩ | ⟨_, huse, _⟩
        · exact hempty
        · cases huse.symm.trans hi
      · rw [hfds i hik] at hi ⊢
        exact h.cleared i hi
    opens t' i hi := by
      by_cases ht : t' = t
      · rw [ht, hself] at hi
        obtain ⟨rfl, hfacts⟩ := hopens i hi
        exact hfacts
      · rw [hothers t' ht] at hi
        have hik : i ≠ k := fun heq => (hexcl t' ht).1 (heq ▸ hi)
        rw [hfds i hik, hgiven i hik]
        exact h.opens t' i hi
    opensOnce := Lib.once_step h.opensOnce (fun t' ht => by rw [hothers t' ht]) fun i hi t' ht => by
      rw [hself] at hi
      rw [(hopens i hi).1]
      exact (hexcl t' ht).1
    closes t' i hi := by
      by_cases ht : t' = t
      · rw [ht, hself] at hi
        obtain ⟨rfl, hfacts⟩ := hcloses i hi
        exact hfacts
      · rw [hothers t' ht] at hi
        have hik : i ≠ k := fun heq => (hexcl t' ht).2 (heq ▸ hi)
        rw [hfds i hik, hgiven i hik]
        exact h.closes t' i hi
    closesOnce := Lib.once_step h.closesOnce (fun t' ht => by rw [hothers t' ht]) fun i hi t' ht => by
      rw [hself] at hi
      rw [(hcloses i hi).1]
      exact (hexcl t' ht).2
    given i hi := by
      by_cases hik : i = k
      · rw [hik] at hi ⊢
        rcases hk with ⟨_, hnot⟩ | ⟨_, huse, hops⟩
        · cases hnot.symm.trans hi
        · exact ⟨huse, hops hi⟩
      rw [hgiven i hik] at hi
      rw [hfds i hik]
      exact h.given i hi
    inRange i hi := by
      by_cases hik : i = k
      · rw [hik] at hi ⊢
        rcases hk with ⟨hempty, _⟩ | ⟨hlt, _⟩
        · rw [hempty] at hi
          cases hi
        · exact hlt
      · rw [hfds i hik] at hi
        exact h.inRange i hi
    handle i hi huse := by
      rcases hhandle i hi huse with ⟨heq, huses⟩ | ⟨hne, heq, hbusy⟩
      · rwa [heq]
      · -- The slot of this handle is not the one the step works on.
        rw [heq] at hne ⊢
        rcases h.handle i hi hbusy with ⟨t', ht'⟩ | ⟨hpriv, hnot⟩
        · have ht : t' ≠ t := by
            intro heq
            refine hne (hold _ ?_)
            rw [← heq, ht']
            rfl
          exact .inl ⟨t', (hothers t' ht).trans ht'⟩
        · refine .inr ⟨by rwa [hfds _ hne], ?_⟩
          intro t' hclosed
          by_cases ht : t' = t
          · rw [ht, hself] at hclosed
            exact hne (hcloses _ (by rw [hclosed]; rfl)).1
          · rw [hothers t' ht] at hclosed
            exact hnot t' hclosed }

/-- Nobody else works on the slot of an open, -/
theorem open_alone {p : Pc} (ht : σ.pc t = p) (hp : p.opens = some fd) :
    ∀ t', t' ≠ t → (σ.pc t').Avoids fd := by
  intro t' hne
  constructor
  · intro hi
    exact hne (h.opensOnce t' t fd hi (by rw [ht]; exact hp))
  · intro hi
    obtain ⟨_, _, uid, hslot⟩ := h.opening ht hp
    refine (h.closes t' fd hi).2.2 ?_
    rw [hslot]

/-- or on the slot of a close, -/
theorem close_alone {p : Pc} (ht : σ.pc t = p) (hp : p.closes = some fd) :
    ∀ t', t' ≠ t → (σ.pc t').Avoids fd := by
  intro t' hne
  constructor
  · intro hi
    obtain ⟨_, _, uid, hslot⟩ := h.opens t' fd hi
    refine (h.closing ht hp).2.2 ?_
    rw [hslot]
  · intro hi
    exact hne (h.closesOnce t' t fd hi (by rw [ht]; exact hp))

/-- and nobody at all on one that a task has, -/
theorem given_alone (hgiven : σ.given fd = true) (t : Nat) :
    (σ.pc t).Avoids fd := by
  constructor
  · intro hi
    have hnot := (h.opens t fd hi).2.1
    rw [hgiven] at hnot
    cases hnot
  · intro hi
    have hnot := (h.closes t fd hi).1
    rw [hgiven] at hnot
    cases hnot

/-- or on a free one. -/
theorem free_alone (hfree : (σ.vfs.fds fd).inUse = false) (t : Nat) :
    (σ.pc t).Avoids fd := by
  constructor
  · intro hi
    obtain ⟨_, _, uid, hslot⟩ := h.opens t fd hi
    rw [hslot] at hfree
    cases hfree
  · intro hi
    rw [(h.closes t fd hi).2.1] at hfree
    cases hfree

theorem alloc {uid : Nat} (ht : σ.pc t = .idle) (hlt : fd < maxFds)
    (hfree : (σ.vfs.fds fd).inUse = false)
    (hpc : σ'.pc = update σ.pc t (.allocated cur fd))
    (hfds : σ'.vfs.fds = update σ.vfs.fds fd { σ.vfs.fds fd with inUse := true, ownerUid := uid })
    (hgiven : σ'.given = σ.given) (hhandles : σ'.vfs.fs.handles = σ.vfs.fs.handles)
    (hfor : σ'.handleFor = σ.handleFor) : Inv σ' := by
  have hnot : σ.given fd = false := by
    by_contra hgive
    rw [(h.given fd (by simpa using hgive)).1] at hfree
    cases hfree
  have hslot : σ'.vfs.fds fd = { inUse := true, ownerUid := uid } := by
    rw [hfds, update_self, h.cleared fd hfree]
  apply h.step (k := fd) hpc
  · intro i hi
    rw [hfds, update_of_ne hi]
  · intro i _
    rw [hgiven]
  · intro i hi
    rw [ht] at hi
    cases hi
  · intro t' _
    exact h.free_alone hfree t'
  · rw [hslot, hgiven, hnot]
    exact .inr ⟨hlt, rfl, nofun⟩
  · intro i hi
    cases hi
    rw [hgiven]
    exact ⟨rfl, hlt, hnot, uid, hslot⟩
  · intro i hi
    cases hi
  · intro i hi huse
    rw [hhandles] at huse
    rw [hfor]
    refine .inr ⟨?_, rfl, huse⟩
    intro hfd
    -- A slot that a handle goes with is in use already.
    have hbusy := h.uses_inUse (h.handle i hi huse)
    rw [hfd, hfree] at hbusy
    cases hbusy

/-- A step of an open that neither stores anything in its slot nor has filled a handle. -/
theorem open_step {p q : Pc} (ht : σ.pc t = q) (hq : q.opens = some fd) (hfilled : ∀ j, q ≠ .filled fd j)
    (hpc : σ'.pc = update σ.pc t p) (hfds : σ'.vfs.fds = σ.vfs.fds)
    (hgiven : σ'.given = σ.given) (hopens : p.opens = some fd) (hcloses : p.closes = none)
    (hhandle : ∀ i, i < 64 → (σ'.vfs.fs.handles i).inUse = true →
      σ'.handleFor i = fd ∧ Uses σ' fd i ∨
        σ'.handleFor i = σ.handleFor i ∧ (σ.vfs.fs.handles i).inUse = true) :
    Inv σ' := by
  obtain ⟨hlt, hnot, uid, hslot⟩ := h.opening ht hq
  apply h.step (k := fd) hpc
  · intro i _
    rw [hfds]
  · intro i _
    rw [hgiven]
  · intro i hi
    rw [ht, hq] at hi
    cases hi
    rfl
  · exact h.open_alone ht hq
  · rw [hfds, hslot, hgiven, hnot]
    exact .inr ⟨hlt, rfl, nofun⟩
  · intro i hi
    rw [hopens] at hi
    cases hi
    rw [hfds, hgiven]
    exact ⟨rfl, hlt, hnot, uid, hslot⟩
  · intro i hi
    rw [hcloses] at hi
    cases hi
  · intro i hi huse
    rcases hhandle i hi huse with hnew | ⟨heq, hbusy⟩
    · exact .inl hnew
    · refine .inr ⟨?_, heq, hbusy⟩
      intro hfd
      have huses := h.handle i hi hbusy
      rw [← heq, hfd] at huses
      exact h.not_uses ht hq hfilled huses

/-- A thread writes to the slot that it alone works on, and is done. -/
theorem finish {x : Slot} (hold : ∀ i, (σ.pc t).opens = some i → i = fd)
    (halone : ∀ t', t' ≠ t → (σ.pc t').Avoids fd)
    (hlt : fd < maxFds) (hpc : σ'.pc = update σ.pc t .idle)
    (hfds : σ'.vfs.fds = update σ.vfs.fds fd x)
    (hgiven : ∀ i, i ≠ fd → σ'.given i = σ.given i)
    (hx : x = {} ∧ σ'.given fd = false ∨ x.inUse = true ∧ x.ops ≠ none)
    (hhandles : σ'.vfs.fs.handles = σ.vfs.fs.handles) (hfor : σ'.handleFor = σ.handleFor)
    (huses : ∀ i, Uses σ fd i → x.privateData = .handle i) : Inv σ' := by
  have hslot : σ'.vfs.fds fd = x := by rw [hfds, update_self]
  apply h.step (k := fd) hpc
  · intro i hi
    rw [hfds, update_of_ne hi]
  · exact hgiven
  · exact hold
  · exact halone
  · rw [hslot]
    exact hx.imp_right fun hbusy => ⟨hlt, hbusy.1, fun _ => hbusy.2⟩
  · intro i hi
    cases hi
  · intro i hi
    cases hi
  · intro i hi huse
    rw [hhandles] at huse
    rw [hfor]
    by_cases hfd : σ.handleFor i = fd
    · refine .inl ⟨hfd, .inr ⟨?_, ?_⟩⟩
      · rw [hslot]
        exact huses i (hfd ▸ h.handle i hi huse)
      · intro t' hclosed
        rw [hpc] at hclosed
        by_cases ht : t' = t
        · rw [ht, update_self] at hclosed
          cases hclosed
        rw [update_of_ne ht] at hclosed
        refine (halone t' ht).2 ?_
        rw [hclosed]
        rfl
    · exact .inr ⟨hfd, rfl, huse⟩

theorem close_step {p : Pc} (hold : (σ.pc t).opens = none)
    (halone : ∀ t', t' ≠ t → (σ.pc t').Avoids fd)
    (hslot : (σ.vfs.fds fd).inUse = true ∧ (σ.vfs.fds fd).ops ≠ none)
    (hpc : σ'.pc = update σ.pc t p) (hopens : p.opens = none)
    (hcloses : p.closes = some fd) (hfds : σ'.vfs.fds = σ.vfs.fds)
    (hgiven : ∀ i, i ≠ fd → σ'.given i = σ.given i) (hnot : σ'.given fd = false)
    (hhandles : ∀ i, (σ'.vfs.fs.handles i).inUse = true → (σ.vfs.fs.handles i).inUse = true)
    (hfor : σ'.handleFor = σ.handleFor)
    (huses : ∀ i, (σ'.vfs.fs.handles i).inUse = true → (σ.vfs.fds fd).privateData = .handle i →
      p ≠ .closed fd) :
    Inv σ' := by
  apply h.step (k := fd) hpc
  · intro i _
    rw [hfds]
  · exact hgiven
  · intro i hi
    rw [hold] at hi
    cases hi
  · exact halone
  · rw [hfds]
    exact .inr ⟨h.inRange fd hslot.1, hslot.1, fun _ => hslot.2⟩
  · intro i hi
    rw [hopens] at hi
    cases hi
  · intro i hi
    rw [hcloses] at hi
    cases hi
    rw [hfds]
    exact ⟨rfl, hnot, hslot⟩
  · intro i hi huse
    rw [hfor]
    by_cases hfd : σ.handleFor i = fd
    · left
      refine ⟨hfd, ?_⟩
      have hused := h.handle i hi (hhandles i huse)
      rw [hfd] at hused
      rcases hused with ⟨t', ht'⟩ | ⟨hpriv, hnever⟩
      · -- Nobody opens the slot.
        exfalso
        have hopening : (σ.pc t').opens = some fd := by
          rw [ht']
          rfl
        by_cases ht : t' = t
        · rw [ht, hold] at hopening
          cases hopening
        · exact (halone t' ht).1 hopening
      · refine .inr ⟨by rwa [hfds], ?_⟩
        intro t' hclosed
        rw [hpc] at hclosed
        by_cases ht : t' = t
        · rw [ht, update_self] at hclosed
          exact huses i huse hpriv hclosed
        · rw [update_of_ne ht] at hclosed
          exact hnever t' hclosed
    · exact .inr ⟨hfd, rfl, hhandles i huse⟩

end Inv

/-! ## Every step -/

structure Good (σ : Sys) : Prop where
  slots : Inv σ
  ramfs : RamfsInv σ
  vfs : VfsInv σ

/-- What the tables of the VFS and the threads say depends on RAMFS only through the handles. -/
theorem Inv.setFs {fs : Ramfs.State} (h : Inv σ) (hhandles : fs.handles = σ.vfs.fs.handles) :
    Inv (σ.setFs fs) :=
  { h with
    handle := fun i hi huse => by
      rw [show (σ.setFs fs).vfs.fs.handles = σ.vfs.fs.handles from hhandles] at huse
      exact h.handle i hi huse }

/-- RAMFS changes, but not the handles, and slots are only given up. -/
theorem Good.setFs {fs : Ramfs.State} (h : Good σ) (hhandles : fs.handles = σ.vfs.fs.handles)
    (hfds : OnlyReleased σ.vfs.fs fs) : Good (σ.setFs fs) where
  slots := h.slots.setFs hhandles
  ramfs := h.ramfs.keep rfl hfds
  vfs := h.vfs.keep rfl fun _ hi => ⟨hi, rfl⟩

theorem Good.claim (h : Good σ)
    (hclaim : σ.ramfsClaim cur node flags = some (fd, σ')) : Good σ' := by
  have hramfs := h.ramfs.claim hclaim
  obtain ⟨_, _, _, rfl⟩ := ramfsClaim_cases hclaim
  have hslots : Inv (σ.setFs (σ.vfs.fs.setFd fd (Ramfs.openedFd cur.ramfs node flags))) :=
    h.slots.setFs rfl
  exact ⟨{ hslots with }, hramfs, h.vfs.keep rfl fun _ hi => ⟨hi, rfl⟩⟩

theorem Good.keep (h : Good σ) (hslots : Inv σ') (hramfs : σ'.ramfsOpener = σ.ramfsOpener)
    (hvfs : σ'.vfsOpener = σ.vfsOpener) (hramfsFds : σ'.vfs.fs.fds = σ.vfs.fs.fds)
    (hfds : σ'.vfs.fds = σ.vfs.fds) : Good σ' where
  slots := hslots
  ramfs := h.ramfs.keep hramfs (.of_eq hramfsFds)
  vfs := h.vfs.keep hvfs fun _ hi => by
    rw [hfds] at hi ⊢
    exact ⟨hi, rfl⟩

/-- A thread goes on in its open, before a handle is filled. -/
theorem Good.advance {t : Nat} {p q : Pc} (h : Good σ) (ht : σ.pc t = q) (hq : q.opens = some fd)
    (hfilled : ∀ j, q ≠ .filled fd j) (hopens : p.opens = some fd) (hcloses : p.closes = none) :
    Good (σ.setPc t p) := by
  refine h.keep (h.slots.open_step ht hq hfilled rfl rfl rfl hopens hcloses ?_) rfl rfl rfl rfl
  intro i _ huse
  exact .inr ⟨rfl, huse⟩

/-- A step frees one VFS slot, or fills it for the same owner. -/
theorem VfsInv.write {x : Slot} (h : VfsInv σ) (hopener : σ'.vfsOpener = σ.vfsOpener)
    (hfds : σ'.vfs.fds = update σ.vfs.fds fd x)
    (hx : x.inUse = true → (σ.vfs.fds fd).inUse = true ∧ x.ownerUid = (σ.vfs.fds fd).ownerUid) :
    VfsInv σ' := by
  apply h.keep hopener
  intro i hi
  rw [hfds] at hi ⊢
  by_cases hik : i = fd
  · rw [hik, update_self] at hi ⊢
    exact hx hi
  · rw [update_of_ne hik] at hi ⊢
    exact ⟨hi, rfl⟩

section steps

variable {t : Nat} (h : Good σ)

include h

theorem alloc_good {s' : State} (ht : σ.pc t = .idle)
    (halloc : vfsAllocFd σ.vfs cur = .ok (fd, s')) :
    Good { (σ.setVfs s').setPc t (.allocated cur fd) with vfsOpener := update σ.vfsOpener fd cur } := by
  obtain ⟨hlt, hfree, rfl, _⟩ := vfsAllocFd_cases halloc
  constructor
  · exact h.slots.alloc ht hlt hfree rfl rfl rfl rfl rfl
  · exact h.ramfs.keep rfl (.of_eq rfl)
  · exact h.vfs.alloc halloc rfl rfl

theorem abandon_good (ht : σ.pc t = .allocated cur fd) :
    Good ((σ.setVfs (vfsFreeFd σ.vfs fd)).setPc t .idle) := by
  obtain ⟨hlt, hnot, _⟩ := h.slots.opening ht rfl
  constructor
  · refine h.slots.finish ?_ (h.slots.open_alone ht rfl) hlt rfl rfl (fun _ _ => rfl)
      (.inl ⟨rfl, hnot⟩) rfl rfl ?_
    · intro i hi
      rw [ht] at hi
      exact (Option.some.inj hi).symm
    · intro i huses
      exact absurd huses (h.slots.not_uses ht rfl nofun)
  · exact h.ramfs.keep rfl (.of_eq rfl)
  · exact h.vfs.write rfl rfl fun hi => by cases hi

theorem claim_good {ramfsFd : Nat} (ht : σ.pc t = .allocated cur fd)
    (hclaim : σ.ramfsClaim cur node flags = some (ramfsFd, σ')) :
    Good (σ'.setPc t (.opened cur fd ramfsFd)) := by
  have hpc : σ'.pc t = .allocated cur fd := by
    obtain ⟨_, _, _, rfl⟩ := ramfsClaim_cases hclaim
    exact ht
  exact (h.claim hclaim).advance hpc rfl nofun rfl rfl

theorem pickHandle_good {x : Handle} {p : Pc} (ht : σ.pc t = p) (hp : p.opens = some fd)
    (hfilled : ∀ j, p ≠ .filled fd j) (hpick : σ.pickHandle t fd x = some σ') : Good σ' := by
  rw [Sys.pickHandle, Option.map_eq_some_iff] at hpick
  obtain ⟨i, _, rfl⟩ := hpick
  exact h.advance ht hp hfilled rfl rfl

theorem fill_good {i : Nat} {x : Handle} (ht : σ.pc t = .picked fd i x) :
    Good { (σ.setFs (σ.vfs.fs.setHandle i x)).setPc t (.filled fd i) with
      handleFor := update σ.handleFor i fd } := by
  refine h.keep (h.slots.open_step ht rfl nofun rfl rfl rfl rfl rfl ?_) rfl rfl rfl rfl
  intro j _ huse
  by_cases hj : j = i
  · subst hj
    left
    exact ⟨update_self .., .inl ⟨t, update_self ..⟩⟩
  · right
    simpa [Sys.setFs, Sys.setPc, State.setFs, Ramfs.State.setHandle, hj] using huse

theorem store_good {path : Str} {flags : UInt32} {priv : Private} {d : Driver} {p : Pc}
    (ht : σ.pc t = p) (hp : p.opens = some fd) (huses : ∀ i, Uses σ fd i → priv = .handle i) :
    Good (σ.store t fd path flags priv d) := by
  obtain ⟨hlt, _, uid, hslot⟩ := h.slots.opening ht hp
  constructor
  · refine h.slots.finish ?_ (h.slots.open_alone ht hp) hlt rfl rfl ?_ ?_ rfl rfl huses
    · intro i hi
      rw [ht, hp] at hi
      exact (Option.some.inj hi).symm
    · intro i hi
      exact update_of_ne hi ..
    · rw [hslot]
      exact .inr ⟨rfl, nofun⟩
  · exact h.ramfs.keep rfl (.of_eq rfl)
  · exact h.vfs.write rfl rfl fun hi => ⟨hi, rfl⟩

theorem close_good (ht : σ.pc t = .idle) (hgiven : σ.given fd = true) :
    Good { σ.setPc t (.closing fd) with given := update σ.given fd false } := by
  refine h.keep (h.slots.close_step ?_ (fun t' _ => h.slots.given_alone hgiven t')
    (h.slots.given fd hgiven) rfl rfl rfl rfl ?_ ?_ (fun _ hi => hi) rfl ?_) rfl rfl rfl rfl
  · rw [ht]
    rfl
  · intro i hi
    exact update_of_ne hi ..
  · exact update_self ..
  · intro i _ _
    exact Pc.noConfusion

/-- The driver goes on in its `close`, which leaves the handles alone. -/
theorem closing_good {p : Pc} (ht : σ.pc t = .closing fd) (hopens : p.opens = none)
    (hcloses : p.closes = some fd)
    (huses : ∀ i, (σ.vfs.fds fd).privateData = .handle i → p ≠ .closed fd) : Good (σ.setPc t p) := by
  obtain ⟨hnot, hslot⟩ := h.slots.closing ht rfl
  refine h.keep (h.slots.close_step ?_ (h.slots.close_alone ht rfl) hslot rfl hopens hcloses rfl
    (fun _ _ => rfl) hnot (fun _ hi => hi) rfl fun i _ => huses i) rfl rfl rfl rfl
  rw [ht]
  rfl

/-- The slot stays as it is, and nobody works on it any more. -/
theorem failClose_good (ht : σ.pc t = .closing fd) : Good (σ.setPc t .idle) := by
  obtain ⟨_, hslot⟩ := h.slots.closing ht rfl
  refine h.keep (h.slots.finish ?_ (h.slots.close_alone ht rfl) (h.slots.inRange fd hslot.1) rfl
    (update_eq_self fd _).symm (fun _ _ => rfl) (.inr hslot) rfl rfl ?_) rfl rfl rfl rfl
  · intro i hi
    rw [ht] at hi
    cases hi
  · intro i huses
    rcases huses with ⟨t', ht'⟩ | ⟨hpriv, _⟩
    · exact absurd ht' (h.slots.not_filled ht rfl t')
    · exact hpriv

theorem drop_good {i : Nat} (ht : σ.pc t = .dropping fd)
    (hpriv : (σ.vfs.fds fd).privateData = .handle i) :
    Good ((σ.setFs (σ.vfs.fs.setHandle i { Handle.free with ramfsFd := -1 })).setPc t (.closed fd)) := by
  obtain ⟨hnot, hslot⟩ := h.slots.closing ht rfl
  have hfreed : ∀ j, ((σ.vfs.fs.setHandle i { Handle.free with ramfsFd := -1 }).handles j).inUse = true →
      j ≠ i ∧ (σ.vfs.fs.handles j).inUse = true := by
    intro j hj
    rw [Ramfs.State.setHandle_handles] at hj
    split at hj
    · cases hj
    · rename_i hne
      exact ⟨hne, hj⟩
  refine h.keep (h.slots.close_step ?_ (h.slots.close_alone ht rfl) hslot rfl rfl rfl rfl
    (fun _ _ => rfl) hnot (fun j hj => (hfreed j hj).2) rfl ?_) rfl rfl rfl rfl
  · rw [ht]
    rfl
  · intro j hj hjpriv
    rw [hpriv] at hjpriv
    cases hjpriv
    exact absurd rfl (hfreed i hj).1

theorem release_good (ht : σ.pc t = .closed fd) :
    Good ((σ.setVfs (vfsFreeFd σ.vfs fd)).setPc t .idle) := by
  obtain ⟨hnot, huse, _⟩ := h.slots.closing ht rfl
  have halone := h.slots.close_alone ht rfl
  constructor
  · refine h.slots.finish ?_ halone (h.slots.inRange fd huse) rfl rfl (fun _ _ => rfl)
      (.inl ⟨rfl, hnot⟩) rfl rfl ?_
    · intro i hi
      rw [ht] at hi
      cases hi
    · intro i huses
      rcases huses with ⟨t', ht'⟩ | ⟨_, hnever⟩
      · exact absurd ht' (h.slots.not_filled ht rfl t')
      · exact absurd ht (hnever t)
  · exact h.ramfs.keep rfl (.of_eq rfl)
  · exact h.vfs.write rfl rfl fun hi => by cases hi

theorem next_good {e : Event} (hnext : σ.next e = some σ') : Good σ' := by
  have hclose (fd : Int) := h.setFs (Ramfs.ramfsClose_handles fd σ.vfs.fs)
    (ramfsClose_released fd σ.vfs.fs)
  revert hnext
  fun_cases Sys.next σ e <;> intro hnext <;> cases hnext
  -- Nothing has happened.
  case case1 | case6 | case34 | case38 => exact h
  case case2 ht _ _ halloc => exact alloc_good h ht halloc
  case case4 ht => exact abandon_good h ht
  case case7 ht _ _ hclaim => exact claim_good h ht hclaim
  case case9 ht _ => exact (hclose _).advance ht rfl nofun rfl rfl
  case case10 ht hpick => exact pickHandle_good h ht rfl nofun hpick
  case case12 t dir _ fd ht =>
    cases hpick : σ.pickHandle t fd (dirHandle dir) with
    | none => exact h
    | some σ₁ => exact pickHandle_good h ht rfl nofun hpick
  case case14 ht => exact fill_good h ht
  case case16 t _ _ _ _ ht =>
    refine store_good h ht rfl fun j huses => ?_
    rw [h.slots.uses_unique huses (.inl ⟨t, ht⟩)]
  case case18 ht => exact store_good h ht rfl fun j huses => absurd huses (h.slots.not_uses ht rfl nofun)
  case case20 ht hgiven => exact close_good h ht hgiven
  case case23 ht i _ h' fs =>
    -- A directory has no RAMFS slot.
    have hgood : Good (σ.setFs fs) := by
      unfold fs
      split
      · exact h
      · exact hclose _
    exact closing_good hgood ht rfl rfl fun _ _ => Pc.noConfusion
  case case24 ht hpriv => exact closing_good h ht rfl rfl fun i hi => absurd hi (hpriv i)
  case case26 ht _ _ => exact failClose_good h ht
  case case29 ht _ hpriv => exact drop_good h ht hpriv
  case case32 ht => exact release_good h ht
  case case35 hclaim => exact h.claim hclaim
  case case36 fd =>
    exact h.setFs (Ramfs.ramfsFdRef_handles fd σ.vfs.fs) (ramfsFdRef_released fd σ.vfs.fs)
  case case37 fd => exact hclose fd
  case case39 => exact h.setFs rfl (.setFd fun hi => ⟨hi, rfl, rfl, rfl⟩)
  case case40 => exact h.setFs rfl (.of_eq rfl)

end steps

/-! ## Failed opens -/

section failures

variable {cur : Ramfs.Caller} {alloc : Bool} {fs : Ramfs.State}

theorem takeHandle_ok (ramfsFd : Int) (hpool : (Ramfs.ramfsAllocHandle fs).isSome = true) {e : Int} :
    (takeHandle ramfsFd fs).1 ≠ .error e := by
  unfold takeHandle
  split
  · rename_i hnone
    rw [hnone] at hpool
    cases hpool
  · nofun

theorem ramfsAllocHandle_congr {fs' : Ramfs.State} (h : fs'.handles = fs.handles) :
    Ramfs.ramfsAllocHandle fs' = Ramfs.ramfsAllocHandle fs := by
  unfold Ramfs.ramfsAllocHandle
  rw [h]

/-- While the pool has a handle, `ramfs_vfs_open` fails before it takes a slot, or not at all. -/
theorem ramfsVfsOpen_failed {path : Str} {flags : UInt32} {e : Int} {fs' : Ramfs.State}
    (hpool : (Ramfs.ramfsAllocHandle fs).isSome = true)
    (h : ramfsVfsOpen cur alloc path flags fs = (.error e, fs')) : fs'.fds = fs.fds := by
  have hopen := Ramfs.ramfsOpen_opensSlot cur (some path) (ramfsFlags flags) alloc fs
  have hhandles := Ramfs.ramfsOpen_handles cur (some path) (ramfsFlags flags) alloc fs
  simp only [ramfsVfsOpen] at h
  split at h
  · -- A directory takes no slot.
    split at h
    · cases h
      rfl
    split at h
    · cases h
      rfl
    split at h
    · cases h
      rfl
    · cases h
  · split at h
    · rename_i hneg
      cases h
      exact hopen.failed hneg
    split at h
    · refine absurd (congrArg Prod.fst h) (takeHandle_ok _ ?_)
      rwa [ramfsAllocHandle_congr ((Ramfs.ramfsTruncate_handles _ _).trans hhandles)]
    · refine absurd (congrArg Prod.fst h) (takeHandle_ok _ ?_)
      rwa [ramfsAllocHandle_congr hhandles]

theorem driverOpen_failed {cur : Caller} {x : Outcome} {path : Str} {flags : UInt32} {d : Driver}
    {e : Int} {fs' : Ramfs.State} (hpool : (Ramfs.ramfsAllocHandle fs).isSome = true)
    (h : driverOpen cur x path flags fs d = (.error e, fs')) : fs'.fds = fs.fds := by
  cases d with
  | ramfs => exact ramfsVfsOpen_failed hpool h
  | fat32 =>
    simp only [driverOpen] at h
    split at h
    · cases h
      rfl
    · cases h

theorem checkProtected_tables (s : State) (cur : Caller) (canonical : Str) :
    (checkProtected s cur canonical).2.fds = s.fds ∧ (checkProtected s cur canonical).2.fs = s.fs :=
  ⟨rfl, rfl⟩

theorem freed_eq {s s' : State} {cur : Caller}
    (hcleared : ∀ i, (s.fds i).inUse = false → s.fds i = {})
    (halloc : vfsAllocFd s cur = .ok (fd, s')) : update s'.fds fd {} = s.fds := by
  obtain ⟨_, hfree, rfl, _⟩ := vfsAllocFd_cases halloc
  rw [State.setSlot, update_idem, update_eq_self_iff]
  exact (hcleared fd hfree).symm

/-- A `vfs_open` that fails leaves both tables as they were, if free slots are cleared and the pool has
a handle for a free slot. -/
theorem vfsOpen_failed {s : State} {cur : Caller} {x : Outcome} {path : Str} {flags : UInt32}
    (hcleared : ∀ i, (s.fds i).inUse = false → s.fds i = {})
    (hpool : ∀ fd, fd < maxFds → (s.fds fd).inUse = false →
      (Ramfs.ramfsAllocHandle s.fs).isSome = true)
    (h : (vfsOpen cur x path flags s).1 < 0) :
    (vfsOpen cur x path flags s).2.fds = s.fds ∧ (vfsOpen cur x path flags s).2.fs.fds = s.fs.fds := by
  revert h
  unfold vfsOpen
  split
  · exact fun _ => ⟨rfl, rfl⟩
  split
  · exact fun _ => ⟨rfl, rfl⟩
  split
  · exact fun _ => ⟨rfl, rfl⟩
  rename_i fd s₁ halloc
  have hfreed := freed_eq hcleared halloc
  obtain ⟨hlt, hfree, hs₁, _⟩ := vfsAllocFd_cases halloc
  have hfs₁ : s₁.fs = s.fs := by
    rw [hs₁]
    rfl
  split
  · intro _
    refine ⟨hfreed, ?_⟩
    rw [← hfs₁]
    rfl
  split
  · intro _
    refine ⟨hfreed, ?_⟩
    rw [← hfs₁]
    rfl
  rename_i canonical _
  have hgate : ∀ r, (if flags &&& writeIntent ≠ 0 then checkProtected s₁ cur canonical
      else (true, s₁)) = r → r.2.fds = s₁.fds ∧ r.2.fs = s₁.fs := by
    intro r hr
    subst hr
    split
    · exact checkProtected_tables s₁ cur canonical
    · exact ⟨rfl, rfl⟩
  split
  · rename_i s₂ hdenied
    obtain ⟨hfds₂, hfs₂⟩ := hgate _ hdenied
    intro _
    constructor
    · rw [← hfreed, ← hfds₂]
      rfl
    · rw [← hfs₁, ← hfs₂]
      rfl
  · rename_i s₂ hallowed
    obtain ⟨hfds₂, hfs₂⟩ := hgate _ hallowed
    split
    · rename_i fs hopen
      intro _
      constructor
      · rw [← hfreed, ← hfds₂]
        rfl
      · rw [← hfs₁, ← hfs₂]
        refine driverOpen_failed ?_ hopen
        rw [hfs₂, hfs₁]
        exact hpool fd hlt hfree
    · intro hneg
      exact absurd hneg (by simp)

end failures

/-! ## From a fresh start -/

/-- Both tables are cleared, and so is the pool. -/
structure Fresh (s : State) : Prop where
  slots : ∀ i, s.fds i = {}
  fds : ∀ i, (s.fs.fds i).inUse = false
  handles : ∀ i, (s.fs.handles i).inUse = false

def Sys.start (s : State) : Sys where
  vfs := s
  given _ := false
  pc _ := .idle
  ramfsOpener _ := none
  vfsOpener _ := none
  handleFor _ := 0

theorem heldBy_none {n : Nat} {held : Fin n → Caller} (h : ∀ i, held i = none) (P : Process → Bool) :
    Lib.heldBy held P = 0 := by
  simp [Lib.heldBy, tally, h]

theorem start_good {s : State} (h : Fresh s) : Good (.start s) where
  slots :=
    { cleared := fun i _ => h.slots i
      opens := fun _ _ hi => by cases hi
      opensOnce := fun _ _ _ hi _ => by cases hi
      closes := fun _ _ hi => by cases hi
      closesOnce := fun _ _ _ hi _ => by cases hi
      given := fun _ hi => by cases hi
      inRange := fun i hi => by
        rw [Sys.start, h.slots] at hi
        cases hi
      handle := fun i _ hi => by
        rw [Sys.start, h.handles] at hi
        cases hi }
  ramfs := by
    have hnone : ∀ i, (Sys.start s).ramfsHolder i = none := by
      intro i
      rw [Sys.ramfsHolder, if_neg (by simp [Sys.start, h.fds])]
    constructor
    · intro i p hi
      rw [Sys.start, h.fds] at hi
      cases hi
    · constructor
      · intro pid generation
        rw [heldBy_none hnone]
        exact Nat.zero_le _
      · intro uid
        rw [heldBy_none hnone]
        exact Nat.zero_le _
      · rw [RamfsQuotas.reserve_iff, heldBy_none hnone]
        exact Nat.zero_le _
  vfs := by
    have hnone : ∀ i, (Sys.start s).vfsHolder i = none := by
      intro i
      rw [Sys.vfsHolder, if_neg (by simp [Sys.start, h.slots])]
    constructor
    · intro i p hi
      rw [Sys.start, h.slots] at hi
      cases hi
    · constructor
      · intro uid
        rw [heldBy_none hnone]
        exact Nat.zero_le _
      · intro i p hp
        rw [hnone] at hp
        cases hp

theorem reached_good {s : State} {es : List Event} (hfresh : Fresh s)
    (hrun : Run (fun σ e σ' => σ.next e = some σ') (.start s) es σ) : Good σ :=
  hrun.invariant (fun _ _ _ h hnext => next_good h hnext) (start_good hfresh)

theorem Inv.pool (h : Inv σ) (hlt : fd < maxFds) (hfree : (σ.vfs.fds fd).inUse = false) :
    (Ramfs.ramfsAllocHandle σ.vfs.fs).isSome = true := by
  apply h.freeHandle hlt
  intro i huses
  rw [h.uses_inUse huses] at hfree
  cases hfree

/-- In every state that is reached the limits hold, and a call that fails leaves both tables as they
were. While other threads run, a call has set two fields of a cleared slot until it succeeds, and none
fails with a RAMFS slot: there is a handle for it. -/
theorem descriptor_quotas_hold {s : State} {es : List Event} (hfresh : Fresh s)
    (hrun : Run (fun σ e σ' => σ.next e = some σ') (.start s) es σ) :
    RamfsQuotas σ.ramfsHolder ∧ VfsQuotas σ.vfsHolder ∧
      (∀ cur path flags alloc, (Ramfs.ramfsOpen cur path flags alloc σ.vfs.fs).1 < 0 →
        (Ramfs.ramfsOpen cur path flags alloc σ.vfs.fs).2.fds = σ.vfs.fs.fds) ∧
      (∀ cur x path flags, (vfsOpen cur x path flags σ.vfs).1 < 0 →
        (vfsOpen cur x path flags σ.vfs).2.fds = σ.vfs.fds ∧
          (vfsOpen cur x path flags σ.vfs).2.fs.fds = σ.vfs.fs.fds) ∧
      (∀ i, (σ.vfs.fds i).inUse = false → σ.vfs.fds i = {}) ∧
      (∀ t fd, (σ.pc t).opens = some fd →
        ∃ uid, σ.vfs.fds fd = { inUse := true, ownerUid := uid }) ∧
      ∀ t cur fd ramfsFd, σ.pc t = .opened cur fd ramfsFd →
        (σ.pickHandle t fd (fileHandle ramfsFd)).isSome = true := by
  have h := reached_good hfresh hrun
  refine ⟨h.ramfs.quotas, h.vfs.quotas, ?_, ?_, h.slots.cleared, ?_, ?_⟩
  · intro cur path flags alloc hneg
    exact (Ramfs.ramfsOpen_opensSlot cur path flags alloc σ.vfs.fs).failed hneg
  · intro cur x path flags hneg
    exact vfsOpen_failed h.slots.cleared (fun fd hlt hfree => h.slots.pool hlt hfree) hneg
  · intro t fd ht
    exact (h.slots.opens t fd ht).2.2
  · intro t cur fd ramfsFd ht
    rw [Sys.pickHandle, Option.isSome_map]
    exact h.slots.freeHandle (h.slots.opening ht rfl).1 fun i => h.slots.not_uses ht rfl nofun

/-- The VFS with RAMFS mounted, which has one file, `/f`. -/
def mounted : State where
  initialized := true
  fds _ := {}
  mounts _ := some .ramfs
  drivers := [.ramfs]
  fs := (Ramfs.openCreate none (some [47, 102]) true (Ramfs.ramfsInit true)).2
  denied := 0
  granted := 0

theorem mounted_fresh : Fresh mounted := by
  obtain ⟨hfds, hhandles⟩ := Ramfs.openCreate_tables
    (Prod.mk.eta (p := Ramfs.openCreate none (some [47, 102]) true (Ramfs.ramfsInit true))).symm
  constructor
  · intro i
    rfl
  · intro i
    rw [mounted, hfds]
    rfl
  · intro i
    rw [mounted, hhandles]
    rfl

/-- A process of uid 1000. -/
def user1000 : Process := ⟨⟨5, 1, 1000, 1000, 1000, []⟩, 0⟩

/-- The sections of an open of `/f`. -/
def openFile : List Event :=
  [.alloc 0 (some user1000), .claim 0 1 1, .pick 0, .fill 0, .store 0 [47, 102] 0]

/-- A process holds a slot of each table, and then fails to open `/x`. -/
theorem descriptor_quotas_hold_for_one :
    ∃ σ : Sys, Run (fun σ e σ' => Sys.next σ e = some σ') (.start mounted) openFile σ ∧
      Lib.heldBy σ.ramfsHolder (Process.is 5 1) = 1 ∧
      Lib.heldBy σ.vfsHolder (Process.unprivilegedOf 1000) = 1 ∧
      RamfsQuotas σ.ramfsHolder ∧ VfsQuotas σ.vfsHolder ∧
      (vfsOpen (some user1000) ⟨true, .ok 0⟩ [47, 120] 0 σ.vfs).2.fds = σ.vfs.fds := by
  have hrun : ((openFile.foldlM Sys.next (.start mounted)).any fun σ =>
      decide (Lib.heldBy σ.ramfsHolder (is 5 1) = 1) &&
        decide (Lib.heldBy σ.vfsHolder (unprivilegedOf 1000) = 1) &&
        decide ((vfsOpen (some user1000) ⟨true, .ok 0⟩ [47, 120] 0 σ.vfs).1 < 0)) = true := by
    decide +kernel
  rw [Option.any_eq_true] at hrun
  obtain ⟨σ, hσ, hfacts⟩ := hrun
  simp only [Bool.and_eq_true, decide_eq_true_iff] at hfacts
  have hreached := Run.of_foldlM_some hσ
  have hholds := descriptor_quotas_hold mounted_fresh hreached
  exact ⟨σ, hreached, hfacts.1.1, hfacts.1.2, hholds.1, hholds.2.1,
    (hholds.2.2.2.1 _ _ _ _ hfacts.2).1⟩

/-- No handle is leaked: when every slot has been given back, so has every handle. -/
theorem closed_slots_leave_no_handle {s : State} {es : List Event} (hfresh : Fresh s)
    (hrun : Run (fun σ e σ' => σ.next e = some σ') (.start s) es σ)
    (hclosed : ∀ fd < maxFds, (σ.vfs.fds fd).inUse = false) :
    ∀ i < 64, (σ.vfs.fs.handles i).inUse = false := by
  intro i hi
  by_contra hused
  have h := (reached_good hfresh hrun).slots
  have hslot := h.uses_inUse (h.handle i hi (Bool.not_eq_false _ ▸ hused))
  rw [hclosed _ (h.inRange _ hslot)] at hslot
  cases hslot

/-- `/f` is opened and closed again. -/
theorem closed_file_leaves_no_handle :
    ∃ σ : Sys, Run (fun σ e σ' => Sys.next σ e = some σ') (.start mounted)
      (openFile ++ [.close 0 0, .closeFile 0, .drop 0, .release 0]) σ ∧
      (∀ fd < maxFds, (σ.vfs.fds fd).inUse = false) ∧
      ∀ i < 64, (σ.vfs.fs.handles i).inUse = false := by
  have hrun : (((openFile ++ [Event.close 0 0, .closeFile 0, .drop 0, .release 0]).foldlM
      Sys.next (.start mounted)).any fun σ =>
        decide (∀ fd < maxFds, (σ.vfs.fds fd).inUse = false)) = true := by
    decide +kernel
  rw [Option.any_eq_true] at hrun
  obtain ⟨σ, hσ, hclosed⟩ := hrun
  have hclosed := of_decide_eq_true hclosed
  have hreached := Run.of_foldlM_some hσ
  exact ⟨σ, hreached, hclosed, closed_slots_leave_no_handle mounted_fresh hreached hclosed⟩

end TinyOS.Vfs.Descriptors
