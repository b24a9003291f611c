import TinyOS.Lib.Run
import TinyOS.Ramfs.Contents

/-!
# RAMFS: descriptors under interleaving

Any number of tasks, each running one operation at a time, section by section:
a section is what the code does under `ramfs_mutex` or with interrupts off, or
between two such. `ramfs_open`, the directory open of `ramfs_vfs.c` and
`ramfs_chmod` take several sections and keep a bare node pointer between them
(`Pc.Holds`); the other operations are one section.

The busy check of `ramfs_unlink` and `ramfs_rmdir` sees claimed slots only, so a
node can be freed while an open that found it has not claimed its slot yet
(`dangling_open`). `run_noDangling`: that is the only way. In every run in which
no unlink or rmdir names a node a pending open holds, every descriptor and every
directory handle in use refers to a node in the tree.
-/

namespace TinyOS.Ramfs

open TinyOS.Lib Relation State

/-! ## Tasks and sections -/

/-- Where a task is: idle, or about to run the next section of an operation. -/
inductive Pc where
  | idle
  | openFind (cur : Caller) (path : Option Str) (flags : Nat)
  | openCreate (cur : Caller) (path : Option Str) (flags : Nat)
  | openCheck (cur : Caller) (node : NodeId) (flags : Nat)
  | openClaim (cur : Caller) (node : NodeId) (flags : Nat)
  | dirFind (cur : Caller) (path : Option Str)
  | dirCheck (cur : Caller) (dir : NodeId)
  | dirClaim (dir : NodeId)
  | chmodFind (cur : Caller) (path : Option Str) (mode : Nat)
  | chmodSet (cur : Caller) (node : NodeId) (mode : Nat)

/-- A pending open keeps a pointer to the node. -/
def Pc.Holds : Pc → NodeId → Prop
  | .openCheck _ node _, n | .openClaim _ node _, n => node = n
  | .dirCheck _ dir, n | .dirClaim dir, n => dir = n
  | _, _ => False

/-- The filesystem and where every task is. -/
structure Sys where
  fs : State
  pc : Nat → Pc

/-- Run the section a task is at. `alloc` is the outcome of its allocation, if
it makes one. -/
def advance (alloc : Bool) (s : State) : Pc → State × Pc
  | .idle => (s, .idle)
  | .openFind cur path flags =>
    match ramfsFind cur s path with
    | some node => (s, .openCheck cur node flags)
    | none => (s, if flags &&& flagWrite ≠ 0 then .openCreate cur path flags else .idle)
  | .openCreate cur path flags =>
    match Ramfs.openCreate cur path alloc s with
    | (.error _, s) => (s, .idle)
    | (.ok node, s) => (s, .openCheck cur node flags)
  | .openCheck cur node flags =>
    (s, if Ramfs.openCheck cur node flags s = 0 then .openClaim cur node flags else .idle)
  | .openClaim cur node flags => ((Ramfs.openClaim cur node flags s).2, .idle)
  | .dirFind cur path =>
    match ramfsFind cur s path with
    | some dir => (s, .dirCheck cur dir)
    | none => (s, .idle)
  | .dirCheck cur dir => (s, if opendirCheck cur dir s = 0 then .dirClaim dir else .idle)
  | .dirClaim dir => ((opendirClaim dir s).2, .idle)
  | .chmodFind cur path mode =>
    match ramfsFind cur s path with
    | some node => (s, .chmodSet cur node mode)
    | none => (s, .idle)
  | .chmodSet cur node mode => ((chmodNode cur node mode s).2, .idle)

/-- Enter `ramfs_open`: its early, advisory test for a slot. -/
def startOpen (cur : Caller) (path : Option Str) (flags : Nat) (s : State) : Pc :=
  if path = none ∨ s.root = none then .idle
  else if ramfsPickFd cur s < 0 then .idle
  else .openFind cur path flags

/-- The operations that are one section. -/
def Op.atomic : Op → Bool
  | .open .. | .opendir .. | .chmod .. => false
  | _ => true

/-- What an idle task may begin, or the next section of what it is at. -/
inductive Move where
  | call (c : Call)
  | open (cur : Caller) (path : Option Str) (flags : Nat)
  | opendir (cur : Caller) (path : Option Str)
  | chmod (cur : Caller) (path : Option Str) (mode : Nat)
  | go (alloc : Bool)

structure Act where
  task : Nat
  move : Move

/-- The section `a` of one task, the other tasks standing still. A move that
does not fit the task's place does nothing. -/
def Sys.next (σ : Sys) (a : Act) : Sys :=
  match σ.pc a.task, a.move with
  | .idle, .call c => if c.op.atomic then { σ with fs := (c.exec σ.fs).2 } else σ
  | .idle, .open cur path flags =>
    { σ with pc := Function.update σ.pc a.task (startOpen cur path flags σ.fs) }
  | .idle, .opendir cur path => { σ with pc := Function.update σ.pc a.task (.dirFind cur path) }
  | .idle, .chmod cur path mode =>
    { σ with pc := Function.update σ.pc a.task (.chmodFind cur path mode) }
  | pc, .go alloc =>
    { fs := (advance alloc σ.fs pc).1
      pc := Function.update σ.pc a.task (advance alloc σ.fs pc).2 }
  | _, _ => σ

/-- After `ramfs_init` and `ramfs_vfs_init`, all tasks idle. -/
def Sys.init (alloc : Bool) : Sys := ⟨{ ramfsInit alloc with busyHook := true }, fun _ => .idle⟩

/-- Every descriptor and directory handle in use is on a node of the tree. -/
def NoDangling (s : State) : Prop :=
  (∀ i, InUse s i → ∃ n, (s.fds i).node = some n ∧ Reachable s n) ∧
  ∀ i < 64, (s.handles i).inUse = true → ∃ n, (s.handles i).dirNode = some n ∧ Reachable s n

/-- No unlink or rmdir of a node that a pending open holds. -/
def Unheld (σ : Sys) (a : Act) : Prop :=
  ∀ cur path, (a.move = .call ⟨cur, .unlink path⟩ ∨ a.move = .call ⟨cur, .rmdir path⟩) →
    ∀ n, ramfsFind cur σ.fs path = some n → ∀ t, ¬ (σ.pc t).Holds n

/-! ## The invariant -/

/-- Every directory handle in use is on a node that is still there. -/
def HandlesLive (s : State) : Prop :=
  ∀ i < 64, (s.handles i).inUse = true →
    (s.handles i).isDir = true ∧ ∃ n ∈ s.live, (s.handles i).dirNode = some n

section Effects

variable {s s' : State} {cur : Caller} {use : Scope}

theorem HandlesLive.frame (hh : HandlesLive s) (hhandles : s'.handles = s.handles)
    (hlive : ∀ i < 64, (s.handles i).inUse = true → ∀ n ∈ s.live,
      (s.handles i).dirNode = some n → n ∈ s'.live) : HandlesLive s' := by
  intro i hi huse
  rw [hhandles] at huse ⊢
  obtain ⟨hdir, n, hn, hnode⟩ := hh i hi huse
  exact ⟨hdir, n, hlive i hi huse n hn hnode, hnode⟩

/-- With the hook registered, a node that is not busy is in no directory handle. -/
theorem not_busy_handle {node : NodeId} (hook : s.busyHook = true)
    (h : ramfsNodeIsBusy s node = false) {i : Nat} (hi : i < 64)
    (huse : (s.handles i).inUse = true) (hdir : (s.handles i).isDir = true) :
    (s.handles i).dirNode ≠ some node := by
  intro hnode
  simp only [ramfsNodeIsBusy, hook, Bool.true_and, Bool.or_eq_false_iff] at h
  have hany : ramfsVfsNodeBusy s node = true :=
    List.any_eq_true.mpr ⟨i, List.mem_range.mpr hi, by simp [huse, hdir, hnode]⟩
  rw [h.2] at hany
  exact absurd hany (by simp)

theorem HandlesLive.effect (hw : Wf s) (hook : s.busyHook = true) (hh : HandlesLive s)
    (h : Effect cur use s s') : HandlesLive s' := by
  cases h with
  | create => exact hh.frame rfl fun _ _ _ n hn _ => Finset.mem_insert_of_mem hn
  | @remove _ parent node entry named empty idle gone =>
    obtain ⟨_, hr⟩ := hw.remove_cases entry gone
    refine hh.frame hr.handles fun i hi huse n hn hnode => ?_
    rw [hr.live, Finset.mem_erase]
    refine ⟨?_, hn⟩
    rintro rfl
    exact not_busy_handle hook idle hi huse (hh i hi huse).1 hnode
  | @claimDir dir i live free =>
    intro j hj huse
    rw [setHandle_handles] at huse ⊢
    split
    · exact ⟨rfl, dir, live, rfl⟩
    rename_i hji
    rw [if_neg hji] at huse
    exact hh j hj huse
  | releaseDir i =>
    intro j hj huse
    rw [setHandle_handles] at huse ⊢
    by_cases hji : j = i
    · simp [hji, Handle.free] at huse
    · rw [if_neg hji] at huse ⊢
      exact hh j hj huse
  | _ => exact hh.frame rfl fun _ _ _ n hn _ => hn

theorem Effect.busyHook_eq (hw : Wf s) (h : Effect cur use s s') : s'.busyHook = s.busyHook := by
  cases h with
  | remove entry named empty idle gone =>
    obtain ⟨_, hr⟩ := hw.remove_cases entry gone
    exact hr.busyHook
  | _ => rfl

/-- A node the effect is not to remove stays, and stays what it is. -/
theorem Effect.live_stays (hw : Wf s) (h : Effect cur use s s') {n : NodeId} (hn : n ∈ s.live)
    (hv : ¬ use.victim n) : n ∈ s'.live ∧ (s'.node n).type = (s.node n).type := by
  cases h with
  | create type spot room =>
    obtain ⟨r, kids, ht⟩ := hw.tree_of_live spot.live
    refine ⟨Finset.mem_insert_of_mem hn, ?_⟩
    rw [insertNode_node_old (ht.fresh n hn).ne]
  | @remove _ parent node entry named empty idle gone =>
    obtain ⟨_, hr⟩ := hw.remove_cases entry gone
    have hne : n ≠ node := by
      rintro rfl
      exact hv named
    rw [hr.live, Finset.mem_erase, hr.fields n hne]
    exact ⟨⟨hne, hn⟩, rfl⟩
  | rename | chmod => exact ⟨hn, modify_field _ _ _ _ Node.type rfl⟩
  | truncate =>
    rw [setFd_node]
    exact ⟨hn, modify_field _ _ _ _ Node.type rfl⟩
  | write =>
    rw [setFd_node]
    exact ⟨hn, modify_field _ _ _ _ Node.type (by rw [writeNode_frame])⟩
  | claim | cursor | refs | release | claimDir | releaseDir => exact ⟨hn, rfl⟩

theorem MayEffect.live_stays (hw : Wf s) (h : MayEffect cur use s s') {n : NodeId} (hn : n ∈ s.live)
    (hv : ¬ use.victim n) : n ∈ s'.live ∧ (s'.node n).type = (s.node n).type := by
  cases h with
  | refl => exact ⟨hn, rfl⟩
  | single h => exact h.live_stays hw hn hv

end Effects

/-- What holds of the filesystem alone. -/
structure FsInv (s : State) : Prop where
  wf : Wf s
  fds : FdsLive s
  handles : HandlesLive s
  hook : s.busyHook = true

variable {s s' : State}

theorem FsInv.effect {cur : Caller} {use : Scope} (hi : FsInv s)
    (h : Effect cur use s s') : FsInv s' :=
  ⟨hi.wf.effect h, hi.fds.effect hi.wf h, hi.handles.effect hi.wf hi.hook h,
    (h.busyHook_eq hi.wf).trans hi.hook⟩

theorem FsInv.mayEffect {cur : Caller} {use : Scope} (hi : FsInv s)
    (h : MayEffect cur use s s') : FsInv s' := by
  cases h with
  | refl => exact hi
  | single h => exact hi.effect h

theorem FsInv.noDangling (hi : FsInv s) : NoDangling s := by
  have hreach : ∀ n ∈ s.live, Reachable s n := by
    intro n hn
    obtain ⟨r, kids, ht⟩ := hi.wf.tree_of_live hn
    exact ht.reachable_of_live n hn
  refine ⟨fun i huse => ?_, fun i hlt huse => ?_⟩
  · obtain ⟨n, hn, hnode, -⟩ := hi.fds i huse
    exact ⟨n, hnode, hreach n hn⟩
  · obtain ⟨-, n, hn, hnode⟩ := hi.handles i hlt huse
    exact ⟨n, hnode, hreach n hn⟩

/-- Setting the mode of a node, freed or not, harms nothing. -/
theorem FsInv.chmodNode (hi : FsInv s) (cur : Caller) (node : NodeId) (mode : Nat) :
    FsInv (chmodNode cur node mode s).2 := by
  unfold Ramfs.chmodNode
  split
  · exact hi
  dsimp only
  refine ⟨?_, hi.fds.modify _ _ rfl, hi.handles.frame rfl fun _ _ _ n hn _ => hn, hi.hook⟩
  rcases hi.wf with hnone | ⟨r, kids, ht⟩
  · exact .inl hnone
  · exact .inr ⟨r, kids, ht.modify _ _ ⟨rfl, rfl, rfl, rfl, rfl, rfl⟩⟩

/-- What a place in an operation promises about the node it points to. -/
def Pc.Ok (s : State) : Pc → Prop
  | .openCheck _ node _ => node ∈ s.live
  | .openClaim _ node _ => node ∈ s.live ∧ (s.node node).type = .file
  | .dirCheck _ dir | .dirClaim dir => dir ∈ s.live
  | _ => True

theorem Pc.Ok.frame {pc : Pc} (h : pc.Ok s)
    (hkeep : ∀ n, pc.Holds n → n ∈ s.live → n ∈ s'.live ∧ (s'.node n).type = (s.node n).type) :
    pc.Ok s' := by
  cases pc with
  | openCheck cur node flags => exact (hkeep node rfl h).1
  | openClaim cur node flags =>
    obtain ⟨hlive, htype⟩ := hkeep node rfl h.1
    exact ⟨hlive, htype.trans h.2⟩
  | dirCheck cur dir => exact (hkeep dir rfl h).1
  | dirClaim dir => exact (hkeep dir rfl h).1
  | _ => trivial

/-- The invariant of every guarded run. -/
structure SysInv (σ : Sys) : Prop where
  fs : FsInv σ.fs
  pcs : ∀ t, (σ.pc t).Ok σ.fs

/-- One section: the filesystem stays sound, this task's next place is sound, and
every node another task points to stays. -/
theorem advance_inv {pc : Pc} (hi : FsInv s) (hpc : pc.Ok s) (alloc : Bool) :
    FsInv (advance alloc s pc).1 ∧ (advance alloc s pc).2.Ok (advance alloc s pc).1 ∧
    ∀ n ∈ s.live, n ∈ (advance alloc s pc).1.live ∧
      ((advance alloc s pc).1.node n).type = (s.node n).type := by
  have hsame : ∀ n ∈ s.live, n ∈ s.live ∧ (s.node n).type = (s.node n).type :=
    fun n hn => ⟨hn, rfl⟩
  cases pc with
  | idle => exact ⟨hi, trivial, hsame⟩
  | openFind cur path flags =>
    simp only [advance]
    cases hfind : ramfsFind cur s path with
    | some node => exact ⟨hi, (ramfsFind_some hi.wf hfind).1, hsame⟩
    | none =>
      refine ⟨hi, ?_, hsame⟩
      dsimp only
      split <;> trivial
  | openCreate cur path flags =>
    simp only [advance]
    rcases openCreate_cases cur hi.wf path alloc with ⟨e, he, -⟩ | ⟨node, s', hok, hmay, hlive, -⟩
    · rw [he]
      exact ⟨hi, trivial, hsame⟩
    · rw [hok]
      have hmay : MayEffect cur ⟨fun _ => False, fun _ => False⟩ s s' := hmay.effect
      exact ⟨hi.mayEffect hmay, hlive, fun n hn => hmay.live_stays hi.wf hn id⟩
  | openCheck cur node flags =>
    refine ⟨hi, ?_, hsame⟩
    simp only [advance]
    split
    · rename_i hcheck
      unfold Ramfs.openCheck at hcheck
      split_ifs at hcheck with hfollow htype
      exact ⟨hpc, not_not.mp htype⟩
    · trivial
  | openClaim cur node flags =>
    simp only [advance]
    rcases openClaim_cases cur node flags s with ⟨-, heq⟩ | ⟨i, hlt, hfree, heq⟩
    · rw [heq]
      exact ⟨hi, trivial, hsame⟩
    · rw [heq]
      refine ⟨⟨?_, hi.fds.setFd fun _ => ⟨node, hpc.1, rfl, hpc.2⟩,
        hi.handles.frame rfl fun _ _ _ n hn _ => hn, hi.hook⟩, trivial, hsame⟩
      rcases hi.wf with hnone | ⟨r, kids, ht⟩
      · exact .inl hnone
      · exact .inr ⟨r, kids, ht.setFd _ _⟩
  | dirFind cur path =>
    simp only [advance]
    cases hfind : ramfsFind cur s path with
    | some dir => exact ⟨hi, (ramfsFind_some hi.wf hfind).1, hsame⟩
    | none => exact ⟨hi, trivial, hsame⟩
  | dirCheck cur dir =>
    refine ⟨hi, ?_, hsame⟩
    simp only [advance]
    split
    · exact hpc
    · trivial
  | dirClaim dir =>
    simp only [advance, opendirClaim]
    cases halloc : ramfsAllocHandle s with
    | none => exact ⟨hi, trivial, hsame⟩
    | some i =>
      have hfree : (s.handles i).inUse = false := by simpa using List.find?_some halloc
      have h : Effect none ⟨fun _ => False, fun _ => False⟩ s (s.setHandle i
          { ramfsFd := -1, inUse := true, isDir := true, dirNode := some dir, dirPos := 0 }) :=
        .claimDir hpc hfree
      exact ⟨hi.effect h, trivial, hsame⟩
  | chmodFind cur path mode =>
    simp only [advance]
    cases hfind : ramfsFind cur s path with
    | some node => exact ⟨hi, trivial, hsame⟩
    | none => exact ⟨hi, trivial, hsame⟩
  | chmodSet cur node mode =>
    refine ⟨hi.chmodNode cur node mode, trivial, fun n hn => ?_⟩
    simp only [advance, chmodNode]
    split
    · exact hsame n hn
    · dsimp only
      exact ⟨hn, modify_field _ _ _ _ Node.type rfl⟩

/-- A call that is one section and names no held node keeps the invariant. -/
theorem SysInv.call {σ : Sys} (hi : SysInv σ) {a : Act} {c : Call} (hatomic : c.op.atomic = true)
    (hmove : a.move = .call c) (hu : Unheld σ a) : SysInv { σ with fs := (c.exec σ.fs).2 } := by
  have hop : ∀ path flags alloc, c.op ≠ .open path flags alloc := by
    intro path flags alloc h
    simp [h, Op.atomic] at hatomic
  have hmay := exec_effect hi.fs.wf c hop
  refine ⟨hi.fs.mayEffect hmay, fun t => (hi.pcs t).frame fun n hholds hn => ?_⟩
  refine hmay.live_stays hi.fs.wf hn ?_
  rintro ⟨path, hkind, hfind⟩
  obtain ⟨cur, op⟩ := c
  refine hu cur path ?_ n hfind t hholds
  rcases hkind with rfl | rfl
  · exact .inl hmove
  · exact .inr hmove

theorem SysInv.update {σ : Sys} {t : Nat} {pc : Pc} (hfs : FsInv s) (hpc : pc.Ok s)
    (hother : ∀ t', t' ≠ t → (σ.pc t').Ok s) : SysInv ⟨s, Function.update σ.pc t pc⟩ := by
  refine ⟨hfs, fun t' => ?_⟩
  by_cases ht : t' = t
  · subst ht
    simpa using hpc
  · simpa [ht] using hother t' ht

theorem SysInv.next {σ : Sys} (hi : SysInv σ) {a : Act} (hu : Unheld σ a) : SysInv (σ.next a) := by
  have hgo : ∀ alloc, SysInv ⟨(advance alloc σ.fs (σ.pc a.task)).1,
      Function.update σ.pc a.task (advance alloc σ.fs (σ.pc a.task)).2⟩ := by
    intro alloc
    obtain ⟨hfs, hpc, hkeep⟩ := advance_inv hi.fs (hi.pcs a.task) alloc
    exact SysInv.update hfs hpc fun t' _ => (hi.pcs t').frame fun n _ hn => hkeep n hn
  unfold Sys.next
  split
  · rename_i c hpc hmove
    split
    · rename_i hatomic
      exact hi.call hatomic hmove hu
    · exact hi
  · refine SysInv.update hi.fs ?_ fun t' _ => hi.pcs t'
    unfold startOpen
    split_ifs <;> trivial
  · exact SysInv.update hi.fs trivial fun t' _ => hi.pcs t'
  · exact SysInv.update hi.fs trivial fun t' _ => hi.pcs t'
  · exact hgo _
  · exact hi

theorem SysInv.init (alloc : Bool) : SysInv (Sys.init alloc) := by
  have hdata := ramfsInit_dataInv alloc
  have hwf : Wf (Sys.init alloc).fs := by
    rcases hdata.wf with hnone | ⟨r, kids, ht⟩
    · exact .inl hnone
    · exact .inr ⟨r, kids, ht.frame rfl rfl rfl rfl fun _ _ => SameLinks.rfl⟩
  have hhandles : ∀ i, ((Sys.init alloc).fs.handles i).inUse = false := by
    intro i
    cases alloc <;> rfl
  refine ⟨⟨hwf, ?_, fun i _ huse => ?_, rfl⟩, fun t => trivial⟩
  · exact hdata.fds.frame rfl fun i n _ _ hn => ⟨hn, rfl⟩
  · rw [hhandles i] at huse
    exact absurd huse (by simp)

/-- In every run, by any number of tasks in any order, in which no unlink or
rmdir names a node that a pending open holds, every descriptor and every
directory handle in use refers to a node in the tree. -/
theorem run_noDangling {alloc : Bool} {acts : List Act} {σ : Sys}
    (hrun : Run (fun σ a σ' => Unheld σ a ∧ σ' = σ.next a) (Sys.init alloc) acts σ) :
    NoDangling σ.fs := by
  have hi : SysInv σ := by
    refine hrun.invariant ?_ (SysInv.init alloc)
    rintro τ a _ hτ ⟨hu, rfl⟩
    exact hτ.next hu
  exact hi.fs.noDangling

/-- One task, as root, creates and opens `/f`: enter, look up, create, check,
claim. -/
def createActs : List Act :=
  [⟨1, .open none (some [slash, 102]) flagWrite⟩, ⟨1, .go true⟩, ⟨1, .go true⟩, ⟨1, .go true⟩,
    ⟨1, .go true⟩]

/-- The file is closed, and task 2 opens `/g`. It has made the node and not checked it yet. -/
def pendingActs : List Act :=
  createActs ++ [⟨1, .call ⟨none, .close 0⟩⟩, ⟨2, .open none (some [slash, 103]) flagWrite⟩,
    ⟨2, .go true⟩, ⟨2, .go true⟩]

/-- Task 3 unlinks `/f`, and task 2 goes on to check and claim. -/
def unlinkActs : List Act :=
  [⟨3, .call ⟨none, .unlink (some [slash, 102])⟩⟩, ⟨2, .go true⟩, ⟨2, .go true⟩]

theorem next_pc {σ : Sys} {a : Act} {t : Nat} (ht : t ≠ a.task) : (σ.next a).pc t = σ.pc t := by
  unfold Sys.next
  split
  · split <;> rfl
  all_goals first | rfl | exact Function.update_of_ne ht _ _

/-- The node that is unlinked is not the one that the open of task 2 holds. -/
theorem unlinkActs_run : Run (fun σ a σ' => Unheld σ a ∧ σ' = σ.next a) (Sys.init true)
    (pendingActs ++ unlinkActs) ((pendingActs ++ unlinkActs).foldl Sys.next (Sys.init true)) := by
  have hquiet : ∀ acts : List Act, (∀ a ∈ acts, ∀ cur path, a.move ≠ .call ⟨cur, .unlink path⟩ ∧
      a.move ≠ .call ⟨cur, .rmdir path⟩) → ∀ σ,
      Run (fun σ a σ' => Unheld σ a ∧ σ' = σ.next a) σ acts (acts.foldl Sys.next σ) :=
    fun _ h => .of_foldl fun a ha _ =>
      ⟨fun cur path hcall => absurd hcall (not_or.mpr (h a ha cur path)), rfl⟩
  rw [List.foldl_append]
  refine (hquiet _ (by simp [pendingActs, createActs]) _).append
    (.cons ⟨?_, rfl⟩ (hquiet _ (by simp) _))
  intro cur path hcall n hn t hholds
  obtain ⟨rfl, rfl⟩ : none = cur ∧ some [slash, 102] = path := by simpa using hcall.symm
  have hfound : ramfsFind none (pendingActs.foldl Sys.next (Sys.init true)).fs
      (some [slash, 102]) = some 1 := by decide +kernel
  cases hfound.symm.trans hn
  have hone : (pendingActs.foldl Sys.next (Sys.init true)).pc 1 = .idle := rfl
  have htwo : (pendingActs.foldl Sys.next (Sys.init true)).pc 2 = .openCheck none 2 flagWrite := rfl
  have hother : t ≠ 1 → t ≠ 2 → (pendingActs.foldl Sys.next (Sys.init true)).pc t = .idle := by
    intro h1 h2
    simp [pendingActs, createActs, next_pc, h1, h2, Sys.init]
  by_cases h1 : t = 1
  · subst h1
    rw [hone] at hholds
    exact hholds
  by_cases h2 : t = 2
  · subst h2
    rw [htwo] at hholds
    exact absurd hholds (show ¬ (2 = 1) by decide)
  rw [hother h1 h2] at hholds
  exact hholds

/-- The run leaves one descriptor, on a node in the tree. -/
theorem run_noDangling_beside_unlink :
    (((pendingActs ++ unlinkActs).foldl Sys.next (Sys.init true)).fs.fds 0).node = some 2 ∧
    NoDangling ((pendingActs ++ unlinkActs).foldl Sys.next (Sys.init true)).fs :=
  ⟨by decide +kernel, run_noDangling unlinkActs_run⟩

/-- The file is closed; task 2 opens it and looks it up, task 3 unlinks it, and
task 2 goes on to check and claim. -/
def raceActs : List Act :=
  createActs ++ [⟨1, .call ⟨none, .close 0⟩⟩, ⟨2, .open none (some [slash, 102]) flagRead⟩,
    ⟨2, .go true⟩, ⟨3, .call ⟨none, .unlink (some [slash, 102])⟩⟩, ⟨2, .go true⟩, ⟨2, .go true⟩]

/-- The unlink between the lookup and the claim frees the node the open holds:
descriptor 0 ends up on a node that is not in the tree. -/
theorem dangling_open :
    let s := (raceActs.foldl Sys.next (Sys.init true)).fs
    (s.fds 0).inUse = true ∧ (s.fds 0).node = some 1 ∧ 1 ∉ s.live ∧ ¬ NoDangling s := by
  intro s
  have huse : (s.fds 0).inUse = true := by decide +kernel
  have hnode : (s.fds 0).node = some 1 := by decide +kernel
  refine ⟨huse, hnode, by decide +kernel, fun hno => ?_⟩
  -- the root is alone in the tree
  have halone : ∀ names n, AtPath s names n → n = 0 := by
    intro names n h
    induction h with
    | root h =>
      have hroot : s.root = some 0 := by decide +kernel
      exact Option.some.inj (h.symm.trans hroot)
    | child _ hc ih =>
      subst ih
      obtain ⟨l, hl, hmem⟩ := hc
      have hempty : (s.node 0).children = none := by decide +kernel
      rw [hl.eq_none_iff.mp hempty] at hmem
      exact absurd hmem List.not_mem_nil
  obtain ⟨n, hn, names, hpath⟩ := hno.1 0 ⟨by decide, huse⟩
  rw [halone names n hpath, hnode] at hn
  exact absurd hn (by decide)

/-- In the same runs the node graph stays a tree, whichever sections interleave. -/
theorem run_treeInvariant {alloc : Bool} {acts : List Act} {σ : Sys}
    (hrun : Run (fun σ a σ' => Unheld σ a ∧ σ' = σ.next a) (Sys.init alloc) acts σ) :
    TreeInvariant σ.fs := by
  refine (SysInv.fs (hrun.invariant ?_ (SysInv.init alloc))).wf.treeInvariant
  rintro τ a _ hτ ⟨hu, rfl⟩
  exact hτ.next hu

/-- The unlink between two sections of the open leaves the root and `/g`. -/
theorem run_treeInvariant_beside_unlink :
    ((pendingActs ++ unlinkActs).foldl Sys.next (Sys.init true)).fs.live = {0, 2} ∧
    TreeInvariant ((pendingActs ++ unlinkActs).foldl Sys.next (Sys.init true)).fs :=
  ⟨by decide +kernel, run_treeInvariant unlinkActs_run⟩

end TinyOS.Ramfs
