import TinyOS.Proc.Quiet

/-!
# Processes: what an event does to the machine

One relation for each kind of change that is not quiet: a task begins (`Begins`), the
processor goes from one task to the next (`Switch`), and the reaper frees a slot
(`Kernel.reap_returns`). `Move` lists what an event does to the machine. The invariants of
the following modules are proved from these.
-/

namespace TinyOS.Proc

open Lib Function Kernel

/-! ## Switching tasks -/

/-- The running task `prev` gives up the processor, or keeps it. -/
structure Switch (prev : Slot) (k k' : Kernel) : Prop where
  life : ∀ s, (k'.tasks s).life = (k.tasks s).life
  state : ∀ s, (k'.tasks s).state = (k.tasks s).state ∨
    (k'.tasks s).dead = false ∧ (k.tasks s).dead = false
  ledger : k'.ledger = k.ledger
  /-- The next task can run, and an ended task is queued for the reaper if there is room. -/
  next : k'.currentRunningTask = k.currentRunningTask ∧ k'.cleanupQueue = k.cleanupQueue ∨
    ∃ next, k'.currentRunningTask = some next ∧ next ≠ prev ∧ k.runnable next = true ∧
      k'.cleanupQueue =
        if (k.tasks prev).dead ∧ k.cleanupQueue.length < cleanupQueueSize then
          k.cleanupQueue ++ [k.ref prev]
        else k.cleanupQueue
  dispatches : k'.log.dispatches = k.log.dispatches ∨
    ∃ next, k.runnable next = true ∧
      k'.log.dispatches = (k.noteDispatch next).log.dispatches

theorem nextRunnable_runnable {p : Slot → Bool} {depth : Nat} {q q' : ReadyQueue} {s : Slot}
    {rejected : List Slot} (h : ReadyQueue.nextRunnable p depth q = .ok (some s, q', rejected)) :
    p s = true := by
  induction depth generalizing q q' rejected with
  | zero => cases h
  | succ depth ih =>
    simp only [ReadyQueue.nextRunnable] at h
    split at h
    · cases h
    split at h
    · rename_i hrun
      cases h
      exact hrun
    split at h
    · cases h
    split at h
    · cases h
    rename_i hnext
    cases h
    exact ih hnext

namespace Kernel

variable {k k' : Kernel} {s : Slot}

/-- `scheduler_get_next_task` changes the ring, and notes the task it returns. -/
theorem schedulerGetNextTask_returns {next : Option Slot} {rejected : List Slot}
    (h : k.schedulerGetNextTask = .ok (next, rejected, k')) :
    k'.tasks = k.tasks ∧
      k'.roster = { k.roster with dispatches := (next.elim k k.noteDispatch).log.dispatches } ∧
      ∀ s, next = some s → k.runnable s = true := by
  obtain ⟨⟨next', q, rejected'⟩, hnext, heq⟩ := map_returns h
  cases heq
  refine ⟨?_, ?_, ?_⟩
  · rcases next with _ | s <;> rfl
  · rcases next with _ | s <;> rfl
  · rintro s rfl
    exact nextRunnable_runnable hnext

theorem runnable_alive (h : k.runnable s = true) : (k.tasks s).dead = false := by
  simp only [runnable, Bool.and_eq_true, Bool.or_eq_true, decide_eq_true_eq] at h
  rcases h.1 with hstate | hstate <;> simp [Task.dead, hstate]

theorem runnable_pid (h : k.runnable s = true) : (k.tasks s).pid ≠ 0 := by
  simp only [runnable, taskSlotIsLive, Bool.and_eq_true, decide_eq_true_eq] at h
  exact h.2.1

/-- What the dispatcher asks of a task does not depend on anything but its life, its state
and the generation of its slot. -/
theorem runnable_congr (hlife : (k'.tasks s).life = (k.tasks s).life)
    (hstate : (k'.tasks s).state = (k.tasks s).state)
    (hgen : k'.slotGenerations = k.slotGenerations) : k'.runnable s = k.runnable s := by
  have hpid : (k'.tasks s).pid = (k.tasks s).pid := congrArg Life.pid hlife
  have hgen' : (k'.tasks s).generation = (k.tasks s).generation := congrArg Life.generation hlife
  simp only [runnable, taskSlotIsLive, hstate, hpid, hgen', hgen]

theorem noteDispatch_congr (hinc : (k'.tasks s).incarnation = (k.tasks s).incarnation)
    (hreturned : k'.log.returned = k.log.returned) (hold : k'.log.dispatches = k.log.dispatches) :
    (k'.noteDispatch s).log.dispatches = (k.noteDispatch s).log.dispatches := by
  simp only [noteDispatch, ref, hinc, hreturned, hold]

theorem leave_life (x : Slot) : ((k.leave s).tasks x).life = (k.tasks x).life := by
  unfold leave cleanupQueueEnqueue
  split
  · split <;> rfl
  split
  · exact modifyTask_keeps (g := Task.life) (fun _ => by rfl) k s x
  · rfl

theorem leave_state (x : Slot) : ((k.leave s).tasks x).state = (k.tasks x).state ∨
    ((k.leave s).tasks x).dead = false ∧ (k.tasks x).dead = false := by
  unfold leave cleanupQueueEnqueue
  split
  · split <;> exact .inl rfl
  rename_i halive
  split
  · by_cases hx : x = s
    · subst hx
      refine .inr ⟨?_, by simpa using halive⟩
      rw [modifyTask_self]
      rfl
    · rw [modifyTask_ne hx]
      exact .inl rfl
  · exact .inl rfl

theorem leave_roster : (k.leave s).roster = { k.roster with
    cleanupQueue :=
      if (k.tasks s).dead ∧ k.cleanupQueue.length < cleanupQueueSize then
        k.cleanupQueue ++ [k.ref s]
      else k.cleanupQueue } := by
  unfold leave cleanupQueueEnqueue
  split
  · rename_i hdead
    split
    · rename_i hfull
      rw [if_neg fun h => Nat.not_lt.2 hfull h.2]
      rfl
    rename_i hroom
    rw [if_pos ⟨hdead, Nat.not_le.1 hroom⟩]
    rfl
  · rename_i halive
    have hnot : ¬ ((k.tasks s).dead = true ∧ k.cleanupQueue.length < cleanupQueueSize) :=
      fun h => halive h.1
    split <;> rfl

theorem enter_life (x : Slot) : ((k.enter s).tasks x).life = (k.tasks x).life := by
  simp only [enter]
  exact modifyTask_keeps (g := Task.life) (fun _ => by rfl) k s x

theorem enter_self : ((k.enter s).tasks s).dead = false := by
  simp only [enter, modifyTask_self]
  rfl

theorem enter_ne {x : Slot} (hx : x ≠ s) : (k.enter s).tasks x = k.tasks x := by
  simp only [enter, modifyTask_ne hx]

end Kernel

namespace Switch

variable {prev : Slot} {k k₁ k' : Kernel}

/-- A change before a switch that neither the tasks' lives nor the records tell. -/
theorem after (h : Switch prev k₁ k') (hlife : ∀ s, (k₁.tasks s).life = (k.tasks s).life)
    (hstate : ∀ s, (k₁.tasks s).state = (k.tasks s).state) (hroster : k₁.roster = k.roster) :
    Switch prev k k' := by
  have hgen : k₁.slotGenerations = k.slotGenerations :=
    congrArg (fun r => r.ledger.slotGenerations) hroster
  have hqueue : k₁.cleanupQueue = k.cleanupQueue := congrArg Roster.cleanupQueue hroster
  have hdead : ∀ s, (k₁.tasks s).dead = (k.tasks s).dead := fun s => by
    simp only [Task.dead, hstate]
  have hrun : ∀ s, k₁.runnable s = k.runnable s := fun s =>
    runnable_congr (hlife s) (hstate s) hgen
  have href : ∀ s, k₁.ref s = k.ref s := fun s => by
    simp only [ref]
    rw [show (k₁.tasks s).incarnation = _ from congrArg Life.incarnation (hlife s)]
    rfl
  constructor
  · exact fun s => (h.life s).trans (hlife s)
  · intro s
    rw [← hstate s, ← hdead s]
    exact h.state s
  · exact h.ledger.trans (congrArg Roster.ledger hroster)
  · rcases h.next with ⟨hcur, hq⟩ | ⟨next, hcur, hne, hnext, hq⟩
    · exact .inl ⟨hcur.trans (congrArg Roster.currentRunningTask hroster), hq.trans hqueue⟩
    · refine .inr ⟨next, hcur, hne, (hrun next).symm.trans hnext, ?_⟩
      rw [hq, hdead, hqueue, href]
  · have hold : k₁.log.dispatches = k.log.dispatches := congrArg Roster.dispatches hroster
    have hret : k₁.log.returned = k.log.returned := 
      congrArg (fun r => r.ledger.returned) hroster
    rcases h.dispatches with hd | ⟨next, hnext, hd⟩
    · exact .inl (hd.trans hold)
    · refine .inr ⟨next, (hrun next).symm.trans hnext, ?_⟩
      have hinc : (k₁.tasks next).incarnation = (k.tasks next).incarnation :=
        congrArg Life.incarnation (hlife next)
      exact hd.trans (noteDispatch_congr hinc hret hold)

end Switch

namespace Kernel

variable {k k' : Kernel} {s : Slot}

theorem reschedule_switch {prev : Slot} (h : k.reschedule prev = .ok k') : Switch prev k k' := by
  obtain ⟨⟨next, rejected, k₁⟩, hnext, rfl⟩ := map_returns h
  obtain ⟨htasks, hroster, hrun⟩ := schedulerGetNextTask_returns hnext
  have hqueue : k₁.cleanupQueue = k.cleanupQueue := congrArg Roster.cleanupQueue hroster
  have hdisp := congrArg Roster.dispatches hroster
  -- nobody else runs: the slice starts again
  have hstays : (∀ s, next = some s → s = prev) → Switch prev k (k₁.resetSlice prev) := by
    intro hsame
    constructor
    · intro x
      rw [← htasks]
      exact modifyTask_keeps (g := Task.life) (fun _ => by rfl) k₁ prev x
    · intro x
      rw [← htasks]
      exact .inl (modifyTask_keeps (g := Task.state) (fun _ => by rfl) k₁ prev x)
    · exact congrArg Roster.ledger hroster
    · exact .inl ⟨congrArg Roster.currentRunningTask hroster, hqueue⟩
    · rcases next with _ | next
      · exact .inl hdisp
      · exact .inr ⟨next, hrun next rfl, hdisp⟩
  rcases next with _ | next
  · exact hstays (by simp)
  · dsimp only
    split
    · rename_i heq
      exact hstays (by simpa using heq)
    rename_i hne
    have hleft := leave_roster (k := k₁) (s := prev)
    constructor
    · intro x
      rw [enter_life, leave_life, htasks]
    · intro x
      by_cases hx : x = next
      · subst hx
        exact .inr ⟨enter_self, runnable_alive (hrun x rfl)⟩
      · rw [enter_ne hx, ← htasks]
        exact leave_state x
    · exact (congrArg Roster.ledger hleft).trans (congrArg Roster.ledger hroster)
    · refine .inr ⟨next, rfl, hne, hrun next rfl, ?_⟩
      have hq : (k₁.leave prev).cleanupQueue = _ := congrArg Roster.cleanupQueue hleft
      show (k₁.leave prev).cleanupQueue = _
      rw [hq, ref, htasks, hqueue]
      rfl
    · exact .inr ⟨next, hrun next rfl, (congrArg Roster.dispatches hleft).trans hdisp⟩

theorem countTick_switch {self : Slot} (h : k.countTick self = .ok k') : Switch self k k' := by
  unfold countTick at h
  split at h
  · cases h
  generalize hk₁ : (k.modifyTask self fun t => { t with ticksRemaining := t.ticksRemaining - 1 }) =
    k₁ at h
  have hlife : ∀ s, (k₁.tasks s).life = (k.tasks s).life := by
    subst hk₁
    exact modifyTask_keeps (g := Task.life) (fun _ => by rfl) k self
  have hstate : ∀ s, (k₁.tasks s).state = (k.tasks s).state := by
    subst hk₁
    exact modifyTask_keeps (g := Task.state) (fun _ => by rfl) k self
  have hroster : k₁.roster = k.roster := by
    subst hk₁
    rfl
  dsimp only at h
  split at h
  · exact (reschedule_switch h).after hlife hstate hroster
  cases h
  constructor
  · exact hlife
  · exact fun s => .inl (hstate s)
  · exact congrArg Roster.ledger hroster
  · exact .inl ⟨congrArg Roster.currentRunningTask hroster, congrArg Roster.cleanupQueue hroster⟩
  · exact .inl (congrArg Roster.dispatches hroster)

/-! ## An exception -/

end Kernel

/-- The running task `prev` is ended by an exception. -/
structure Faults (prev : Slot) (k k' : Kernel) : Prop where
  live : k.taskSlotIsLive prev = true
  user : (k.tasks prev).isKernelTask = false
  life : ∀ s, (k'.tasks s).life = (k.tasks s).life
  ended : (k'.tasks prev).state = .terminated
  state : ∀ s, s ≠ prev → (k'.tasks s).state = (k.tasks s).state ∨
    (k'.tasks s).dead = false ∧ (k.tasks s).dead = false
  ledger : k'.ledger = k.ledger
  next : ∃ next, k'.currentRunningTask = some next ∧ next ≠ prev ∧ k.runnable next = true ∧
    k'.log.dispatches = (k.noteDispatch next).log.dispatches
  cleanupQueue : k'.cleanupQueue =
    if k.cleanupQueue.length < cleanupQueueSize then k.cleanupQueue ++ [k.ref prev]
    else k.cleanupQueue

namespace Kernel

variable {k k' : Kernel} {s : Slot}

theorem cleanupQueueEnqueue_tasks : (k.cleanupQueueEnqueue s).tasks = k.tasks := by
  unfold cleanupQueueEnqueue
  split <;> rfl

theorem cleanupQueueEnqueue_roster : (k.cleanupQueueEnqueue s).roster = { k.roster with
    cleanupQueue :=
      if k.cleanupQueue.length < cleanupQueueSize then k.cleanupQueue ++ [k.ref s]
      else k.cleanupQueue } := by
  unfold cleanupQueueEnqueue
  split
  · rename_i hfull
    rw [if_neg (Nat.not_lt.2 hfull)]
    rfl
  rename_i hroom
  rw [if_pos (Nat.not_le.1 hroom)]
  rfl

theorem schedulerRemoveTask_same (h : k.schedulerRemoveTask s = .ok k') :
    k'.tasks = k.tasks ∧ k'.roster = k.roster := by
  obtain ⟨q, -, rfl⟩ := map_returns h
  exact ⟨rfl, rfl⟩

theorem terminateCurrentFromInterrupt_faults {prev : Slot}
    (hprev : k.currentRunningTask = some prev) (h : k.terminateCurrentFromInterrupt = .ok k') :
    Faults prev k k' := by
  unfold terminateCurrentFromInterrupt at h
  rw [hprev] at h
  dsimp only at h
  split at h
  · cases h
  rename_i hok
  obtain ⟨hlive, huser⟩ : k.taskSlotIsLive prev = true ∧ (k.tasks prev).isKernelTask = false := by
    simpa using hok
  -- the task is marked before the next one is looked for
  generalize hk₀ : (k.modifyTask prev fun t => { t with state := .terminated, ticksRemaining := 0 }) =
    k₀ at h
  have hmarked : (k₀.tasks prev).state = .terminated := by
    rw [← hk₀, modifyTask_self]
  have hother : ∀ x, x ≠ prev → k₀.tasks x = k.tasks x := by
    intro x hx
    rw [← hk₀, modifyTask_ne hx]
  have hlife : ∀ x, (k₀.tasks x).life = (k.tasks x).life := by
    subst hk₀
    exact modifyTask_keeps (g := Task.life) (fun _ => by rfl) k prev
  have hroster₀ : k₀.roster = k.roster := by rw [← hk₀]; rfl
  obtain ⟨k₁, hremove, h⟩ := bind_returns h
  obtain ⟨htasks₁, hroster₁⟩ := schedulerRemoveTask_same hremove
  rw [hroster₀] at hroster₁
  obtain ⟨⟨next, rejected, k₂⟩, hnext, h⟩ := bind_returns h
  obtain ⟨htasks₂, hroster₂, hrun⟩ := schedulerGetNextTask_returns hnext
  have hqueued := cleanupQueueEnqueue_roster (k := k₁) (s := prev)
  have htasks : k₂.tasks = k₀.tasks := by rw [htasks₂, cleanupQueueEnqueue_tasks, htasks₁]
  have hinc : ∀ x, (k₁.tasks x).incarnation = (k.tasks x).incarnation := fun x => by
    rw [htasks₁]
    exact congrArg Life.incarnation (hlife x)
  rcases next with _ | next
  · cases h
  dsimp only at h
  split at h
  · cases h
  rename_i hne
  cases h
  have hnextTask : (k₁.cleanupQueueEnqueue prev).tasks next = k.tasks next := by
    rw [cleanupQueueEnqueue_tasks, htasks₁, hother next hne]
  have hledger : (k₁.cleanupQueueEnqueue prev).ledger = k.ledger :=
    (congrArg Roster.ledger hqueued).trans (congrArg Roster.ledger hroster₁)
  have hrun' : k.runnable next = true := by
    rw [← hrun next rfl]
    exact (runnable_congr (by rw [hnextTask]) (by rw [hnextTask])
      (congrArg Ledger.slotGenerations hledger)).symm
  constructor
  · exact hlive
  · exact huser
  · intro x
    rw [enter_life, htasks, hlife]
  · rw [enter_ne (Ne.symm hne), htasks, hmarked]
  · intro x hx
    by_cases hn : x = next
    · subst hn
      exact .inr ⟨enter_self, runnable_alive hrun'⟩
    · rw [enter_ne hn, htasks, hother x hx]
      exact .inl rfl
  · exact (congrArg Roster.ledger hroster₂).trans hledger
  · refine ⟨next, rfl, hne, hrun', (congrArg Roster.dispatches hroster₂).trans ?_⟩
    refine noteDispatch_congr (by rw [hnextTask]) (congrArg Ledger.returned hledger) ?_
    exact (congrArg Roster.dispatches hqueued).trans (congrArg Roster.dispatches hroster₁)
  · have hq₁ : k₁.cleanupQueue = k.cleanupQueue := congrArg Roster.cleanupQueue hroster₁
    refine (congrArg Roster.cleanupQueue hroster₂).trans ((congrArg Roster.cleanupQueue hqueued).trans ?_)
    simp only [ref, hinc, hq₁]

/-! ## The reaper -/

theorem taskFreeResources_ne {x : Slot} (hx : x ≠ s) : (k.taskFreeResources s).tasks x = k.tasks x := by
  simp only [taskFreeResources, modifyTask_ne hx]

theorem taskFreeResources_self : (k.taskFreeResources s).tasks s = { k.tasks s with
    frames := if (k.tasks s).isKernelTask then { (k.tasks s).frames with kernelStack := [] }
      else .none } := by
  simp only [taskFreeResources, modifyTask_self]

theorem taskFreeResources_returned : (k.taskFreeResources s).log.returned =
    (freeable (k.tasks s)).map (fun f => ((k.tasks s).incarnation, f)) ++ k.log.returned := by
  simp only [taskFreeResources, modifyTask_self]
  rfl

end Kernel

/-- The slot of a queued task is freed. -/
structure Reaps (r : Ref) (k k' : Kernel) : Prop where
  others : ∀ x, x ≠ r.slot → k'.tasks x = k.tasks x
  state : (k'.tasks r.slot).state = .terminated
  pid : (k'.tasks r.slot).pid = 0
  incarnation : (k'.tasks r.slot).incarnation = (k.tasks r.slot).incarnation
  current : k'.currentRunningTask = k.currentRunningTask
  cleanupQueue : k'.cleanupQueue = k.cleanupQueue
  dispatches : k'.log.dispatches = k.log.dispatches
  freeSlotBitmap : k'.freeSlotBitmap = update k.freeSlotBitmap r.slot true
  slotFrees : k'.log.slotFrees = (k.tasks r.slot).incarnation :: k.log.slotFrees
  returned : ∃ fs : List Frame, k'.log.returned =
    fs.map (fun f => ((k.tasks r.slot).incarnation, f)) ++ k.log.returned
  releases : k'.log.releases =
    [Part.slot, .frames, .readyQueue].map
      (fun part => ⟨part, r.incarnation, (k.tasks r.slot).incarnation⟩) ++ k.log.releases
  born : k'.born = k.born
  births : k'.log.births = k.log.births
  mutexes : k'.mutexes = k.mutexes

namespace Kernel

variable {k k' : Kernel} {s : Slot}

theorem reap_reaps {r : Ref} (h : k.reap r = .ok k') : Reaps r k k' := by
  obtain ⟨k₁, hremove, rfl⟩ := map_returns h
  obtain ⟨htasks, hroster⟩ := schedulerRemoveTask_same hremove
  have hledger : k₁.ledger = k.ledger := congrArg Roster.ledger hroster
  have htask : k₁.tasks r.slot = k.tasks r.slot := congrFun htasks r.slot
  have hreturned : k₁.log.returned = k.log.returned := congrArg Ledger.returned hledger
  have hreleases : k₁.log.releases = k.log.releases := congrArg Ledger.releases hledger
  have hfrees : k₁.log.slotFrees = k.log.slotFrees := congrArg Ledger.slotFrees hledger
  constructor
  · intro x hx
    simp only [taskFreeSlot, noteRelease, modifyTask_ne hx, taskFreeResources_ne hx, htasks]
  · simp only [taskFreeSlot, noteRelease, modifyTask_self]
  · simp only [taskFreeSlot, noteRelease, modifyTask_self]
  · simp only [taskFreeSlot, noteRelease, modifyTask_self, taskFreeResources_self, htask]
  · exact congrArg Roster.currentRunningTask hroster
  · exact congrArg Roster.cleanupQueue hroster
  · exact congrArg Roster.dispatches hroster
  · exact congrArg (fun l => update l.freeSlotBitmap r.slot true) hledger
  · simp only [taskFreeSlot, noteRelease, modifyTask_self, taskFreeResources_self, htask]
    exact congrArg _ hfrees
  · refine ⟨freeable (k.tasks r.slot), ?_⟩
    have hfreed := taskFreeResources_returned (s := r.slot)
      (k := (k₁.noteRelease .readyQueue r).noteRelease .frames r)
    refine hfreed.trans ?_
    simp only [noteRelease, htask, hreturned]
  · simp only [taskFreeSlot, noteRelease, modifyTask_self, taskFreeResources_self, htask]
    rw [hreleases]
    rfl
  · exact congrArg Ledger.born hledger
  · exact congrArg Ledger.births hledger
  · exact congrArg Ledger.mutexes hledger

end Kernel

/-! ## Creating a task -/

/-- A new task begins in slot `s`. -/
structure Begins (s : Slot) (k k' : Kernel) : Prop where
  free : k.freeSlotBitmap s = true
  others : ∀ x, x ≠ s → k'.tasks x = k.tasks x
  incarnation : (k'.tasks s).incarnation = k.born + 1
  alive : (k'.tasks s).dead = false
  pid : (k'.tasks s).pid ≠ 0
  current : k'.currentRunningTask = k.currentRunningTask
  cleanupQueue : k'.cleanupQueue = k.cleanupQueue
  dispatches : k'.log.dispatches = k.log.dispatches
  ledger : k'.ledger = { k.ledger with
    freeSlotBitmap := update k.freeSlotBitmap s false
    born := k.born + 1
    births := ⟨k.born + 1, (k'.tasks s).pid, (k'.tasks s).generation, (k'.tasks s).isKernelTask⟩ ::
      k.log.births }

namespace Kernel

variable {k k' : Kernel} {s x c : Slot}

theorem setParent_ne {self : Option Slot} (hx : x ≠ s) : (k.setParent s self).tasks x = k.tasks x := by
  unfold setParent
  split
  · rfl
  · exact modifyTask_ne hx k _

theorem inheritStream_ne {st : StdStream} (hx : x ≠ s) :
    (k.inheritStream s st).tasks x = k.tasks x := by
  unfold inheritStream
  dsimp only
  split
  · rfl
  split <;> exact modifyTask_ne hx _ _

theorem streamsInherit_ne {creator : Slot} (hx : x ≠ s) :
    (k.streamsInherit s creator).tasks x = k.tasks x := by
  simp only [streamsInherit, inheritStream_ne hx, modifyTask_ne hx]

theorem schedulerAddTask_ne (hx : x ≠ s) (h : k.schedulerAddTask s = .ok k') :
    k'.tasks x = k.tasks x := by
  unfold schedulerAddTask at h
  split at h
  · cases h
    rfl
  split at h
  · cases h
    rfl
  obtain ⟨q, -, rfl⟩ := map_returns h
  simp only [modifyTask_ne hx]

theorem setParent_quiet {self : Option Slot} : Quiet c k (k.setParent s self) := by
  unfold setParent
  split
  · rfl
  · exact .modifyTask (fun _ => rfl) (.inl rfl)

theorem initTables_quiet : Quiet c k (k.initTables s) := .modifyTask (fun _ => rfl) (.inl rfl)

theorem inheritStream_quiet {st : StdStream} : Quiet c k (k.inheritStream s st) := by
  unfold inheritStream
  dsimp only
  split
  · rfl
  split
  · rename_i fd _
    have href : Quiet c k (k.ramfsRef s fd) := .of_eq rfl rfl
    exact href.trans setStream_quiet
  · exact setStream_quiet

theorem streamsInherit_quiet {creator : Slot} : Quiet c k (k.streamsInherit s creator) := by
  refine Quiet.trans ?_ inheritStream_quiet
  refine Quiet.trans ?_ inheritStream_quiet
  refine Quiet.trans ?_ inheritStream_quiet
  exact .modifyTask (fun _ => rfl) (.inl rfl)

theorem sequentialPid_ne_zero : k.sequentialPid ≠ 0 := by
  unfold sequentialPid
  rcases hfind : ((List.range' 100 65436).map UInt32.ofNat).find? fun pid => !k.pidInUse pid with
    _ | pid
  · simp
  · have hmem := List.mem_of_find?_eq_some hfind
    obtain ⟨n, hn, rfl⟩ := List.mem_map.1 hmem
    rw [List.mem_range'] at hn
    intro hzero
    have := congrArg UInt32.toNat hzero
    simp at this
    omega

theorem taskAllocPid_ne_zero (draws : Nat → UInt16) : k.taskAllocPid draws ≠ 0 := by
  unfold taskAllocPid
  rcases hfind : ((List.range 1000).map fun i => 100 + (draws i).toUInt32 % 65436).find?
      fun pid => !k.pidInUse pid with _ | pid
  · exact sequentialPid_ne_zero
  · have hmem := List.mem_of_find?_eq_some hfind
    obtain ⟨i, -, rfl⟩ := List.mem_map.1 hmem
    intro hzero
    have := congrArg UInt32.toNat hzero
    simp [UInt32.toNat_add, UInt32.toNat_mod] at this
    omega

theorem create_begins {self : Option Slot} {new : NewTask} {frames : Frames} {draws : Nat → UInt16}
    (h : k.create self new s frames draws = .ok k') : k' = k ∨ Begins s k k' := by
  unfold create at h
  split at h
  swap
  · cases h
    exact .inl rfl
  rename_i hfree
  refine .inr ?_
  dsimp only at h
  generalize hk₂ : (((k.claimSlot self s).clearTask s).setAttributes s new frames).assignPid s draws =
    k₂ at h
  -- what comes after the pid is quiet, and touches no other task
  obtain ⟨hquiet, hothers⟩ : Quiet s k₂ k' ∧ ∀ x, x ≠ s → k'.tasks x = k₂.tasks x := by
    have hadd : ∀ k₃ : Kernel, k₃.schedulerAddTask s = .ok k' → Quiet s k₃ k' :=
      fun _ => schedulerAddTask_quiet fun _ => rfl
    have htables : Quiet s k₂ ((k₂.setParent s self).initTables s) :=
      setParent_quiet.trans initTables_quiet
    have htables_ne : ∀ x, x ≠ s → ((k₂.setParent s self).initTables s).tasks x = k₂.tasks x :=
      fun x hx => (modifyTask_ne hx _ _).trans (setParent_ne hx)
    split at h
    · rcases self with _ | creator
      · exact ⟨htables.trans (hadd _ h),
          fun x hx => (schedulerAddTask_ne hx h).trans (htables_ne x hx)⟩
      · exact ⟨(htables.trans streamsInherit_quiet).trans (hadd _ h), fun x hx =>
          (schedulerAddTask_ne hx h).trans ((streamsInherit_ne hx).trans (htables_ne x hx))⟩
    · exact ⟨htables.trans (hadd _ h),
        fun x hx => (schedulerAddTask_ne hx h).trans (htables_ne x hx)⟩
  have hothers₂ : ∀ x, x ≠ s → k₂.tasks x = k.tasks x := by
    intro x hx
    rw [← hk₂]
    simp only [assignPid, setAttributes, clearTask, claimSlot, modifyTask_ne hx]
  have hinc₂ : (k₂.tasks s).incarnation = k.born + 1 := by
    rw [← hk₂]
    simp only [assignPid, setAttributes, clearTask, claimSlot, modifyTask_self]
  have hstate₂ : (k₂.tasks s).state = .ready := by
    rw [← hk₂]
    simp only [assignPid, setAttributes, clearTask, claimSlot, modifyTask_self, Task.zero]
  have hpid₂ : (k₂.tasks s).pid ≠ 0 := by
    rw [← hk₂]
    simp only [assignPid, modifyTask_self]
    exact taskAllocPid_ne_zero draws
  have hroster₂ : k₂.roster = { k.roster with
      ledger := { k.ledger with
        freeSlotBitmap := update k.freeSlotBitmap s false, born := k.born + 1
        births := ⟨(k₂.tasks s).incarnation, (k₂.tasks s).pid, (k₂.tasks s).generation,
          (k₂.tasks s).isKernelTask⟩ :: k.log.births } } := by
    rw [← hk₂]
    rfl
  have hroster := hquiet.roster.trans hroster₂
  constructor
  · exact hfree
  · intro x hx
    rw [hothers x hx, hothers₂ x hx]
  · rw [hquiet.incarnation, hinc₂]
  · exact hquiet.alive (by simp [Task.dead, hstate₂])
  · rw [hquiet.pid]
    exact hpid₂
  · exact congrArg Roster.currentRunningTask hroster
  · exact congrArg Roster.cleanupQueue hroster
  · exact congrArg Roster.dispatches hroster
  · have hkernel : (k'.tasks s).isKernelTask = (k₂.tasks s).isKernelTask :=
      congrArg Life.isKernelTask (hquiet.life s)
    refine (congrArg Roster.ledger hroster).trans ?_
    rw [hinc₂, hquiet.pid, hquiet.generation, hkernel]

end Kernel

/-! ## Numbering tasks -/

/-- No two slots are used by the same task, and a slot that was never used has no pid. -/
structure Numbered (k : Kernel) : Prop where
  bounded : ∀ s, (k.tasks s).incarnation ≤ k.born
  unique : ∀ s s', (k.tasks s).incarnation = (k.tasks s').incarnation →
    (k.tasks s).incarnation ≠ 0 → s = s'
  unused : ∀ s, (k.tasks s).incarnation = 0 → (k.tasks s).pid = 0
  running : ∀ s, k.currentRunningTask = some s → (k.tasks s).incarnation ≠ 0

namespace Numbered

variable {k k' : Kernel}

theorem of_incarnation (h : Numbered k)
    (hinc : ∀ s, (k'.tasks s).incarnation = (k.tasks s).incarnation)
    (hpid : ∀ s, (k'.tasks s).pid = (k.tasks s).pid ∨ (k'.tasks s).pid = 0)
    (hborn : k'.born = k.born)
    (hcurrent : ∀ s, k'.currentRunningTask = some s →
      k.currentRunningTask = some s ∨ k.runnable s = true) : Numbered k' := by
  constructor
  · intro s
    rw [hinc, hborn]
    exact h.bounded s
  · intro s s' heq hne
    rw [hinc] at heq hne
    rw [hinc] at heq
    exact h.unique s s' heq hne
  · intro s hs
    rw [hinc] at hs
    rcases hpid s with hsame | hzero
    · rw [hsame]
      exact h.unused s hs
    · exact hzero
  · intro s hs
    rw [hinc]
    rcases hcurrent s hs with hold | hrun
    · exact h.running s hold
    · -- a task that can run has a pid
      exact fun hzero => runnable_pid hrun (h.unused s hzero)

theorem of_reaps {r : Ref} (h : Numbered k) (hreaps : Reaps r k k') : Numbered k' := by
  refine h.of_incarnation ?_ ?_ hreaps.born fun _ hs => .inl (hreaps.current ▸ hs)
  · intro s
    by_cases hs : s = r.slot
    · rw [hs, hreaps.incarnation]
    · rw [hreaps.others s hs]
  · intro s
    by_cases hs : s = r.slot
    · rw [hs]
      exact .inr hreaps.pid
    · rw [hreaps.others s hs]
      exact .inl rfl

theorem of_begins {s : Slot} (h : Numbered k) (hbegins : Begins s k k') : Numbered k' := by
  have hborn : k'.born = k.born + 1 := congrArg Ledger.born hbegins.ledger
  constructor
  · intro x
    rw [hborn]
    by_cases hx : x = s
    · rw [hx, hbegins.incarnation]
    · rw [hbegins.others x hx]
      exact Nat.le_succ_of_le (h.bounded x)
  · intro x y heq hne
    by_cases hx : x = s
    · by_cases hy : y = s
      · rw [hx, hy]
      -- the number of the new task is not one of the old ones
      rw [hx, hbegins.incarnation, hbegins.others y hy] at heq
      exact absurd (heq.trans_le (h.bounded y)) (Nat.not_succ_le_self k.born)
    · by_cases hy : y = s
      · rw [hy, hbegins.incarnation, hbegins.others x hx] at heq
        exact absurd (heq.symm.trans_le (h.bounded x)) (Nat.not_succ_le_self k.born)
      rw [hbegins.others x hx] at heq hne
      rw [hbegins.others y hy] at heq
      exact h.unique x y heq hne
  · intro x hx
    by_cases hxs : x = s
    · rw [hxs, hbegins.incarnation] at hx
      cases hx
    · rw [hbegins.others x hxs] at hx ⊢
      exact h.unused x hx
  · intro x hx
    by_cases hxs : x = s
    · rw [hxs, hbegins.incarnation]
      exact Nat.succ_ne_zero _
    · rw [hbegins.others x hxs]
      exact h.running x (hbegins.current ▸ hx)

end Numbered

/-! ## Moves of the machine -/

/-- What an event can do to the machine. -/
inductive Move (m : Machine) : Event → Machine → Prop
  | idle (e : Event) : Move m e m
  | call {c : Call} {self : Slot} (hself : m.kernel.currentRunningTask = some self)
      (hcode : m.codeOf self = []) : Move m (.call c) (m.setCode self m.kernel c.code)
  | step {x : Input} {self : Slot} {i : Instr} {rest more : List Instr} {k : Kernel}
      (hself : m.kernel.currentRunningTask = some self) (hcode : m.codeOf self = i :: rest)
      (hexec : i.exec x self m.kernel = .ok (k, more)) :
      Move m (.step x) (m.setCode self k (more ++ rest))
  | tick {k : Kernel} (htick : m.kernel.tick = .ok k) : Move m .tick ⟨k, m.code⟩
  | fault {self : Slot} {k : Kernel} (hself : m.kernel.currentRunningTask = some self)
      (hcode : m.codeOf self = []) (hfaults : Faults self m.kernel k) : Move m .fault ⟨k, m.code⟩
  | net {i : Tcp.Idx} {conn : Tcp.Conn} : Move m (.net i conn) ⟨m.kernel.tcpChange i conn, m.code⟩

theorem Machine.step_move {m m' : Machine} {e : Event} (h : m.step e = .ok m') : Move m e m' := by
  revert h
  fun_cases m.step e <;> intro h
  case case2 c self hself hcode =>
    cases h
    exact .call hself hcode
  case case5 x self hself =>
    unfold Machine.advance at h
    split at h
    · cases h
      exact .idle _
    rename_i i rest hcode
    obtain ⟨⟨k, more⟩, hexec, rfl⟩ := map_returns h
    exact .step hself hcode hexec
  case case6 =>
    obtain ⟨k, htick, rfl⟩ := map_returns h
    exact .tick htick
  case case8 self hself hcode =>
    obtain ⟨k, hfault, rfl⟩ := map_returns h
    exact .fault hself hcode (terminateCurrentFromInterrupt_faults hself hfault)
  case case10 =>
    cases h
    exact .net
  all_goals
    cases h
    exact .idle _

end TinyOS.Proc
