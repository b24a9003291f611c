import TinyOS.Proc.Kernel

/-!
# Scheduler: the ready ring under all its operations

The operations on the ready queue, in any order and with anything else happening to the
tasks in between, and next to them the set of tasks that should be queued: those added
or woken and not since removed, blocked or rejected.

`Serves` says that the ring is what it should be. A removal of the task at the head
keeps it only while the head is behind the tail. After the head has moved on, the tail
is not the task before it, and `scheduler_remove_task_locked` cuts out the tasks between
the two.
-/

namespace TinyOS.Proc

open Lib ReadyQueue List Kernel

/-- An operation on the ready queue, or anything else. -/
inductive QueueOp where
  | add (s : Slot)
  | remove (s : Slot)
  | block (s : Slot)
  | wakeup (s : Slot)
  | getNext
  /-- The head advance of `scheduler_yield`. -/
  | advance
  /-- The rest of the kernel becomes `k`. -/
  | other (k : Kernel)

/-- The kernel after an operation, and the tasks it rejected. -/
def QueueOp.run (k : Kernel) : QueueOp → Except Halt (Kernel × List Slot)
  | .add s => (k.schedulerAddTask s).map (·, [])
  | .remove s => (k.schedulerRemoveTask s).map (·, [])
  | .block s => (k.schedulerBlockTask s).map (·, [])
  | .wakeup s => (k.schedulerWakeupTask s).map (·, [])
  | .getNext => k.schedulerGetNextTask.map fun (_, rejected, k) => (k, rejected)
  | .advance => .ok (k.currentRunningTask.elim k k.yieldHead, [])
  | .other k' => .ok ({ k' with ready := k.ready }, [])

/-- Which tasks should be queued after an operation. A task without a pid is not added. -/
def QueueOp.expected (k : Kernel) (rejected : List Slot) (ms : Finset Slot) : QueueOp → Finset Slot
  | .add s => if 1 ≤ (k.tasks s).pid then insert s ms else ms
  | .wakeup s => if (k.tasks s).state = .blocked ∧ 1 ≤ (k.tasks s).pid then insert s ms else ms
  | .remove s => ms.erase s
  | .block s => ms.erase s
  | .getNext => ms.filter (· ∉ rejected)
  | .advance => ms
  | .other _ => ms

/-- The kernel, and which tasks should be queued. -/
structure QueueSystem where
  kernel : Kernel
  expected : Finset Slot

namespace QueueSystem

/-- After `scheduler_init`. -/
def start (k : Kernel) : QueueSystem := ⟨k.schedulerInit, ∅⟩

/-- Do an operation. -/
def step (m : QueueSystem) (op : QueueOp) : Except Halt QueueSystem :=
  (op.run m.kernel).map fun (k, rejected) => ⟨k, op.expected m.kernel rejected m.expected⟩

/-- Do operations in order. -/
def run (m : QueueSystem) (ops : List QueueOp) : Except Halt QueueSystem := ops.foldlM step m

/-- The step relation. -/
def Step (m : QueueSystem) (op : QueueOp) (m' : QueueSystem) : Prop := m.step op = .ok m'

end QueueSystem

/-- The task is met when following `next` from the head. -/
def OnRing (q : ReadyQueue) (s : Slot) : Prop := ∃ h i, q.head = some h ∧ follow q.next i h = some s

/-- Following `next` from the head visits exactly the tasks `ms`, each once, and returns to
the head. The tail is one of them. -/
structure Serves (q : ReadyQueue) (ms : Finset Slot) : Prop where
  empty : ms = ∅ → q.head = none ∧ q.tail = none
  returns : ms.Nonempty → ∃ h, q.head = some h ∧ follow q.next ms.card h = some h
  visits : ∀ h, q.head = some h → ∀ i < ms.card, ∃ s ∈ ms, follow q.next i h = some s
  once : ∀ h, q.head = some h → ∀ s ∈ ms, ∃! i, i < ms.card ∧ follow q.next i h = some s
  tail : ms.Nonempty → ∃ t ∈ ms, q.tail = some t

/-- A task at the head is removed, blocked or rejected only while the head is behind the
tail. -/
def QueueGuard (k : Kernel) : QueueOp → Prop
  | .remove s => k.ready.UnlinkSafe s
  | .block s => k.ready.UnlinkSafe s
  | .getNext => ∀ h, k.ready.head = some h → k.runnable h = false → k.ready.Aligned
  | _ => True

/-- A step that meets the guard. -/
def QueueStep (m : QueueSystem) (op : QueueOp) (m' : QueueSystem) : Prop :=
  QueueGuard m.kernel op ∧ m.Step op m'

/-! ## The ring as a list -/

namespace RingOf

variable {q : ReadyQueue} {l : List Slot} {ms : Finset Slot}

theorem follow_lt {h : Slot} (hq : RingOf q (h :: l)) {i : Nat} (hi : i < l.length + 1) :
    follow q.next i h = (h :: l)[i]? := by
  rw [hq.circle.follow (by omega), getElem?_append_left (by simpa using hi)]

theorem serves (hq : RingOf q l) (hms : ∀ s, s ∈ ms ↔ s ∈ l) : Serves q ms := by
  have hcard : ms.card = l.length := by
    have : ms = l.toFinset := by
      ext s
      simp [hms]
    rw [this, toFinset_card_of_nodup hq.circle.nodup]
  rcases l with _ | ⟨h, l⟩
  · have hempty : ms = ∅ := Finset.eq_empty_of_forall_notMem fun s hs => by simpa using (hms s).1 hs
    have htail : q.tail = none := by
      rcases hq.tail with ⟨-, ht⟩ | ⟨t, ht, -⟩
      · exact ht
      · cases ht
    constructor
    · exact fun _ => ⟨hq.head, htail⟩
    · exact fun hne => absurd hempty hne.ne_empty
    · intro h' hh'
      rw [hq.head] at hh'
      cases hh'
    · intro h' hh'
      rw [hq.head] at hh'
      cases hh'
    · exact fun hne => absurd hempty hne.ne_empty
  · have hmem : h ∈ ms := (hms h).2 (by simp)
    have hhead : ∀ h', q.head = some h' → h' = h := by
      intro h' hh'
      rw [hq.head] at hh'
      exact (Option.some.inj hh').symm
    constructor
    · intro hempty
      rw [hempty] at hmem
      cases hmem
    · refine fun _ => ⟨h, hq.head, ?_⟩
      rw [hcard, hq.circle.follow (by simp)]
      simp
    · intro h' hh' i hi
      rw [hhead h' hh']
      have hi' : i < (h :: l).length := hcard ▸ hi
      refine ⟨(h :: l)[i], (hms _).2 (getElem_mem hi'), ?_⟩
      rw [hq.follow_lt (by simpa using hi'), getElem?_eq_getElem hi']
    · intro h' hh' s hs
      rw [hhead h' hh', hcard]
      obtain ⟨i, hi, his⟩ := getElem_of_mem ((hms s).1 hs)
      refine ⟨i, ⟨hi, ?_⟩, ?_⟩
      · rw [hq.follow_lt (by simpa using hi), getElem?_eq_getElem hi, his]
      · -- the tasks of the list are distinct
        rintro j ⟨hj, hjs⟩
        rw [hq.follow_lt (by simpa using hj), getElem?_eq_getElem hj, Option.some.injEq] at hjs
        exact (hq.circle.nodup.getElem_inj_iff).1 (hjs.trans his.symm)
    · intro _
      obtain ⟨t, ht, htail⟩ := hq.tail_of_cons
      exact ⟨t, (hms t).2 ht, htail⟩

theorem mem_of_onRing (hq : RingOf q l) {s : Slot} (hs : OnRing q s) : s ∈ l := by
  obtain ⟨h, i, hhead, hfollow⟩ := hs
  induction i generalizing h l q with
  | zero =>
    rw [follow, Option.some.injEq] at hfollow
    subst hfollow
    rw [hq.head] at hhead
    exact mem_of_mem_head? hhead
  | succ i ih =>
    rcases l with _ | ⟨h', l⟩
    · rw [hq.head] at hhead
      cases hhead
    · -- one step on, the ring is the rotated list
      have hh : h' = h := by
        rw [hq.head] at hhead
        exact Option.some.inj hhead
      subst hh
      have hrot := hq.advance_head
      obtain ⟨c, hc, hfollow⟩ := Option.bind_eq_some_iff.1 hfollow
      have := ih hrot c hc hfollow
      simpa [or_comm] using this

theorem onRing_of_mem (hq : RingOf q l) {s : Slot} (hs : s ∈ l) : OnRing q s := by
  rcases l with _ | ⟨h, l⟩
  · cases hs
  · obtain ⟨i, hi, his⟩ := getElem_of_mem hs
    refine ⟨h, i, hq.head, ?_⟩
    rw [hq.follow_lt (by simpa using hi), getElem?_eq_getElem hi, his]

end RingOf

/-! ## Every step keeps the ring -/

/-- The ring is a list of the tasks that should be queued. -/
def RingInv (m : QueueSystem) : Prop := ∃ l, RingOf m.kernel.ready l ∧ ∀ s, s ∈ m.expected ↔ s ∈ l

/-- What a step of the guarded system does: it returns, and the ring is again what it
should be. -/
def Keeps (m : QueueSystem) (op : QueueOp) : Prop :=
  ∃ m', m.step op = .ok m' ∧ RingInv m' ∧
    ∀ t, op = .remove t ∨ op = .block t → ∀ s, s ≠ t → OnRing m.kernel.ready s →
      OnRing m'.kernel.ready s

section steps

variable {m : QueueSystem} {s : Slot}

theorem add_ring {k : Kernel} {l : List Slot} (hq : RingOf k.ready l) (s : Slot) :
    ∃ k' l', k.schedulerAddTask s = .ok k' ∧ RingOf k'.ready l' ∧
      ∀ x, x ∈ l' ↔ 1 ≤ (k.tasks s).pid ∧ x = s ∨ x ∈ l := by
  by_cases hpid : (k.tasks s).pid < 1
  · have hnot : ¬ 1 ≤ (k.tasks s).pid := UInt32.not_le.2 hpid
    exact ⟨k, l, by rw [schedulerAddTask, if_pos hpid], hq, by simp [hnot]⟩
  have hle : 1 ≤ (k.tasks s).pid := UInt32.not_lt.1 hpid
  by_cases hs : s ∈ l
  · refine ⟨k, l, ?_, hq, ?_⟩
    · rw [schedulerAddTask, if_neg hpid, if_pos (hq.linked_iff.2 hs)]
    · intro x
      constructor
      · exact .inr
      · rintro (⟨-, rfl⟩ | hx)
        · exact hs
        · exact hx
  · obtain ⟨q', l', hlink, hq', hmem⟩ := hq.link hs
    have hadd : k.schedulerAddTask s = .ok
        { k.modifyTask s fun t => { t with state := .ready, ticksRemaining := t.timeSlice } with
          ready := q' } := by
      rw [schedulerAddTask, if_neg hpid, if_neg (fun h => hs (hq.linked_iff.1 h)), hlink]
      rfl
    exact ⟨_, l', hadd, hq', by simp [hmem, hle]⟩

variable (h : RingInv m)

include h

theorem add_keeps : Keeps m (.add s) := by
  obtain ⟨l, hq, hms⟩ := h
  obtain ⟨k', l', hadd, hq', hmem⟩ := add_ring hq s
  refine ⟨_, by rw [QueueSystem.step, QueueOp.run, hadd]; rfl, ⟨l', hq', ?_⟩, by simp⟩
  intro x
  show x ∈ (if _ then _ else _) ↔ _
  split <;> simp_all

theorem wakeup_keeps : Keeps m (.wakeup s) := by
  obtain ⟨l, hq, hms⟩ := h
  by_cases hb : (m.kernel.tasks s).state = .blocked
  · obtain ⟨k', l', hadd, hq', hmem⟩ := add_ring hq s
    have hwake : m.kernel.schedulerWakeupTask s = .ok k' := by
      rw [schedulerWakeupTask, if_neg (by simpa using hb), hadd]
    refine ⟨_, by rw [QueueSystem.step, QueueOp.run, hwake]; rfl, ⟨l', hq', ?_⟩, by simp⟩
    intro x
    show x ∈ (if _ then _ else _) ↔ _
    split <;> simp_all
  · -- a task that is not blocked is left alone
    have hwake : m.kernel.schedulerWakeupTask s = .ok m.kernel := by
      rw [schedulerWakeupTask, if_pos hb]
    refine ⟨⟨m.kernel, QueueOp.expected m.kernel [] m.expected (.wakeup s)⟩,
      by rw [QueueSystem.step, QueueOp.run, hwake]; rfl, ⟨l, hq, ?_⟩, by simp⟩
    intro x
    show x ∈ (if _ then _ else _) ↔ _
    rw [if_neg (fun hand => hb hand.1)]
    exact hms x

omit h in
theorem erase_iff {l : List Slot} {q : ReadyQueue} (hq : RingOf q l) (x : Slot) :
    x ∈ l.erase s ↔ x ≠ s ∧ x ∈ l := hq.circle.nodup.mem_erase_iff

theorem unlink_keeps {op : QueueOp} (hop : op = .remove s ∨ op = .block s)
    (hsafe : m.kernel.ready.UnlinkSafe s) : Keeps m op := by
  obtain ⟨l, hq, hms⟩ := h
  obtain ⟨q', hunlink, hq'⟩ := hq.unlink hsafe
  obtain ⟨k', hstep, rfl⟩ : ∃ k', m.step op = .ok ⟨k', m.expected.erase s⟩ ∧ k'.ready = q' := by
    rcases hop with rfl | rfl
    · exact ⟨_, by rw [QueueSystem.step, QueueOp.run, schedulerRemoveTask, hunlink]; rfl, rfl⟩
    · exact ⟨_, by rw [QueueSystem.step, QueueOp.run, schedulerBlockTask,
        schedulerRemoveTask, hunlink]; rfl, rfl⟩
  refine ⟨_, hstep, ⟨l.erase s, hq', fun x => ?_⟩, fun t ht x hxt hx => ?_⟩
  · rw [Finset.mem_erase, erase_iff hq, hms]
  · obtain rfl : t = s := by
      rcases hop with rfl | rfl <;> rcases ht with ht | ht <;> cases ht <;> rfl
    exact hq'.onRing_of_mem ((erase_iff hq x).2 ⟨hxt, hq.mem_of_onRing hx⟩)

theorem getNext_keeps
    (hal : ∀ h, m.kernel.ready.head = some h → m.kernel.runnable h = false → m.kernel.ready.Aligned) :
    Keeps m .getNext := by
  obtain ⟨l, hq, hms⟩ := h
  have hdepth : l.length < nextTaskDepth :=
    Nat.lt_of_le_of_lt hq.length_le (by decide)
  obtain ⟨q', l', hnext, hq', hmem⟩ := hq.nextRunnable m.kernel.runnable hal hdepth
  refine ⟨_, by rw [QueueSystem.step, QueueOp.run, schedulerGetNextTask, hnext]; rfl,
    ⟨l', hq', ?_⟩, by simp⟩
  intro x
  show x ∈ m.expected.filter _ ↔ _
  rw [Finset.mem_filter, hms, hmem]
  -- the rejected tasks are those before the first runnable one
  have hsplit := takeWhile_append_dropWhile (p := fun s => !m.kernel.runnable s) (l := l)
  have hdisj := (nodup_append.1 (hsplit.symm ▸ hq.circle.nodup)).2.2
  constructor
  · rintro ⟨hx, hnot⟩
    rw [← hsplit, mem_append] at hx
    exact hx.resolve_left hnot
  · intro hx
    constructor
    · rw [← hsplit]
      exact mem_append_right _ hx
    · intro hrej
      exact hdisj x hrej x hx rfl

theorem advance_keeps : Keeps m .advance := by
  obtain ⟨l, hq, hms⟩ := h
  rcases hc : m.kernel.currentRunningTask with _ | c
  · refine ⟨_, by rw [QueueSystem.step, QueueOp.run, hc]; rfl, ⟨l, hq, hms⟩, by simp⟩
  · obtain ⟨l', hq', hmem⟩ := hq.advance c
    refine ⟨_, by rw [QueueSystem.step, QueueOp.run, hc]; rfl, ⟨l', hq', ?_⟩, by simp⟩
    intro x
    rw [hmem]
    exact hms x

theorem op_keeps {op : QueueOp} (hguard : QueueGuard m.kernel op) : Keeps m op := by
  cases op with
  | add s => exact add_keeps h
  | remove s => exact unlink_keeps h (.inl rfl) hguard
  | block s => exact unlink_keeps h (.inr rfl) hguard
  | wakeup s => exact wakeup_keeps h
  | getNext => exact getNext_keeps h hguard
  | advance => exact advance_keeps h
  | other k =>
    obtain ⟨l, hq, hms⟩ := h
    exact ⟨_, rfl, ⟨l, hq, hms⟩, by simp⟩

end steps

theorem ringInv_start (k : Kernel) : RingInv (.start k) :=
  ⟨[], ⟨.nil, rfl, .inl ⟨rfl, rfl⟩⟩, by simp [QueueSystem.start]⟩

theorem ringInv_step {m m' : QueueSystem} {op : QueueOp} (h : RingInv m) (hstep : QueueStep m op m') :
    RingInv m' := by
  obtain ⟨m₁, hm₁, hinv, -⟩ := op_keeps h hstep.1
  have : m₁ = m' := Except.ok.inj (hm₁.symm.trans hstep.2)
  exact this ▸ hinv

/-- In every run whose removals, blocks and rejections of the task at the head happen
only while the head is behind the tail, the ring is what it should be; and every such
operation returns, and a removal or block of one task leaves the others in the ring. -/
theorem ready_ring_intact {k : Kernel} {ops : List QueueOp} {m : QueueSystem}
    (hrun : Run QueueStep (.start k) ops m) :
    Serves m.kernel.ready m.expected ∧
      ∀ op, QueueGuard m.kernel op → ∃ m', m.step op = .ok m' ∧
        ∀ t, op = .remove t ∨ op = .block t → ∀ s, s ≠ t → OnRing m.kernel.ready s →
          OnRing m'.kernel.ready s := by
  have hinv : RingInv m := hrun.invariant (fun _ _ _ => ringInv_step) (ringInv_start k)
  constructor
  · obtain ⟨l, hq, hms⟩ := hinv
    exact hq.serves hms
  · intro op hguard
    obtain ⟨m', hm', -, hothers⟩ := op_keeps hinv hguard
    exact ⟨m', hm', hothers⟩

/-- Tasks with pids from 100 on. -/
def pidTasks : Kernel :=
  { Kernel.boot with tasks := fun s => { Task.zero with pid := 100 + UInt32.ofNat s } }

instance (k : Kernel) : DecidablePred (QueueGuard k)
  | .remove s => inferInstanceAs (Decidable (k.ready.UnlinkSafe s))
  | .block s => inferInstanceAs (Decidable (k.ready.UnlinkSafe s))
  | .getNext => inferInstanceAs (Decidable (∀ h, k.ready.head = some h → _ → k.ready.Aligned))
  | .add _ | .wakeup _ | .advance | .other _ => instDecidableTrue

/-- Do operations in order, as long as they meet the guard. -/
def QueueSystem.runGuarded (m : QueueSystem) (ops : List QueueOp) : Except Halt QueueSystem :=
  ops.foldlM (fun m op => if QueueGuard m.kernel op then m.step op else .error .panic) m

/-- Two tasks are added, the first is scheduled and then removed. -/
def scheduledRemoval : List QueueOp := [.add 0, .add 1, .getNext, .remove 0]

theorem ready_ring_after_removal :
    ∃ m, Run QueueStep (.start pidTasks) scheduledRemoval m ∧ m.expected = {1} ∧
      Serves m.kernel.ready m.expected := by
  have heval : ((QueueSystem.start pidTasks).runGuarded scheduledRemoval).toOption.map
      (fun m => m.expected) = some {1} := by decide +kernel
  rcases hm : (QueueSystem.start pidTasks).runGuarded scheduledRemoval with e | m
  · rw [hm] at heval
    cases heval
  · rw [hm] at heval
    have hrun : Run QueueStep _ _ m := Run.of_foldlM_guarded hm
    exact ⟨m, hrun, Option.some.inj heval, (ready_ring_intact hrun).1⟩

/-! ## Losing a task -/

theorem onRing_eq_of_self {q : ReadyQueue} {h s : Slot} (hhead : q.head = some h)
    (hself : q.next h = some h) (hs : OnRing q s) : s = h := by
  obtain ⟨h', i, hh', hfollow⟩ := hs
  obtain rfl : h = h' := Option.some.inj (hhead.symm.trans hh')
  have : ∀ i, follow q.next i h = some h := by
    intro i
    induction i with
    | zero => rfl
    | succ i ih => rw [follow, hself, Option.bind_some, ih]
  rw [this i] at hfollow
  exact (Option.some.inj hfollow).symm

/-- Three tasks are added and the first is scheduled, so that the second is at the head and
the third at the tail. Removing the second takes the first out as well. -/
def rotatedRemoval : List QueueOp := [.add 0, .add 1, .add 2, .getNext, .remove 1]

/-- The first task was added and not removed, and is not in the ring. -/
theorem removal_loses_task :
    ∃ m, Run QueueSystem.Step (.start pidTasks) rotatedRemoval m ∧
      (∀ s, 1 ≤ (pidTasks.tasks s).pid) ∧ 0 ∈ m.expected ∧ ¬ OnRing m.kernel.ready 0 ∧
      ¬ Serves m.kernel.ready m.expected := by
  have heval : (QueueSystem.run (.start pidTasks) rotatedRemoval).toOption.map (fun m =>
      (m.kernel.ready.head, m.kernel.ready.next 2, decide (0 ∈ m.expected))) =
      some (some 2, some 2, true) := by decide +kernel
  rcases hm : QueueSystem.run (.start pidTasks) rotatedRemoval with e | m
  · rw [hm] at heval
    cases heval
  · rw [hm] at heval
    simp only [Except.toOption, Option.map_some, Option.some.injEq, Prod.mk.injEq,
      decide_eq_true_eq] at heval
    obtain ⟨hhead, hself, hmem⟩ := heval
    have hlost : ¬ OnRing m.kernel.ready 0 := by
      intro h
      exact absurd (onRing_eq_of_self hhead hself h) (by decide)
    refine ⟨m, Run.of_foldlM hm, by decide, hmem, hlost, ?_⟩
    intro hserves
    obtain ⟨i, ⟨-, hi⟩, -⟩ := hserves.once 2 hhead 0 hmem
    exact hlost ⟨2, i, hhead, hi⟩

end TinyOS.Proc
