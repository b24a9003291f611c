import TinyOS.Lib.Circle
import Mathlib.Algebra.Ring.Nat
import Mathlib.Data.Fintype.Card

/-!
# Scheduler: the ready queue

The ready queue of `scheduler.c` is a circular list threaded through `task->next`.
`ready_queue_tail` is the task behind which the next one is added. `ready_queue_head`
is the round-robin cursor: it moves on with every scheduling decision, so it is in
general not the task behind the tail.

`scheduler_remove_task_locked` searches for the task from the head on, and takes the
tail for the task before the head. This is right for a task other than the head, and
for the head itself only while the tail links to it (`UnlinkSafe`).

`RingOf q l` says that the queue is a circle of the tasks `l`, in the order they are met
from the head on. The lemmas say what the queue operations do to `l`.
-/

namespace TinyOS.Proc

open Lib Function List

def maxTasks : Nat := 32

instance : NeZero maxTasks := ⟨by decide⟩

/-- A pointer into `tasks[]`. -/
abbrev Slot := Fin maxTasks

/-- The kernel stops. -/
inductive Halt where
  | nullDereference
  | panic
  /-- A recursion that does not end. -/
  | noReturn
  deriving DecidableEq, Repr

/-- `ready_queue_head`, `ready_queue_tail` and the field `next` of the tasks. -/
structure ReadyQueue where
  head : Option Slot
  tail : Option Slot
  next : Slot → Option Slot

namespace ReadyQueue

/-- The queue after `scheduler_init`. -/
def empty : ReadyQueue := ⟨none, none, fun _ => none⟩

/-- The scan of `scheduler_add_task`: `steps` counts down from `MAX_TASKS`. -/
def linkedFrom (q : ReadyQueue) (task : Slot) : Nat → Slot → Bool
  | 0, _ => false
  | steps + 1, scan =>
    if scan = task then true
    else
      match q.next scan with
      | none => false
      | some scan' => if q.head = some scan' then false else linkedFrom q task steps scan'

/-- Whether `scheduler_add_task` finds the task already queued. -/
def linked (q : ReadyQueue) (task : Slot) : Bool :=
  match q.head with
  | none => false
  | some head => q.linkedFrom task (maxTasks + 1) head

/-- The insertion of `scheduler_add_task`. -/
def link (q : ReadyQueue) (task : Slot) : Except Halt ReadyQueue :=
  match q.head with
  | none => .ok ⟨some task, some task, update q.next task (some task)⟩
  | some _ =>
    match q.tail with
    | none => .error .nullDereference
    | some tail =>
      .ok
        { q with
          tail := some task
          next := update (update q.next tail (some task)) task (q.next tail) }

/-- Take out `task`, which is taken to be behind `prev`. -/
def splice (q : ReadyQueue) (prev task : Slot) : ReadyQueue where
  head := if q.head = some task then q.next task else q.head
  tail := if q.tail = some task then some prev else q.tail
  next := update (update q.next prev (q.next task)) task none

/-- The loop of `scheduler_remove_task_locked`: `iterations` counts down from
`MAX_SCHEDULER_LIST_ITERATIONS`. -/
def unlinkLoop (q : ReadyQueue) (task : Slot) :
    Nat → Option Slot → Option Slot → Except Halt ReadyQueue
  | 0, _, _ => .error .panic
  | _ + 1, _, none => .error .nullDereference
  | iterations + 1, prev, some current =>
    if current = task then
      prev.elim (.error .nullDereference) fun prev => .ok (q.splice prev task)
    else if q.next current = q.head then .ok q
    else unlinkLoop q task iterations (some current) (q.next current)

/-- `scheduler_remove_task_locked`. -/
def unlink (q : ReadyQueue) (task : Slot) : Except Halt ReadyQueue :=
  if q.head = none then .ok q
  else if q.next task = some task ∧ q.head = some task then
    .ok ⟨none, none, update q.next task none⟩
  else q.unlinkLoop task (maxTasks + 1) q.tail q.head

/-- The recursion of `scheduler_get_next_task`: tasks that are not `runnable` are taken
out, and the head moves past the first one that is. Returns that task, the queue and
the tasks rejected. -/
def nextRunnable (runnable : Slot → Bool) :
    Nat → ReadyQueue → Except Halt (Option Slot × ReadyQueue × List Slot)
  | 0, _ => .error .noReturn
  | depth + 1, q =>
    match q.head with
    | none => .ok (none, q, [])
    | some task =>
      if runnable task then .ok (some task, { q with head := q.next task }, [])
      else
        match q.unlink task with
        | .error e => .error e
        | .ok q' =>
          match nextRunnable runnable depth q' with
          | .error e => .error e
          | .ok (next, q'', rejected) => .ok (next, q'', task :: rejected)

/-- The head advance of `scheduler_yield`. -/
def advance (q : ReadyQueue) (current : Slot) : ReadyQueue :=
  if q.head = some current then { q with head := q.next current } else q

/-- The head is behind the tail. -/
def Aligned (q : ReadyQueue) : Prop := q.tail.bind q.next = q.head

instance (q : ReadyQueue) : Decidable q.Aligned := inferInstanceAs (Decidable (_ = _))

/-- The task may be taken out without losing others: it is not the head, or the head is
behind the tail. -/
def UnlinkSafe (q : ReadyQueue) (task : Slot) : Prop := q.head = some task → q.Aligned

instance (q : ReadyQueue) (task : Slot) : Decidable (q.UnlinkSafe task) :=
  inferInstanceAs (Decidable (_ → _))

end ReadyQueue

open ReadyQueue

/-- The queue is a circle of the tasks `l`, from the head on, and the tail is one of
them. -/
structure RingOf (q : ReadyQueue) (l : List Slot) : Prop where
  circle : Circle q.next l
  head : q.head = l.head?
  tail : l = [] ∧ q.tail = none ∨ ∃ t ∈ l, q.tail = some t

namespace RingOf

variable {q : ReadyQueue} {l : List Slot} {s h : Slot}

theorem length_le (hq : RingOf q l) : l.length ≤ maxTasks := by
  have := hq.circle.nodup.length_le_card
  simpa using this

theorem tail_of_cons (hq : RingOf q (h :: l)) : ∃ t ∈ h :: l, q.tail = some t := by
  rcases hq.tail with ⟨hnil, -⟩ | ht
  · cases hnil
  · exact ht

/-! ## Adding -/

/-- The scan meets every task from where it is up to the head. -/
theorem linkedFrom_eq {c : Slot} {rest : List Slot} {fuel : Nat} (hhead : q.head = some h)
    (hlinks : Links q.next (c :: rest) (some h)) (hnot : h ∉ rest)
    (hfuel : rest.length < fuel) : q.linkedFrom s fuel c = decide (s ∈ c :: rest) := by
  induction rest generalizing c fuel with
  | nil =>
    obtain ⟨fuel, rfl⟩ := Nat.exists_eq_add_one.mpr hfuel
    have hc : q.next c = some h := hlinks.1
    rw [linkedFrom, hc]
    by_cases hcs : c = s
    · simp [hcs]
    · simp [hcs, hhead, Ne.symm hcs]
  | cons d rest ih =>
    obtain ⟨fuel, rfl⟩ := Nat.exists_eq_add_one.mpr (Nat.zero_lt_of_lt hfuel)
    have hc : q.next c = some d := hlinks.1
    rw [mem_cons, not_or] at hnot
    rw [linkedFrom, hc]
    by_cases hcs : c = s
    · simp [hcs]
    have hd : ¬ q.head = some d := by
      rw [hhead, Option.some.injEq]
      exact hnot.1
    rw [if_neg hcs]
    simp only [if_neg hd]
    rw [ih hlinks.2 hnot.2 (by simpa using hfuel)]
    simp [Ne.symm hcs]

theorem linked_iff (hq : RingOf q l) : q.linked s = true ↔ s ∈ l := by
  rcases l with _ | ⟨h, rest⟩
  · simp [linked, hq.head]
  · have hhead : q.head = some h := hq.head
    have hlen := hq.length_le
    rw [linked, hhead]
    simp only
    rw [linkedFrom_eq hhead hq.circle.links (nodup_cons.1 hq.circle.nodup).1
      (by simp at hlen; omega)]
    simp

/-- A task that is not in the ring is put behind the tail. -/
theorem link (hq : RingOf q l) (hs : s ∉ l) :
    ∃ q' l', q.link s = .ok q' ∧ RingOf q' l' ∧ ∀ x, x ∈ l' ↔ x = s ∨ x ∈ l := by
  rcases l with _ | ⟨h, rest⟩
  · have hhead : q.head = none := hq.head
    refine ⟨_, [s], by rw [ReadyQueue.link, hhead], ⟨?_, rfl, .inr ⟨s, by simp, rfl⟩⟩, by simp⟩
    exact .single (by simp)
  · have hhead : q.head = some h := hq.head
    obtain ⟨t, ht, htail⟩ := hq.tail_of_cons
    obtain ⟨l₁, l₂, hsplit⟩ := append_of_mem ht
    refine ⟨_, l₁ ++ t :: s :: l₂, by rw [ReadyQueue.link, hhead, htail], ⟨?_, ?_, ?_⟩, ?_⟩
    · apply Circle.insert
      · rw [← hsplit]
        exact hq.circle
      · rw [← hsplit]
        exact hs
    · rw [← hhead, hq.head, hsplit]
      simp [head?_append]
    · exact .inr ⟨s, by simp, rfl⟩
    · rw [hsplit]
      simp only [mem_append, mem_cons]
      tauto

/-! ## Moving the head -/

theorem advance_head (hq : RingOf q (h :: l)) : RingOf { q with head := q.next h } (l ++ [h]) := by
  refine ⟨hq.circle.rotate, ?_, ?_⟩
  · rw [hq.circle.next_first, head?_append]
    rfl
  · obtain ⟨t, ht, htail⟩ := hq.tail_of_cons
    exact .inr ⟨t, by simpa [or_comm] using ht, htail⟩

theorem advance (hq : RingOf q l) (current : Slot) :
    ∃ l', RingOf (q.advance current) l' ∧ ∀ x, x ∈ l' ↔ x ∈ l := by
  by_cases hc : q.head = some current
  · rcases l with _ | ⟨h, l⟩
    · rw [hq.head] at hc
      cases hc
    · have hh : h = current := by
        rw [hq.head] at hc
        simpa using hc
      subst hh
      refine ⟨l ++ [h], ?_, by simp [or_comm]⟩
      rw [ReadyQueue.advance, if_pos hc]
      exact hq.advance_head
  · exact ⟨l, by rwa [ReadyQueue.advance, if_neg hc], fun x => Iff.rfl⟩

/-! ## Removing -/

/-- The search goes round once without meeting a task that is not there. -/
theorem unlinkLoop_of_not_mem {c : Slot} {rest : List Slot} {fuel : Nat} {prev : Option Slot}
    (hhead : q.head = some h) (hlinks : Links q.next (c :: rest) (some h)) (hnot : h ∉ rest)
    (hs : s ∉ c :: rest) (hfuel : rest.length < fuel) :
    q.unlinkLoop s fuel prev (some c) = .ok q := by
  induction rest generalizing c fuel prev with
  | nil =>
    obtain ⟨fuel, rfl⟩ := Nat.exists_eq_add_one.mpr hfuel
    have hc : q.next c = some h := hlinks.1
    have hcs : ¬ c = s := by
      rintro rfl
      exact hs (by simp)
    rw [unlinkLoop, if_neg hcs, if_pos (by rw [hc, hhead])]
  | cons d rest ih =>
    obtain ⟨fuel, rfl⟩ := Nat.exists_eq_add_one.mpr (Nat.zero_lt_of_lt hfuel)
    have hc : q.next c = some d := hlinks.1
    rw [mem_cons, not_or] at hnot hs
    have hd : ¬ some d = q.head := by
      rw [hhead, Option.some.injEq]
      exact Ne.symm hnot.1
    rw [unlinkLoop, if_neg (Ne.symm hs.1), hc, if_neg hd]
    exact ih hlinks.2 hnot.2 hs.2 (by simpa using hfuel)

/-- The search meets a task other than the head right behind the one before it. -/
theorem unlinkLoop_of_mem {c p : Slot} {walked : List Slot} {fuel : Nat} {prev : Option Slot}
    (hhead : q.head = some h) (hlinks : Links q.next (c :: walked) (some s))
    (hlast : (c :: walked).getLast? = some p) (hnot : h ∉ walked) (hs : s ∉ c :: walked)
    (hsh : s ≠ h) (hfuel : walked.length + 1 < fuel) :
    q.unlinkLoop s fuel prev (some c) = .ok (q.splice p s) := by
  induction walked generalizing c fuel prev with
  | nil =>
    obtain ⟨fuel, rfl⟩ : ∃ n, fuel = n + 2 := ⟨fuel - 2, by simp at hfuel; omega⟩
    have hc : q.next c = some s := hlinks.1
    have hcp : c = p := by simpa using hlast
    subst hcp
    have hcs : ¬ c = s := by
      rintro rfl
      exact hs (by simp)
    have hne : ¬ some s = q.head := by
      rw [hhead, Option.some.injEq]
      exact hsh
    rw [unlinkLoop, if_neg hcs, hc, if_neg hne, unlinkLoop, if_pos rfl, Option.elim_some]
  | cons d walked ih =>
    obtain ⟨fuel, rfl⟩ := Nat.exists_eq_add_one.mpr (Nat.zero_lt_of_lt hfuel)
    have hc : q.next c = some d := hlinks.1
    rw [mem_cons, not_or] at hnot hs
    have hd : ¬ some d = q.head := by
      rw [hhead, Option.some.injEq]
      exact Ne.symm hnot.1
    rw [unlinkLoop, if_neg (Ne.symm hs.1), hc, if_neg hd]
    exact ih hlinks.2 (by simpa using hlast) hnot.2 hs.2 (by simpa using hfuel)

theorem unlink_of_not_mem (hq : RingOf q l) (hs : s ∉ l) : q.unlink s = .ok q := by
  rcases l with _ | ⟨h, rest⟩
  · have hhead : q.head = none := hq.head
    rw [ReadyQueue.unlink, if_pos hhead]
  · have hhead : q.head = some h := hq.head
    have hlen := hq.length_le
    have hne : ¬ q.head = some s := by
      rw [hhead, Option.some.injEq]
      rintro rfl
      exact hs (by simp)
    rw [ReadyQueue.unlink, if_neg (by simp [hhead]), if_neg (fun hand => hne hand.2), hhead]
    exact unlinkLoop_of_not_mem hhead hq.circle.links (nodup_cons.1 hq.circle.nodup).1 hs
      (by simp at hlen; omega)

theorem unlink_of_ne_head (hq : RingOf q (h :: l)) (hs : s ∈ h :: l) (hsh : s ≠ h) :
    ∃ q', q.unlink s = .ok q' ∧ RingOf q' ((h :: l).erase s) := by
  have hhead : q.head = some h := hq.head
  have hlen := hq.length_le
  have hnodup := hq.circle.nodup
  have hsl : s ∈ l := by simpa [hsh] using hs
  obtain ⟨l₁, l₂, rfl⟩ := append_of_mem hsl
  have hne : ¬ q.head = some s := by
    rw [hhead, Option.some.injEq]
    exact Ne.symm hsh
  -- `p` is the task before `s`
  obtain ⟨p, hp⟩ : ∃ p, (h :: l₁).getLast? = some p := ⟨_, getLast?_eq_some_getLast (by simp)⟩
  obtain ⟨l₀, hl₀⟩ : ∃ l₀, h :: l₁ = l₀ ++ [p] :=
    ⟨_, (dropLast_append_getLast? p hp).symm⟩
  have hfull : h :: (l₁ ++ s :: l₂) = l₀ ++ p :: s :: l₂ := by
    rw [← cons_append, hl₀]
    simp
  have hmem : s ∉ h :: l₁ := by
    have hsplit : ((h :: l₁) ++ s :: l₂).Nodup := hnodup
    intro hin
    exact (nodup_append.1 hsplit).2.2 s hin s (by simp) rfl
  have hlinks := (Links.append_iff (l := h :: l₁)).1 hq.circle.links
  have hsplice : q.unlink s = .ok (q.splice p s) := by
    rw [ReadyQueue.unlink, if_neg (by simp [hhead]), if_neg (fun hand => hne hand.2), hhead]
    apply unlinkLoop_of_mem hhead hlinks.1 hp _ hmem hsh
    · simp at hlen
      omega
    · intro hin
      exact (nodup_cons.1 hnodup).1 (by simp [hin])
  have herase : (h :: (l₁ ++ s :: l₂)).erase s = l₀ ++ p :: l₂ := by
    have hs₀ : s ∉ l₀ ++ [p] := hl₀ ▸ hmem
    rw [hfull, ← singleton_append, ← append_assoc,
      erase_append_right _ hs₀, erase_cons_head]
    simp
  refine ⟨_, hsplice, ?_⟩
  rw [herase]
  refine ⟨?_, ?_, ?_⟩
  · apply Circle.remove
    rw [← hfull]
    exact hq.circle
  · show (if q.head = some s then _ else _) = _
    rw [if_neg hne, hq.head, hfull]
    simp [head?_append]
  · -- the tail is as before, or was `s` and is now `p`
    obtain ⟨t, ht, htail⟩ := hq.tail_of_cons
    right
    by_cases hts : t = s
    · exact ⟨p, by simp, by simp [splice, htail, hts]⟩
    refine ⟨t, ?_, by simp [splice, htail, hts]⟩
    rw [hfull] at ht
    simpa [hts] using ht

/-- With the head behind the tail, the tail is the last task met. -/
theorem last_of_aligned (hq : RingOf q (h :: l)) (hal : q.Aligned) :
    (h :: l).getLast? = q.tail := by
  obtain ⟨t, ht, htail⟩ := hq.tail_of_cons
  obtain ⟨l₁, l₂, hsplit⟩ := append_of_mem ht
  have hnext : q.next t = some h := by
    have := hal
    rw [Aligned, htail, hq.head] at this
    exact this
  have hlinks := hq.circle.links
  rw [hsplit, Links.append_iff] at hlinks
  rcases l₂ with _ | ⟨d, l₂⟩
  · rw [hsplit, htail]
    simp
  · -- then `t` would link to a later task, which is not the first
    have hd : d = h := by
      have := hlinks.2.1
      rw [hnext] at this
      simpa using this.symm
    exfalso
    have hnodup := hq.circle.nodup
    rcases l₁ with _ | ⟨e, l₁⟩
    · obtain ⟨rfl, rfl⟩ : h = t ∧ l = d :: l₂ := by simpa using hsplit
      rw [hd] at hnodup
      exact (nodup_cons.1 hnodup).1 (by simp)
    · obtain ⟨rfl, rfl⟩ : h = e ∧ l = l₁ ++ t :: d :: l₂ := by simpa using hsplit
      rw [hd] at hnodup
      exact (nodup_cons.1 hnodup).1 (by simp)

/-- Removing the head when it is behind the tail. The head is then again behind the
tail. -/
theorem unlink_head (hq : RingOf q (h :: l)) (hal : q.Aligned) :
    ∃ q', q.unlink h = .ok q' ∧ RingOf q' l ∧ q'.Aligned := by
  have hhead : q.head = some h := hq.head
  have hlast := hq.last_of_aligned hal
  rcases eq_nil_or_concat' l with rfl | ⟨l₀, t, rfl⟩
  · -- the only task
    have hself : q.next h = some h := hq.circle.next_first
    refine ⟨_, by rw [ReadyQueue.unlink, if_neg (by simp [hhead]), if_pos ⟨hself, hhead⟩], ?_, ?_⟩
    · exact ⟨.nil, rfl, .inl ⟨rfl, rfl⟩⟩
    · rfl
  · have htail : q.tail = some t := by
      rw [← hlast, ← cons_append, getLast?_concat]
    have hnodup := nodup_cons.1 hq.circle.nodup
    have hth : t ≠ h := by
      rintro rfl
      exact hnodup.1 (by simp)
    have hnext : q.next h = (l₀ ++ [t]).head? := by
      rw [hq.circle.next_first]
      cases l₀ <;> rfl
    have hself : ¬ q.next h = some h := by
      intro heq
      rw [hnext] at heq
      exact hnodup.1 (mem_of_mem_head? heq)
    have hsplice : q.unlink h = .ok (q.splice t h) := by
      rw [ReadyQueue.unlink, if_neg (by simp [hhead]), if_neg (fun hand => hself hand.1), hhead, htail,
        unlinkLoop, if_pos rfl, Option.elim_some]
    refine ⟨_, hsplice, ⟨?_, ?_, ?_⟩, ?_⟩
    · exact Circle.remove_first hq.circle
    · simp [splice, hhead, hnext]
    · exact .inr ⟨t, by simp, by simp [splice, htail, hth]⟩
    · simp [Aligned, splice, hhead, htail, hth]

/-- What `scheduler_remove_task_locked` does when it is safe: that task and no other is
taken out. -/
theorem unlink (hq : RingOf q l) (hsafe : q.UnlinkSafe s) :
    ∃ q', q.unlink s = .ok q' ∧ RingOf q' (l.erase s) := by
  by_cases hs : s ∈ l
  · rcases l with _ | ⟨h, l⟩
    · cases hs
    · by_cases hsh : s = h
      · subst hsh
        obtain ⟨q', hq', hring, -⟩ := hq.unlink_head (hsafe hq.head)
        exact ⟨q', hq', by simpa using hring⟩
      · exact hq.unlink_of_ne_head hs hsh
  · exact ⟨q, hq.unlink_of_not_mem hs, by rwa [erase_of_not_mem hs]⟩

/-! ## Choosing the next task -/

/-- `scheduler_get_next_task` takes out the tasks before the first runnable one and
moves past that. -/
theorem nextRunnable (runnable : Slot → Bool) {depth : Nat} (hq : RingOf q l)
    (hal : ∀ h, q.head = some h → runnable h = false → q.Aligned) (hdepth : l.length < depth) :
    ∃ q' l', nextRunnable runnable depth q =
        .ok (l.find? runnable, q', l.takeWhile fun s => !runnable s) ∧
      RingOf q' l' ∧ ∀ x, x ∈ l' ↔ x ∈ l.dropWhile fun s => !runnable s := by
  induction l generalizing q depth with
  | nil =>
    obtain ⟨depth, rfl⟩ := Nat.exists_eq_add_one.mpr hdepth
    exact ⟨q, [], by simp [ReadyQueue.nextRunnable, hq.head], hq, by simp⟩
  | cons h l ih =>
    obtain ⟨depth, rfl⟩ := Nat.exists_eq_add_one.mpr (Nat.zero_lt_of_lt hdepth)
    have hhead : q.head = some h := hq.head
    by_cases hr : runnable h = true
    · refine ⟨_, l ++ [h], by simp [ReadyQueue.nextRunnable, hhead, hr], hq.advance_head, ?_⟩
      simp [hr, or_comm]
    · -- the head is taken out, and the search goes on behind it
      have hr' : runnable h = false := by simpa using hr
      obtain ⟨q₁, hq₁, hring₁, hal₁⟩ := hq.unlink_head (hal h hhead hr')
      obtain ⟨q', l', hnext, hring', hmem⟩ :=
        ih hring₁ (fun _ _ _ => hal₁) (by simpa using hdepth)
      refine ⟨q', l', ?_, hring', ?_⟩
      · simp [ReadyQueue.nextRunnable, hhead, hr', hq₁, hnext]
      · intro x
        rw [hmem]
        simp [hr']

end RingOf

end TinyOS.Proc
