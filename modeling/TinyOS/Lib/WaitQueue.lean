import Mathlib.Data.List.Nodup

/-!
# Wait queues

Tasks sleep in first-in first-out queues of bounded size. `sleep` appends a task, `wakeup`
releases the one that waits longest, `wakeupAll` releases all. Which tasks are asleep is
recorded beside the queues; `Consistent` says that the two agree. `woken` remembers the
tasks that were released and have not slept or finished since.
-/

namespace TinyOS.Lib

open Function List

/-- Queues of sleeping tasks, oldest first. -/
structure WaitQueues (ι τ : Type*) where
  queue : ι → List τ
  asleep : τ → Bool
  woken : τ → Bool

namespace WaitQueues

variable {ι τ : Type*}

/-- No task sleeps. -/
def empty : WaitQueues ι τ where
  queue := fun _ => []
  asleep := fun _ => false
  woken := fun _ => false

/-- A task is asleep if and only if it stands in a queue, in one queue only and once. -/
structure Consistent (w : WaitQueues ι τ) : Prop where
  asleep_iff : ∀ t, w.asleep t = true ↔ ∃ q, t ∈ w.queue q
  nodup : ∀ q, (w.queue q).Nodup
  apart : ∀ q q' t, t ∈ w.queue q → t ∈ w.queue q' → q = q'

theorem empty_consistent : (empty : WaitQueues ι τ).Consistent where
  asleep_iff t := by simp [empty]
  nodup q := nodup_nil
  apart q q' t h _ := absurd h not_mem_nil

variable [DecidableEq ι] [DecidableEq τ] (w : WaitQueues ι τ)

/-- A task goes to sleep, unless the queue is full. -/
def sleep (cap : Nat) (q : ι) (t : τ) : WaitQueues ι τ :=
  if (w.queue q).length ≥ cap then w
  else
    { queue := update w.queue q (w.queue q ++ [t])
      asleep := update w.asleep t true
      woken := update w.woken t false }

/-- The task that waits longest is released. -/
def wakeup (q : ι) : WaitQueues ι τ :=
  match w.queue q with
  | [] => w
  | t :: rest =>
    { queue := update w.queue q rest
      asleep := update w.asleep t false
      woken := update w.woken t true }

/-- A task has done what it waited for. -/
def done (t : τ) : WaitQueues ι τ := { w with woken := update w.woken t false }

/-- Every task of a queue is released, one after the other. -/
def wakeupAll (q : ι) : WaitQueues ι τ := (w.queue q).foldl (fun w _ => w.wakeup q) w

variable {w} {q : ι} {t : τ} {cap : Nat}

theorem wakeup_nil (h : w.queue q = []) : w.wakeup q = w := by
  simp [wakeup, h]

theorem wakeup_cons {rest : List τ} (h : w.queue q = t :: rest) :
    w.wakeup q = { queue := update w.queue q rest
                   asleep := update w.asleep t false
                   woken := update w.woken t true } := by
  simp [wakeup, h]

theorem wakeup_queue_ne {q' : ι} (h : q' ≠ q) : (w.wakeup q).queue q' = w.queue q' := by
  rw [wakeup]
  split
  · rfl
  · exact update_of_ne h _ _

theorem wakeup_queue_self : (w.wakeup q).queue q = (w.queue q).tail := by
  rw [wakeup]
  split
  · next h => rw [h]; rfl
  · next h => rw [h]; exact update_self _ _ _

theorem asleep_of_wakeup (h : (w.wakeup q).asleep t = true) : w.asleep t = true := by
  rw [wakeup] at h
  split at h
  · exact h
  next u rest _ =>
  by_cases hu : t = u
  · subst hu
    simp at h
  · simpa [update_of_ne hu] using h

/-- A task that is woken once stays so. -/
theorem wakeup_woken (h : w.woken t = true) : (w.wakeup q).woken t = true := by
  rw [wakeup]
  split
  · exact h
  · next u _ _ => by_cases hu : t = u <;> simp [hu, h]

omit [DecidableEq ι] in
theorem Consistent.done (h : w.Consistent) (t : τ) : (w.done t).Consistent :=
  { h with }

theorem Consistent.wakeup (h : w.Consistent) (q : ι) : (w.wakeup q).Consistent := by
  rcases hq : w.queue q with _ | ⟨t, rest⟩
  · rwa [wakeup_nil hq]
  have hnodup := h.nodup q
  rw [hq, nodup_cons] at hnodup
  -- what stands in a queue afterwards stood there before, and is not the released task
  have hmem : ∀ q' u, u ∈ (w.wakeup q).queue q' ↔ u ∈ w.queue q' ∧ u ≠ t := by
    intro q' u
    by_cases hq' : q' = q
    · subst hq'
      rw [wakeup_queue_self, hq, tail_cons, mem_cons]
      constructor
      · exact fun hu => ⟨Or.inr hu, fun heq => hnodup.1 (heq ▸ hu)⟩
      · rintro ⟨rfl | hu, hne⟩
        · exact absurd rfl hne
        · exact hu
    · rw [wakeup_queue_ne hq']
      refine ⟨fun hu => ⟨hu, fun heq => hq' ?_⟩, And.left⟩
      exact h.apart q' q u hu (by rw [hq, heq]; exact .head _)
  have hasleep : (w.wakeup q).asleep = update w.asleep t false := by rw [wakeup_cons hq]
  constructor
  · intro u
    simp only [hmem, hasleep]
    by_cases hu : u = t
    · subst hu
      simp
    · simp [hu, h.asleep_iff]
  · intro q'
    by_cases hq' : q' = q
    · subst hq'
      rw [wakeup_queue_self, hq]
      exact hnodup.2
    · rw [wakeup_queue_ne hq']
      exact h.nodup q'
  · intro q₁ q₂ u h₁ h₂
    exact h.apart q₁ q₂ u ((hmem q₁ u).mp h₁).1 ((hmem q₂ u).mp h₂).1

theorem Consistent.sleep (h : w.Consistent) (ht : w.asleep t = false) :
    (w.sleep cap q t).Consistent := by
  rw [WaitQueues.sleep]
  split
  · exact h
  have hout : ∀ q', t ∉ w.queue q' := by
    intro q' hin
    rw [(h.asleep_iff t).mpr ⟨q', hin⟩] at ht
    cases ht
  have hmem : ∀ q' u, u ∈ update w.queue q (w.queue q ++ [t]) q' ↔
      u ∈ w.queue q' ∨ q' = q ∧ u = t := by
    intro q' u
    by_cases hq' : q' = q
    · subst hq'
      simp
    · simp [hq']
  constructor
  · intro u
    simp only [hmem]
    by_cases hu : u = t
    · subst hu
      simp
    · simp [hu, h.asleep_iff]
  · intro q'
    by_cases hq' : q' = q
    · subst hq'
      simp only [update_self]
      exact (h.nodup q').append (nodup_singleton t) (by simpa using hout q')
    · simp only [update_of_ne hq']
      exact h.nodup q'
  · intro q₁ q₂ u h₁ h₂
    rcases (hmem q₁ u).mp h₁ with hold₁ | ⟨hq₁, hu₁⟩
    · rcases (hmem q₂ u).mp h₂ with hold₂ | ⟨hq₂, hu₂⟩
      · exact h.apart q₁ q₂ u hold₁ hold₂
      · exact absurd (hu₂ ▸ hold₁) (hout q₁)
    · rcases (hmem q₂ u).mp h₂ with hold₂ | ⟨hq₂, hu₂⟩
      · exact absurd (hu₁ ▸ hold₂) (hout q₂)
      · exact hq₁.trans hq₂.symm

/-! ## Releasing all -/

theorem Consistent.wakeupAll (h : w.Consistent) (q : ι) : (w.wakeupAll q).Consistent :=
  foldlRecOn _ _ h fun _ hw _ _ => hw.wakeup q

theorem asleep_of_wakeupAll (h : (w.wakeupAll q).asleep t = true) : w.asleep t = true :=
  foldlRecOn (motive := fun w' : WaitQueues ι τ => w'.asleep t = true → w.asleep t = true) _ _ id
    (fun _ ih _ _ hsleep => ih (asleep_of_wakeup hsleep)) h

theorem wakeupAll_woken (h : w.woken t = true) : (w.wakeupAll q).woken t = true :=
  foldlRecOn (motive := fun w' : WaitQueues ι τ => w'.woken t = true) _ _ h fun _ ih _ _ =>
    wakeup_woken ih

theorem wakeupAll_queue_ne {q' : ι} (h : q' ≠ q) : (w.wakeupAll q).queue q' = w.queue q' :=
  foldlRecOn (motive := fun w' : WaitQueues ι τ => w'.queue q' = w.queue q') _ _ rfl
    fun _ ih _ _ => (wakeup_queue_ne h).trans ih

theorem wakeupAll_queue_self : (w.wakeupAll q).queue q = [] := by
  have hloop : ∀ (l : List τ) (w : WaitQueues ι τ), w.queue q = l →
      (l.foldl (fun w _ => w.wakeup q) w).queue q = [] := by
    intro l
    induction l with
    | nil => exact fun w h => h
    | cons t l ih =>
      intro w h
      apply ih
      rw [wakeup_queue_self, h, tail_cons]
  exact hloop _ w rfl

end WaitQueues

end TinyOS.Lib
