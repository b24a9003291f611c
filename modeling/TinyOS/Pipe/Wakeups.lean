import TinyOS.Pipe.Fifo

/-!
# Who wakes whom

A transfer wakes one task of the other side. One transfer can be enough for several of
them, and the task that was woken does not wake the next one of its own side. So a task can
be left asleep beside bytes it could read, or room it could fill. It cannot as long as each
transfer uses up what it found while others of its side are asleep (`Thorough`).
-/

namespace TinyOS.Pipe

open Lib Function Sys WaitQueues List

/-- There is something to do for a task of this side. -/
def PipeBuffer.Ready (p : PipeBuffer) : Side → Prop
  | .readers => 0 < p.dataSize
  | .writers => p.dataSize < pipeBufferSize

/-- The other end is closed, so a task of this side need not wait. -/
def PipeBuffer.closedFor (p : PipeBuffer) : Side → Bool
  | .readers => p.writeClosed
  | .writers => p.readClosed

/-- While other tasks of its side are asleep, a read leaves no bytes behind and a write leaves no
room. -/
def Thorough (s : Sys) : Event → Prop
  | .run t =>
    match s.calls t with
    | some (.read _ size) => size < s.pipe.dataSize → s.waits.queue .readers = []
    | some (.write _ data total) =>
      total < data.val.length → data.val.length - total < s.pipe.room →
        s.waits.queue .writers = []
    | none => True
  | _ => True

/-- Every woken task has run until it sleeps again or returns. -/
def Settled (s : Sys) : Prop := ∀ t, s.waits.woken t = false

/-- No task sleeps beside what it waits for. -/
def NoneStranded (s : Sys) : Prop :=
  ∀ q, s.pipe.Ready q ∨ s.pipe.closedFor q = true → s.waits.queue q = []

/-- The task is in a read, or in a write that is not complete. -/
def Waiting (s : Sys) (t : TaskId) : Side → Prop
  | .readers => ∃ id size, s.calls t = some (.read id size)
  | .writers => ∃ id data total, s.calls t = some (.write id data total) ∧ total < data.val.length

/-- A task of this side was woken and will look at the pipe. -/
def Coming (s : Sys) (q : Side) (t : TaskId) : Prop :=
  Waiting s t q ∧ s.waits.asleep t = false ∧ s.waits.woken t = true

/-- What holds between the wait queues, the calls and the pipe: who sleeps is in a call, and
beside something to do a task is coming. -/
structure Served (s : Sys) : Prop where
  consistent : s.waits.Consistent
  allocated : s.pipe.allocated = true
  capture : s.pipe.capture = false
  members : ∀ q, ∀ t ∈ s.waits.queue q, Waiting s t q
  served : ∀ q, s.waits.queue q ≠ [] →
    s.pipe.closedFor q = false ∧ (s.pipe.Ready q → ∃ t, Coming s q t)

theorem Waiting.congr {s s' : Sys} {t : TaskId} {q : Side} (hcall : s'.calls t = s.calls t)
    (h : Waiting s t q) : Waiting s' t q := by
  cases q with
  | readers =>
    obtain ⟨id, size, hc⟩ := h
    exact ⟨id, size, hcall.trans hc⟩
  | writers =>
    obtain ⟨id, data, total, hc, hlt⟩ := h
    exact ⟨id, data, total, hcall.trans hc, hlt⟩

theorem Waiting.side {s : Sys} {t : TaskId} {q q' : Side} (h : Waiting s t q) (h' : Waiting s t q') :
    q = q' := by
  cases q <;> cases q' <;> try rfl
  · obtain ⟨id, size, hc⟩ := h
    obtain ⟨id', data', total', hc', -⟩ := h'
    rw [hc] at hc'
    cases hc'
  · obtain ⟨id, data, total, hc, -⟩ := h
    obtain ⟨id', size', hc'⟩ := h'
    rw [hc] at hc'
    cases hc'

theorem not_waiting_of_none {s : Sys} {t : TaskId} {q : Side} (h : s.calls t = none) :
    ¬ Waiting s t q := by
  intro hw
  cases q with
  | readers =>
    obtain ⟨id, size, hc⟩ := hw
    rw [h] at hc
    cases hc
  | writers =>
    obtain ⟨id, data, total, hc, -⟩ := hw
    rw [h] at hc
    cases hc

namespace Served

variable {s s' : Sys} {t : TaskId} {q : Side}

theorem init : Served Sys.init where
  consistent := empty_consistent
  allocated := rfl
  capture := rfl
  members _ _ ht := absurd ht not_mem_nil
  served _ h := absurd rfl h

variable (h : Served s)

include h

theorem noneStranded (hsettled : Settled s) : NoneStranded s := by
  intro q hwhy
  by_contra hne
  obtain ⟨hopen, hserved⟩ := h.served q hne
  rcases hwhy with hready | hclosed
  · obtain ⟨t, -, -, hwoken⟩ := hserved hready
    rw [hsettled t] at hwoken
    cases hwoken
  · rw [hopen] at hclosed
    cases hclosed

theorem notMem_of_awake (hawake : s.waits.asleep t = false) : t ∉ s.waits.queue q := by
  intro hin
  rw [(h.consistent.asleep_iff t).mpr ⟨q, hin⟩] at hawake
  cases hawake

/-- A step of a task that is awake: the queues only lose tasks, and other calls stay. -/
theorem of_awake (hawake : s.waits.asleep t = false) (hconsistent : s'.waits.Consistent)
    (hallocated : s'.pipe.allocated = s.pipe.allocated)
    (hcapture : s'.pipe.capture = s.pipe.capture)
    (hqueue : ∀ q u, u ∈ s'.waits.queue q → u ∈ s.waits.queue q)
    (hcalls : ∀ u, u ≠ t → s'.calls u = s.calls u)
    (hserved : ∀ q, s'.waits.queue q ≠ [] → s'.pipe.closedFor q = false ∧
      (s'.pipe.Ready q → ∃ t, Coming s' q t)) :
    Served s' where
  consistent := hconsistent
  allocated := hallocated.trans h.allocated
  capture := hcapture.trans h.capture
  served := hserved
  members q u hu := by
    have hold := hqueue q u hu
    have hne : u ≠ t := fun heq => h.notMem_of_awake hawake (heq ▸ hold)
    exact (h.members q u hold).congr (hcalls u hne)

omit h in
/-- Who is coming goes on doing so while another task runs. -/
theorem coming_of_ne {u : TaskId} (h : Coming s q u) (hcall : s'.calls u = s.calls u)
    (hasleep : s'.waits.asleep u = true → s.waits.asleep u = true)
    (hwoken : s.waits.woken u = true → s'.waits.woken u = true) : Coming s' q u := by
  obtain ⟨hwaiting, hawake, hw⟩ := h
  refine ⟨hwaiting.congr hcall, ?_, hwoken hw⟩
  by_contra hne
  rw [hasleep (by simpa using hne)] at hawake
  cases hawake

/-! ## The steps -/

theorem finish (hawake : s.waits.asleep t = false) (r : Return)
    (hleft : ∀ q, s.pipe.closedFor q = true ∨ ¬ Waiting s t q) : Served (s.finish t r) := by
  refine h.of_awake hawake (h.consistent.done t) rfl rfl (fun _ _ hu => hu)
    (fun u hu => s.setCall_ne hu none) fun q hne => ?_
  obtain ⟨hopen, hcoming⟩ := h.served q hne
  refine ⟨hopen, fun hready => ?_⟩
  obtain ⟨u, hu⟩ := hcoming hready
  have hut : u ≠ t := by
    rintro rfl
    rcases hleft q with hclosed | hnot
    · rw [hopen] at hclosed
      cases hclosed
    · exact hnot hu.1
  refine ⟨u, coming_of_ne hu (s.setCall_ne hut none) id fun hw => ?_⟩
  show update s.waits.woken t false u = true
  rwa [update_of_ne hut]

theorem sleepOn (hawake : s.waits.asleep t = false) (hwaiting : Waiting s t q)
    (hnot : ¬ s.pipe.Ready q) (hopen : s.pipe.closedFor q = false) : Served (s.sleepOn q t) := by
  have hconsistent : (s.waits.sleep maxTasks q t).Consistent := h.consistent.sleep hawake
  unfold Sys.sleepOn
  by_cases hfull : (s.waits.queue q).length ≥ maxTasks
  · have hsame : s.waits.sleep maxTasks q t = s.waits := if_pos hfull
    rw [hsame]
    exact h
  · have hslept : s.waits.sleep maxTasks q t =
        { queue := update s.waits.queue q (s.waits.queue q ++ [t])
          asleep := update s.waits.asleep t true
          woken := update s.waits.woken t false } := if_neg hfull
    rw [hslept] at hconsistent ⊢
    refine ⟨hconsistent, h.allocated, h.capture, fun q' u hu => ?_, fun q' hne => ?_⟩
    · by_cases hq : q' = q
      · subst hq
        simp only [update_self, mem_append, mem_singleton] at hu
        rcases hu with hu | rfl
        · exact h.members q' u hu
        · exact hwaiting
      · simp only [update_of_ne hq] at hu
        exact h.members q' u hu
    · by_cases hq : q' = q
      · subst hq
        exact ⟨hopen, fun hready => absurd hready hnot⟩
      -- on the other side nothing changes, and who is coming there is not this task
      simp only [update_of_ne hq] at hne
      obtain ⟨hopen', hcoming⟩ := h.served q' hne
      refine ⟨hopen', fun hready => ?_⟩
      obtain ⟨u, hu⟩ := hcoming hready
      have hut : u ≠ t := fun heq => hq (hu.1.side (heq ▸ hwaiting))
      refine ⟨u, coming_of_ne hu rfl (fun hs => ?_) (fun hw => ?_)⟩
      · simpa [update_of_ne hut] using hs
      · simpa [update_of_ne hut] using hw

theorem begins (hnone : s.calls t = none) (c : Call) (n : CallId) :
    Served (({ s with nextId := n } : Sys).setCall t (some c)) := by
  have hcall : ∀ u q, Waiting s u q → u ≠ t := by
    rintro u q hu rfl
    exact not_waiting_of_none hnone hu
  refine { h with members := fun q u hu => ?_, served := fun q hne => ?_ }
  · have hold := h.members q u hu
    exact hold.congr (setCall_ne _ (hcall u q hold) _)
  · obtain ⟨hopen, hcoming⟩ := h.served q hne
    refine ⟨hopen, fun hready => ?_⟩
    obtain ⟨u, hu⟩ := hcoming hready
    exact ⟨u, coming_of_ne hu (setCall_ne _ (hcall u q hu.1) _) id id⟩

/-- A transfer: it wakes the other side, and its own side finds nothing more to do or nobody
waits there. -/
theorem transfer (hawake : s.waits.asleep t = false) {q' : Side} (hside : q' ≠ q)
    (hflags : PipeBuffer.SameFlags s.pipe s'.pipe)
    (hdone : s'.pipe.Ready q → s.waits.queue q = [])
    (hwaits : s'.waits = s.waits.wakeup q' ∨ s'.waits = (s.waits.wakeup q').done t)
    (hcalls : ∀ u, u ≠ t → s'.calls u = s.calls u) : Served s' := by
  have hconsistent : s'.waits.Consistent := by
    rcases hwaits with hw | hw
    · exact hw ▸ h.consistent.wakeup q'
    · exact hw ▸ (h.consistent.wakeup q').done t
  have hqueue : s'.waits.queue = (s.waits.wakeup q').queue := by
    rcases hwaits with hw | hw <;> rw [hw]
    rfl
  have hasleep : s'.waits.asleep = (s.waits.wakeup q').asleep := by
    rcases hwaits with hw | hw <;> rw [hw]
    rfl
  have hwoken : ∀ u, u ≠ t → s'.waits.woken u = (s.waits.wakeup q').woken u := by
    intro u hu
    rcases hwaits with hw | hw <;> rw [hw]
    exact update_of_ne hu _ _
  have hclosed : ∀ q, s'.pipe.closedFor q = s.pipe.closedFor q := by
    intro q
    cases q
    · exact hflags.writeClosed
    · exact hflags.readClosed
  have hown : s'.waits.queue q = s.waits.queue q := by
    rw [hqueue]
    exact wakeup_queue_ne hside.symm
  refine h.of_awake hawake hconsistent hflags.allocated hflags.capture ?_ hcalls ?_
  · intro q₁ u hu
    rw [hqueue] at hu
    by_cases hq : q₁ = q'
    · subst hq
      rw [wakeup_queue_self] at hu
      exact mem_of_mem_tail hu
    · rwa [wakeup_queue_ne hq] at hu
  · intro q₁ hne
    rw [hclosed]
    by_cases hq : q₁ = q'
    · -- the head of the other queue is woken
      subst hq
      rcases hhead : s.waits.queue q₁ with _ | ⟨u, rest⟩
      · rw [hqueue, wakeup_queue_self, hhead] at hne
        exact absurd rfl hne
      have hmem : u ∈ s.waits.queue q₁ := hhead ▸ mem_cons_self
      have hut : u ≠ t := fun heq => h.notMem_of_awake hawake (heq ▸ hmem)
      refine ⟨(h.served q₁ (by rw [hhead]; exact cons_ne_nil _ _)).1, fun _ => ⟨u, ?_, ?_, ?_⟩⟩
      · exact (h.members q₁ u hmem).congr (hcalls u hut)
      · rw [hasleep, wakeup_cons hhead]
        exact update_self _ _ _
      · rw [hwoken u hut, wakeup_cons hhead]
        exact update_self _ _ _
    · -- there are two sides only
      obtain rfl : q₁ = q := by
        revert hq hside
        cases q₁ <;> cases q <;> cases q' <;> simp
      rw [hown] at hne
      exact ⟨(h.served q₁ hne).1, fun hready => absurd (hdone hready) hne⟩

theorem close (hpipe : ∀ q', q' ≠ q → (s'.pipe.closedFor q' = s.pipe.closedFor q'))
    (hready : ∀ q', s'.pipe.Ready q' ↔ s.pipe.Ready q')
    (hallocated : s'.pipe.allocated = s.pipe.allocated)
    (hcapture : s'.pipe.capture = s.pipe.capture) (hwaits : s'.waits = s.waits.wakeupAll q)
    (hcalls : s'.calls = s.calls) : Served s' := by
  have hother : ∀ q', q' ≠ q → s'.waits.queue q' = s.waits.queue q' := by
    intro q' hq
    rw [hwaits]
    exact wakeupAll_queue_ne hq
  have hself : s'.waits.queue q = [] := by
    rw [hwaits]
    exact wakeupAll_queue_self
  refine ⟨hwaits ▸ h.consistent.wakeupAll q, hallocated.trans h.allocated,
    hcapture.trans h.capture, fun q' u hu => ?_, fun q' hne => ?_⟩
  · by_cases hq : q' = q
    · rw [hq, hself] at hu
      exact absurd hu not_mem_nil
    · rw [hother q' hq] at hu
      exact (h.members q' u hu).congr (congrFun hcalls u)
  · by_cases hq : q' = q
    · rw [hq] at hne
      exact absurd hself hne
    rw [hother q' hq] at hne
    obtain ⟨hopen, hcoming⟩ := h.served q' hne
    refine ⟨(hpipe q' hq).trans hopen, fun hr => ?_⟩
    obtain ⟨u, hu⟩ := hcoming ((hready q').mp hr)
    refine ⟨u, coming_of_ne hu (congrFun hcalls u) (fun hs => ?_) (fun hw => ?_)⟩
    · rw [hwaits] at hs
      exact asleep_of_wakeupAll hs
    · rw [hwaits]
      exact wakeupAll_woken hw

theorem writePass {id : CallId} {data : Data} {total : Nat} (hawake : s.waits.asleep t = false)
    (hcall : s.calls t = some (.write id data total)) (hlt : total < data.val.length)
    (hguard : Thorough s (.run t)) : Served (s.writePass t id data total) := by
  have hwaiting : Waiting s t .writers := ⟨id, data, total, hcall, hlt⟩
  unfold Sys.writePass
  split
  · next hbroken =>
    have hclosed : s.pipe.readClosed = true := by simpa [h.allocated] using hbroken
    refine h.finish hawake _ fun q => ?_
    cases q
    · exact Or.inr fun hr => absurd (hr.side hwaiting) (by decide)
    · exact Or.inl hclosed
  · next hopen =>
    split
    · next hfull =>
      refine h.sleepOn hawake hwaiting (Nat.not_lt.mpr hfull) ?_
      show s.pipe.readClosed = false
      simpa [h.allocated] using hopen
    · simp only [Thorough, hcall, PipeBuffer.room] at hguard
      refine h.transfer (q := .writers) hawake (by decide) (PipeBuffer.store_flags _ _) ?_
        (Or.inl rfl) fun u hu => setCall_ne _ hu _
      -- room is left only if the rest of the data was smaller
      intro hready
      apply hguard hlt
      simp only [PipeBuffer.Ready, wake, setCall, putChunk, PipeBuffer.store_dataSize,
        length_take, length_drop] at hready
      split at hready <;> omega

theorem readPass {id : CallId} {size : Nat} (hvalid : s.pipe.Valid)
    (hawake : s.waits.asleep t = false) (hcall : s.calls t = some (.read id size))
    (hguard : Thorough s (.run t)) : Served (s.readPass t id size) := by
  have hwaiting : Waiting s t .readers := ⟨id, size, hcall⟩
  unfold Sys.readPass
  split
  · next heof =>
    have hempty : s.pipe.dataSize = 0 ∧ s.pipe.writeClosed = true := by
      simpa [h.allocated] using heof
    refine h.finish hawake _ fun q => ?_
    cases q
    · exact Or.inl hempty.2
    · exact Or.inr fun hw => absurd (hw.side hwaiting) (by decide)
  · next heof =>
    split
    · simp only [Thorough, hcall] at hguard
      refine h.transfer (q := .readers) hawake (by decide) (PipeBuffer.load_flags hvalid) ?_
        (Or.inr rfl) fun u hu => setCall_ne _ hu _
      -- bytes are left only if fewer were asked for
      intro hready
      apply hguard
      simp only [PipeBuffer.Ready, Sys.finish, Sys.wake, Sys.setCall, Sys.takeChunk,
        PipeBuffer.load_dataSize] at hready
      split at hready <;> omega
    · next hempty =>
      refine h.sleepOn hawake hwaiting hempty ?_
      show s.pipe.writeClosed = false
      have hzero : s.pipe.dataSize = 0 := by omega
      simpa [h.allocated, hzero] using heof

theorem step {e : Event} (hvalid : s.pipe.Valid) (hguard : Thorough s e) (hstep : s.Steps e s') :
    Served s' := by
  cases e with
  | write t data =>
    simp only [Sys.Steps, Sys.step, Option.ite_none_right_eq_some, Option.some.injEq,
      Option.isNone_iff_eq_none] at hstep
    obtain ⟨hnone, rfl⟩ := hstep
    unfold Sys.pipeWrite
    simp only [h.capture, h.allocated, Bool.not_true, Bool.or_false, Bool.false_eq_true, if_false]
    split
    · -- the call returns at once
      have hawake : s.waits.asleep t = false := by
        by_contra hne
        obtain ⟨q, hin⟩ := (h.consistent.asleep_iff t).mp (by simpa using hne)
        exact not_waiting_of_none hnone (h.members q t hin)
      have hnumber : Served { s with nextId := s.nextId + 1 } := { h with }
      exact hnumber.finish hawake _ fun q => Or.inr (not_waiting_of_none hnone)
    · exact h.begins hnone _ _
  | read t size =>
    simp only [Sys.Steps, Sys.step, Option.ite_none_right_eq_some, Option.some.injEq,
      Option.isNone_iff_eq_none] at hstep
    obtain ⟨hnone, rfl⟩ := hstep
    unfold Sys.pipeRead
    simp only [h.allocated, Bool.not_true, Bool.false_eq_true, if_false]
    exact h.begins hnone _ _
  | run t =>
    simp only [Sys.Steps, Sys.step, Sys.run] at hstep
    split at hstep
    · cases hstep
    next hawake =>
    rw [Bool.not_eq_true] at hawake
    split at hstep
    · cases hstep
    · next id data total hcall =>
      cases hstep
      unfold writeTurn
      split
      · next hlt => exact h.writePass hawake hcall hlt hguard
      next hge =>
      -- a complete write is not waiting for anything
      refine h.finish hawake _ fun q => Or.inr fun hw => ?_
      cases q with
      | readers =>
        obtain ⟨id', size', hc⟩ := hw
        rw [hcall] at hc
        cases hc
      | writers =>
        obtain ⟨id', data', total', hc, hlt⟩ := hw
        rw [hcall] at hc
        cases hc
        exact hge hlt
    · next id size hcall =>
      cases hstep
      exact h.readPass hvalid hawake hcall hguard
  | closeWrite =>
    cases hstep
    refine h.close (q := .readers) (fun q' hq => ?_) (fun q' => by cases q' <;> rfl) rfl rfl
      (if_pos h.allocated) rfl
    cases q'
    · exact absurd rfl hq
    · rfl
  | closeRead =>
    cases hstep
    refine h.close (q := .writers) (fun q' hq => ?_) (fun q' => by cases q' <;> rfl) rfl rfl
      (if_pos h.allocated) rfl
    cases q'
    · rfl
    · exact absurd rfl hq

end Served

/-- In every run whose transfers are thorough, in every state where each woken task has run until
it sleeps again or returns: no reader is asleep beside bytes or a closed write end, and no
writer beside room or a closed read end. -/
theorem thorough_transfers_strand_nobody {events : List Event} {s : Sys}
    (hrun : Run (fun s e s' => Thorough s e ∧ s.Steps e s') Sys.init events s)
    (hsettled : Settled s) : NoneStranded s := by
  have hkeep : ∀ s e s', Lossless s ∧ Served s → Thorough s e ∧ s.Steps e s' →
      Lossless s' ∧ Served s' := by
    rintro s e s' ⟨hlossless, hserved⟩ ⟨hguard, hstep⟩
    exact ⟨(Keeps.step hlossless hstep).1, hserved.step hlossless.valid hguard hstep⟩
  exact (hrun.invariant hkeep ⟨Lossless.init, Served.init⟩).2.noneStranded hsettled

/-- Two bytes. -/
def twoBytes : Data := ⟨[7, 8], by decide⟩

/-- Tasks 1 and 2 fell asleep, task 1 was released, and tasks 3 and 1 returned. -/
theorem released_and_done (t : TaskId) :
    update (update (update (update (update
      (fun _ => false) 1 false) 2 false) 1 true) 3 false) 1 false t = false := by
  by_cases h1 : t = 1
  · simp [h1]
  · by_cases h2 : t = 2 <;> simp [update_apply, h1, h2]

/-- Two readers fall asleep, and one of them drains what a writer stores. -/
theorem draining_reader_strands_nobody :
    ∃ s, Run (fun s e s' => Thorough s e ∧ s.Steps e s') Sys.init
        [.read 1 8, .run 1, .read 2 8, .run 2, .write 3 twoBytes, .run 3, .run 3, .run 1] s ∧
      Settled s ∧ s.waits.queue .readers = [2] ∧ NoneStranded s := by
  have hrun : ∃ s, Run (fun s e s' => Thorough s e ∧ s.Steps e s') init
      [.read 1 8, .run 1, .read 2 8, .run 2, .write 3 twoBytes, .run 3, .run 3, .run 1] s ∧
      Settled s ∧ s.waits.queue .readers = [2] := by
    refine ⟨_, .cons ⟨trivial, rfl⟩ (.cons ⟨fun _ => rfl, rfl⟩ (.cons ⟨trivial, rfl⟩
      (.cons ⟨fun h => absurd h (by decide), rfl⟩ (.cons ⟨trivial, rfl⟩ (.cons ⟨fun _ _ => rfl, rfl⟩
      (.cons ⟨fun _ _ => rfl, rfl⟩ (.cons ⟨fun h => absurd h (by decide), rfl⟩ (.nil _)))))))),
      ?_, rfl⟩
    exact released_and_done
  obtain ⟨s, hrun, hsettled, hqueue⟩ := hrun
  exact ⟨s, hrun, hsettled, hqueue, thorough_transfers_strand_nobody hrun hsettled⟩

/-! ## A transfer that is not thorough -/

/-- Two readers fall asleep on an empty pipe, and a writer stores two bytes, which wakes the
first of them. It reads one byte and returns. The second reader sleeps beside the other
byte, and nobody is left who will wake it. -/
theorem second_reader_is_stranded :
    ∃ s, Run Sys.Steps Sys.init [.read 1 1, .run 1, .read 2 1, .run 2, .write 3 twoBytes, .run 3,
        .run 3, .run 1] s ∧
      Settled s ∧ s.waits.queue .readers = [2] ∧ s.pipe.dataSize = 1 ∧ ¬ NoneStranded s := by
  refine ⟨_, .cons rfl (.cons rfl (.cons rfl (.cons rfl (.cons rfl (.cons rfl (.cons rfl (.cons rfl
    (.nil _)))))))), ?_, rfl, rfl, ?_⟩
  · exact released_and_done
  · intro hnone
    exact absurd (hnone .readers (Or.inl Nat.one_pos)) (cons_ne_nil 2 [])

end TinyOS.Pipe
