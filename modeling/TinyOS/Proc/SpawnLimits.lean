import TinyOS.Proc.SpawnInvariant

/-!
# The limits on user tasks, over whole runs

No user but root has more than `USER_MAX_CONCURRENT_TASKS` tasks, and no creation by such a user takes
one of the last `TASK_ROOT_RESERVED_SLOTS` slots, in every run whose steps are `Orderly`: uid 1000, which
every child belongs to at first, has room for the child of another user. Nothing in the code sees to
that: the limit is checked for the creator's uid.
-/

namespace TinyOS.Proc.SpawnLimits

open Function SpawnLimits.Task
open Lib (Run tally)

variable {limited : Prop} {s s' : State} {t : Slot}

/-- A step makes the child of `t` a task of uid 1000 only if that uid has room for one more. -/
def OrderlyAt (s : State) (t : Slot) : Stage → Prop
  | .named _ => (s.tasks t).uid ≠ 1000 → s.taskCountLiveForUid 1000 < userMaxConcurrentTasks
  | _ => True

def Orderly (s : State) : Event → Prop
  | .spawn t _ => OrderlyAt s t (s.stage t)
  | _ => True

instance (s : State) (t : Slot) : (x : Stage) → Decidable (OrderlyAt s t x)
  | .named _ => inferInstanceAs (Decidable (_ → _ < _))
  | .outside | .locked | .countingLive _ _ | .countingFree _ _ | .admitted | .claimed _ | .built _
  | .created _ | .loaded _ _ | .found _ | .charged _ => isTrue trivial

instance (s : State) : (e : Event) → Decidable (Orderly s e)
  | .spawn t _ => inferInstanceAs (Decidable (OrderlyAt s t (s.stage t)))
  | .fail _ | .exit _ | .terminate _ | .reap _ => isTrue trivial

theorem enter_inv (h : Inv limited s) (hstep : enter s t = some s') : Inv limited s' := by
  obtain ⟨hready, heq⟩ := Option.ite_none_right_eq_some.mp hstep
  cases heq
  have hother : ∀ t', t' ≠ t →
      ((s.setStage t .locked).setOwner (some t)).stage t' = s.stage t' := by
    intro t' hne
    simp [hne]
  refine h.restage ?_ ?_ hother ?_ ?_ ?_ ?_ ?_
  · rfl
  · rfl
  · simpa [Placed] using hready.2.1
  · simp [Fits]
  · intro t' hlocks
    by_cases hne : t' = t
    · rw [hne]
      rfl
    rw [hother t' hne] at hlocks
    have howner := h.owner t' hlocks
    rw [hready.2.2.1] at howner
    cases howner
  · intro c hc
    simp [Stage.child] at hc
  · -- A creation that waits for the uid of its child has the lock, or has just released it.
    intro _ t' _
    rw [← Bool.not_eq_true]
    intro hpending
    rcases Stage.locks_or_settling hpending with hlocks | hsettling
    · have howner := h.owner t' hlocks
      rw [hready.2.2.1] at howner
      cases howner
    · rw [hready.2.2.2 t'] at hsettling
      cases hsettling

theorem spawnStep_inv {pid : UInt32} (h : Inv limited s) (hguard : limited → Orderly s (.spawn t pid))
    (hstep : spawnStep s t pid = some s') : Inv limited s' := by
  have hplaced := h.placed t
  have hfits := fun hl => h.fits hl t
  unfold spawnStep at hstep
  simp only [Orderly] at hguard
  cases hstage : s.stage t <;> simp only [hstage] at hstep hguard hplaced hfits
  case outside => exact enter_inv h hstep
  case locked =>
    cases hstep
    have hlocks : (s.stage t).locks = true := by rw [hstage]; rfl
    split
    · -- Root is not counted, and nothing is promised for it.
      rename_i hroot
      exact h.keep hlocks hplaced (fun _ hne => absurd hroot hne) fun c hc => by cases hc
    · -- No slot has been looked at yet.
      refine h.keep hlocks hplaced (fun _ _ => ?_) fun c hc => by cases hc
      exact Nat.le_of_eq (Lib.tally_below_zero _)
  case countingLive i owned =>
    cases hstep
    exact countLive_inv h hstage
  case countingFree i free =>
    cases hstep
    exact countFree_inv h hstage
  case admitted =>
    cases hstep
    exact claim_inv h hstage
  case claimed k => exact assignPid_inv h hstage hstep
  case named k =>
    -- The child becomes a task of uid 1000: this is where the run has to be orderly.
    cases hstep
    exact named_inv h hstage hguard
  case built k =>
    cases hstep
    have hlocks : (s.stage t).locks = true := by rw [hstage]; rfl
    refine h.keep hlocks hplaced hfits ?_
    intro c hc
    rw [hstage]
    exact hc
  case created k =>
    -- The lock is released, but nobody enters before the child has its uid.
    cases hstep
    have hlocks : (s.stage t).locks = true := by rw [hstage]; rfl
    obtain ⟨hscheduled, hbit, pid, hpid, htask⟩ := hplaced
    refine h.onward hlocks (fun hl => by cases hl) ?_ hfits ?_
    · refine ⟨hscheduled, hbit, ?_, ?_⟩
      · rwa [htask]
      · rw [htask]
    · intro c hc
      rw [hstage]
      exact hc
  case loaded k pid =>
    -- The look-up finds the child, since no other task has its PID.
    simp only [taskGet_child h hstage] at hstep
    cases hstep
    refine h.restage (t := t) ?_ ?_ ?_ ?_ ?_ ?_ ?_ ?_
    · rfl
    · rfl
    · intro t' hne
      simp [hne]
    · rw [State.setStage_self]
      exact ⟨hplaced.1, hplaced.2.1, pid, hplaced.2.2⟩
    · rw [State.setStage_self]
      exact hfits
    · apply h.unreleased (t := t)
      · intro t' hne
        simp [hne]
      · rw [State.setStage_self]
        intro hl
        cases hl
      · rfl
    · rw [State.setStage_self, hstage]
      intro c hc
      exact hc
    · intro _ t' hne
      exact h.sole (by rw [hstage]; rfl) hne
  case found k =>
    -- The creator's own count has left room for the child.
    cases hstep
    exact found_inv h hstage
  case charged k =>
    cases hstep
    exact charged_inv h hstage

theorem failStep_inv (h : Inv limited s) (hstep : failStep s t = some s') : Inv limited s' := by
  have hplaced := h.placed t
  unfold failStep at hstep
  cases hstage : s.stage t with
  | locked | admitted =>
    simp only [hstage] at hstep
    cases hstep
    exact h.giveUp (by rw [hstage]; rfl)
  | named k | built k | created k =>
    simp only [hstage] at hstep hplaced
    cases hstep
    obtain ⟨_, _, pid, _, htask⟩ := hplaced
    apply h.drop
    · rw [hstage]
      rfl
    · rw [hstage]
      rfl
    · simp [held]
    · simp [htask]
  | _ =>
    simp only [hstage] at hstep
    cases hstep

theorem ended_inv {v : Task} {b : Bool} (h : Inv limited s) (hout : s.stage t = .outside)
    (hunused : ∀ t', t' ≠ t → s.stage t' ≠ .outside → t' ≠ t ∧ (s.stage t').child ≠ some t)
    (hv : v.held = true → (s.tasks t).held = true ∧ v.pid = (s.tasks t).pid ∧ v.uid = (s.tasks t).uid)
    (hscheduled : v.scheduled = false) : Inv limited ((s.setTask t v).setBit t b) := by
  have htask : ((s.setTask t v).setBit t b).tasks t = v := by simp
  have hstage : ((s.setTask t v).setBit t b).stage t = .outside := hout
  apply h.lower (t := t) (k := t)
  · refine ⟨fun _ _ => rfl, ?_, ?_, .inr hunused⟩
    · intro i hi
      simp [hi]
    · intro i hi
      simp [hi]
  · rwa [htask]
  · intro _
    rwa [htask]
  · rw [hstage]
    trivial
  · intro _ _
    rw [hstage]
    trivial
  · exact h.owner
  · intro c hc
    rw [hstage] at hc
    cases hc
  · intro hp
    rw [hstage] at hp
    cases hp

/-- A running task ends, and keeps its slot. -/
theorem stopped_inv {v : Task} (h : Inv limited s) (hfree : free s t = true)
    (hv : v.held = true → v.pid = (s.tasks t).pid ∧ v.uid = (s.tasks t).uid)
    (hscheduled : v.scheduled = false) : Inv limited (s.setTask t v) := by
  simp only [free, Bool.and_eq_true, decide_eq_true_iff] at hfree
  have hended := ended_inv (b := s.freeSlotBitmap t) h hfree.2 (h.unused_of_running hfree.1.2)
    (fun hheld => ⟨hfree.1.1, hv hheld⟩) hscheduled
  rwa [State.setBit, State.setTask_bits, update_eq_self] at hended

theorem next_inv {e : Event} (h : Inv limited s) (hguard : limited → Orderly s e)
    (hstep : next s e = some s') : Inv limited s' := by
  cases e with
  | spawn t pid => exact spawnStep_inv h hguard hstep
  | fail t => exact failStep_inv h hstep
  | exit t =>
    obtain ⟨hfree, heq⟩ := Option.ite_none_right_eq_some.mp hstep
    cases heq
    exact stopped_inv h hfree (fun _ => ⟨rfl, rfl⟩) rfl
  | terminate t =>
    obtain ⟨hfree, heq⟩ := Option.ite_none_right_eq_some.mp hstep
    cases heq
    exact stopped_inv h hfree (fun hheld => by simp [held] at hheld) rfl
  | reap t =>
    obtain ⟨⟨hscheduled, -, hstate⟩, heq⟩ := Option.ite_none_right_eq_some.mp hstep
    cases heq
    -- A task in `sys_spawn` runs, and a child has not ended.
    have hout : s.stage t = .outside := by
      by_contra hstage
      rw [(h.placed t).scheduled hstage] at hscheduled
      cases hscheduled
    refine ended_inv h hout (h.unused_of_ended ?_) ?_ hscheduled
    · rcases hstate with hstate | hstate <;> simp [hstate]
    · intro hheld
      simp [held] at hheld

/-- A slot is taken only by the step that gives a child its pid. -/
theorem spawnStep_free {pid : UInt32} (h : Inv limited s) (hstep : spawnStep s t pid = some s')
    (hless : s'.taskCountFreeSlots < s.taskCountFreeSlots) :
    ∃ k, s.stage t = .claimed k ∧ ∀ i, i ≠ k → s'.tasks i = s.tasks i := by
  -- Every other step leaves the free slots free.
  have hkeep : (∀ i, (s'.tasks i).held = true → (s.tasks i).held = true) → False := by
    intro hheld
    apply Nat.not_lt.mpr (Lib.tally_mono ?_) hless
    intro i hi
    rw [Bool.not_eq_true'] at hi ⊢
    rw [← Bool.not_eq_true] at hi ⊢
    exact fun hnow => hi (hheld i hnow)
  have hplaced := h.placed t
  unfold spawnStep at hstep
  cases hstage : s.stage t with
  | claimed k =>
    refine ⟨k, rfl, ?_⟩
    intro i hi
    simp only [hstage, assignPid] at hstep
    split at hstep
    · cases hstep
      rfl
    split at hstep
    · cases hstep
    · cases hstep
      simp [hi]
  | outside =>
    simp only [hstage, enter] at hstep
    split at hstep
    · cases hstep
      exact absurd (fun i hi => hi) hkeep
    · cases hstep
  | admitted =>
    simp only [hstage, claim] at hstep
    cases hstep
    refine absurd (fun i hi => ?_) hkeep
    split at hi
    · exact hi
    rename_i k _
    by_cases hik : i = k
    · subst hik
      simp [held] at hi
    · simpa [hik] using hi
  | countingLive _ _ | countingFree _ _ =>
    simp only [hstage, countLive, countFree] at hstep
    cases hstep
    refine absurd (fun i hi => ?_) hkeep
    repeat' split at hi
    all_goals exact hi
  | named k | found k | charged k =>
    simp only [hstage] at hstep hplaced
    cases hstep
    obtain ⟨_, _, pid, hpid, htask⟩ := hplaced
    refine absurd (fun i hi => ?_) hkeep
    by_cases hik : i = k
    · subst hik
      simp [htask, held, hpid]
    · simpa [hik] using hi
  | loaded k pid =>
    simp only [hstage, taskGet_child h hstage] at hstep
    cases hstep
    exact absurd (fun i hi => hi) hkeep
  | locked | built _ | created _ =>
    simp only [hstage] at hstep
    cases hstep
    exact absurd (fun i hi => hi) hkeep

/-- No creation is under way, and no user has more tasks than allowed. -/
structure AtRest (s : State) : Prop where
  outside : ∀ t, s.stage t = .outside
  unlocked : s.execOwner = none
  vacant : ∀ k, s.freeSlotBitmap k = true → (s.tasks k).scheduled = false
  pids : ∀ i j, (s.tasks i).held = true → (s.tasks j).held = true →
    (s.tasks i).pid = (s.tasks j).pid → i = j
  cap : ∀ uid, uid ≠ 0 → s.taskCountLiveForUid uid ≤ userMaxConcurrentTasks

theorem AtRest.inv (h : AtRest s) : Inv limited s where
  placed t := by
    rw [h.outside t]
    trivial
  fits _ t _ := by
    rw [h.outside t]
    trivial
  owner t hlocks := by
    rw [h.outside t] at hlocks
    cases hlocks
  vacant := h.vacant
  apart t _ k hk := by
    rw [h.outside t] at hk
    cases hk
  pids := h.pids
  alone t _ hpending _ := by
    rw [h.outside t] at hpending
    cases hpending
  cap _ := h.cap

/-- If every step of the run is orderly, no user but root ever has more than the allowed number of
tasks; and no creation by such a user takes one of the last slots. -/
theorem user_limits_hold {s₀ : State} {es : List Event} (h₀ : AtRest s₀)
    (hrun : Run (fun s e s' => Orderly s e ∧ next s e = some s') s₀ es s) :
    (∀ uid, uid ≠ 0 → s.taskCountLiveForUid uid ≤ userMaxConcurrentTasks) ∧
      ∀ t pid s', (s.tasks t).uid ≠ 0 → next s (.spawn t pid) = some s' →
        s'.taskCountFreeSlots < s.taskCountFreeSlots →
        taskRootReservedSlots ≤ s'.taskCountFreeSlots := by
  have h : Inv True s :=
    hrun.invariant (fun s e s' hs hstep => next_inv hs (fun _ => hstep.1) hstep.2) h₀.inv
  refine ⟨h.cap trivial, ?_⟩
  intro t pid s' huid hstep hless
  obtain ⟨k, hstage, hsame⟩ := spawnStep_free h hstep hless
  have hfits := h.fits trivial t huid
  rw [hstage] at hfits
  have hone : s.taskCountFreeSlots ≤ s'.taskCountFreeSlots + 1 := by
    apply Lib.tally_le_succ k
    intro i hi hfree
    rwa [hsame i hi]
  have hcount := hfits.2
  omega

/-! ## Runs -/

theorem tasksOf_atRest {owner : Slot → UInt16} {n : Nat} (hn : n ≤ maxTasks)
    (hcap : ∀ uid, uid ≠ 0 →
      (tasksOf owner n).taskCountLiveForUid uid ≤ userMaxConcurrentTasks) :
    AtRest (tasksOf owner n) where
  outside _ := rfl
  unlocked := rfl
  vacant k hk := by
    have hge : n ≤ k.val := of_decide_eq_true hk
    simp [tasksOf, Nat.not_lt.mpr hge]
  pids i j hi hj hpid := by
    have hlt : ∀ i, ((tasksOf owner n).tasks i).held = true → i.val < n := by
      intro i hi
      by_contra hge
      simp [tasksOf, hge, held] at hi
    have hn' : n ≤ 32 := hn
    have hi' := hlt i hi
    have hj' := hlt j hj
    simp only [tasksOf, hi', hj', if_true] at hpid
    have hval := congrArg UInt32.toNat hpid
    simp only [UInt32.toNat_ofNat'] at hval
    apply Fin.ext
    omega
  cap := hcap

/-- A user's tasks are among those that it owns by the table. -/
theorem count_tasksOf_le {owner : Slot → UInt16} {n : Nat} {uid : UInt16} :
    (tasksOf owner n).taskCountLiveForUid uid ≤
      tally fun i : Slot => decide (i.val < n) && decide (owner i = uid) := by
  apply Lib.tally_mono
  intro i hi
  by_cases hlt : i.val < n
  · rw [heldBy, Bool.and_eq_true] at hi
    simpa [tasksOf, hlt] using hi.2
  · simp [tasksOf, hlt, heldBy, held] at hi

/-- The steps of `sys_spawn` until the child has uid 1000. -/
def untilBuilt (t : Slot) (pid : UInt32) : List Event :=
  List.replicate (2 + (maxTasks + 1) + (maxTasks + 1) + 3) (.spawn t pid)

/-- The steps up to the release of the exec lock. -/
def untilLoaded (t : Slot) (pid : UInt32) : List Event :=
  untilBuilt t pid ++ List.replicate 2 (.spawn t pid)

/-- The steps that remain. -/
def rest (t : Slot) : List Event := List.replicate 3 (.spawn t 0)

/-- Ten tasks run as uid 1000, and one as uid 1001. -/
def fullHouse : State := tasksOf (fun i => if i = 0 then 1001 else 1000) 11

theorem fullHouse_atRest : AtRest fullHouse := by
  refine tasksOf_atRest (by decide) fun uid _ => count_tasksOf_le.trans ?_
  by_cases huid : uid = 1000
  · subst huid
    decide +kernel
  · -- Without the tasks of uid 1000, one is left.
    refine le_trans (Lib.tally_mono (q := fun i : Slot => decide (i = 0)) fun i hi => ?_) (by decide)
    by_contra hne
    simp at hne hi
    simp [hne, Ne.symm huid] at hi

/-- The task of uid 1001 creates another. Its own limit is not reached, but its child is the eleventh
task of uid 1000 while `ramfs_mkdir` waits for the RAMFS mutex. -/
theorem child_of_another_user_exceeds_the_cap :
    ∃ s, AtRest fullHouse ∧
      Run (fun s e s' => next s e = some s') fullHouse (untilBuilt 0 200) s ∧
      s.stage 0 = .built 11 ∧ s.taskCountLiveForUid 1000 = 11 := by
  have hrun : (((untilBuilt 0 200).foldlM next fullHouse).any fun s =>
      decide (s.stage 0 = .built 11 ∧ s.taskCountLiveForUid 1000 = 11)) = true := by
    decide +kernel
  rw [Option.any_eq_true] at hrun
  obtain ⟨s, hs, hend⟩ := hrun
  exact ⟨s, fullHouse_atRest, .of_foldlM_some hs, of_decide_eq_true hend⟩

theorem tasksOf1001_atRest {n : Nat} (hn : n ≤ userMaxConcurrentTasks) :
    AtRest (tasksOf (fun _ => 1001) n) := by
  have hn' : n ≤ 10 := hn
  refine tasksOf_atRest (hn'.trans (by decide)) fun uid _ => count_tasksOf_le.trans ?_
  refine le_trans (Lib.tally_mono (q := fun i : Slot => decide (i.val < 10)) fun i hi => ?_)
    (by decide +kernel)
  rw [Bool.and_eq_true, decide_eq_true_iff] at hi
  exact decide_eq_true (by omega)

/-- Nine tasks run as uid 1001, one of them creates another, and then no more can be created. -/
theorem user_limits_hold_for_ten :
    ∃ s, s.taskCountLiveForUid 1001 = 10 ∧
      (∀ uid, uid ≠ 0 → s.taskCountLiveForUid uid ≤ userMaxConcurrentTasks) ∧
      ∀ t pid s', (s.tasks t).uid ≠ 0 → next s (.spawn t pid) = some s' →
        s'.taskCountFreeSlots < s.taskCountFreeSlots →
        taskRootReservedSlots ≤ s'.taskCountFreeSlots := by
  have hrun : (((untilLoaded 0 200 ++ rest 0).foldlM
      (fun s e => if Orderly s e then next s e else none) (tasksOf (fun _ => 1001) 9)).any
        fun s => decide (s.taskCountLiveForUid 1001 = 10)) = true := by
    decide +kernel
  rw [Option.any_eq_true] at hrun
  obtain ⟨s, hs, hcount⟩ := hrun
  have hguarded : Run (fun s e s' => Orderly s e ∧ next s e = some s') (tasksOf (fun _ => 1001) 9)
      (untilLoaded 0 200 ++ rest 0) s := .of_foldlM_some_guarded hs
  have hrest := tasksOf1001_atRest (n := 9) (by decide)
  exact ⟨s, of_decide_eq_true hcount, user_limits_hold hrest hguarded⟩

/-- In every run, orderly or not, no two tasks have one PID, no two creations work on one slot, and the
look-up by PID after a load finds the task that was loaded. -/
theorem creations_are_apart {s₀ : State} {es : List Event} (h₀ : AtRest s₀)
    (hrun : Run (fun s e s' => next s e = some s') s₀ es s) :
    (∀ i j, (s.tasks i).held = true → (s.tasks j).held = true →
      (s.tasks i).pid = (s.tasks j).pid → i = j) ∧
    (∀ t t' k, (s.stage t).child = some k → (s.stage t').child = some k → t = t') ∧
      ∀ t k pid, s.stage t = .loaded k pid → s.taskGet pid = some k := by
  have h : Inv False s :=
    hrun.invariant (fun s e s' hs hstep => next_inv hs False.elim hstep) h₀.inv
  exact ⟨h.pids, h.apart, fun t k pid => taskGet_child h⟩

/-- One of eight tasks has created another, and then a second one has loaded its own. -/
theorem loaded_task_is_found :
    ∃ s : State, (s.tasks 8).pid = 200 ∧ s.stage 1 = .loaded 9 201 ∧ s.taskGet 201 = some 9 := by
  have hrun : (((untilLoaded 0 200 ++ rest 0 ++ untilLoaded 1 201).foldlM next
      (tasksOf (fun _ => 1001) 8)).any fun s =>
        decide ((s.tasks 8).pid = 200 ∧ s.stage 1 = .loaded 9 201)) = true := by
    decide +kernel
  rw [Option.any_eq_true] at hrun
  obtain ⟨s, hs, hend⟩ := hrun
  obtain ⟨hfirst, hstage⟩ := of_decide_eq_true hend
  exact ⟨s, hfirst, hstage, (creations_are_apart (tasksOf1001_atRest (by decide))
    (.of_foldlM_some hs)).2.2 1 9 201 hstage⟩

end TinyOS.Proc.SpawnLimits
