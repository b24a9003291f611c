import TinyOS.Proc.Spawn

/-!
# What holds while tasks are created

The invariant behind the limits, and that each step of `sys_spawn` keeps it. `Placed` says which slots
a creation works on, `Fits` what its counts still say of the table. No two creations work on one slot,
and only one at a time waits for the uid of its child; so a step is accounted for by what it does to one
slot. The counts are in the invariant only under the assumption that uid 1000 always has room.
-/

namespace TinyOS.Proc.SpawnLimits

open State SpawnLimits.Task

open Lib (tally)

/-! ## The invariant -/

/-- What the stage of the task `t` says of the slots it works on. -/
def Placed (s : State) (t : Slot) : Stage → Prop
  | .outside => True
  | .locked | .countingLive _ _ | .countingFree _ _ | .admitted => (s.tasks t).scheduled = true
  | .claimed k => (s.tasks t).scheduled = true ∧ s.freeSlotBitmap k = false ∧ s.tasks k = {}
  | .named k =>
    (s.tasks t).scheduled = true ∧ s.freeSlotBitmap k = false ∧
      ∃ pid ≠ 0, s.tasks k = { pid := pid }
  | .built k | .created k | .found k =>
    (s.tasks t).scheduled = true ∧ s.freeSlotBitmap k = false ∧
      ∃ pid ≠ 0, s.tasks k = { pid := pid, uid := 1000 }
  | .loaded k pid =>
    (s.tasks t).scheduled = true ∧ s.freeSlotBitmap k = false ∧
      pid ≠ 0 ∧ s.tasks k = { pid := pid, uid := 1000 }
  | .charged k =>
    (s.tasks t).scheduled = true ∧ s.freeSlotBitmap k = false ∧
      ∃ pid ≠ 0, s.tasks k = { pid := pid, uid := (s.tasks t).uid }

/-- What the counts made for a uid still say of the table. A count may be out of date, but only because
tasks have ended since. -/
def Fits (s : State) (uid : UInt16) : Stage → Prop
  | .countingLive i owned =>
    (tally fun j => decide (j.val < i) && (s.tasks j).heldBy uid) ≤ owned
  | .countingFree i free =>
    s.taskCountLiveForUid uid < userMaxConcurrentTasks ∧
      free ≤ tally fun j => decide (j.val < i) && !(s.tasks j).held
  | .admitted | .claimed _ =>
    s.taskCountLiveForUid uid < userMaxConcurrentTasks ∧
      taskRootReservedSlots < s.taskCountFreeSlots
  | .named _ => s.taskCountLiveForUid uid < userMaxConcurrentTasks
  | .built _ | .created _ | .loaded _ _ | .found _ =>
    -- A child of uid 1000 is counted from the start.
    uid ≠ 1000 → s.taskCountLiveForUid uid < userMaxConcurrentTasks
  | .outside | .locked | .charged _ => True

/-- The invariant. What it says of the limits holds under the assumption `limited`. -/
structure Inv (limited : Prop) (s : State) : Prop where
  placed : ∀ t, Placed s t (s.stage t)
  fits : limited → ∀ t, (s.tasks t).uid ≠ 0 → Fits s (s.tasks t).uid (s.stage t)
  owner : ∀ t, (s.stage t).locks = true → s.execOwner = some t
  vacant : ∀ k, s.freeSlotBitmap k = true → (s.tasks k).scheduled = false
  apart : ∀ t t' k, (s.stage t).child = some k → (s.stage t').child = some k → t = t'
  pids : ∀ i j, (s.tasks i).held = true → (s.tasks j).held = true →
    (s.tasks i).pid = (s.tasks j).pid → i = j
  alone : ∀ t t', (s.stage t).pending = true → (s.stage t').pending = true → t = t'
  cap : limited → ∀ uid, uid ≠ 0 → s.taskCountLiveForUid uid ≤ userMaxConcurrentTasks

variable {limited : Prop} {s s' : State} {t t' k : Slot} {uid : UInt16} {x : Stage}

theorem Stage.ne_outside (h : x.child = some k) : x ≠ .outside := by
  rintro rfl
  cases h

theorem Placed.scheduled (h : Placed s t x) (hx : x ≠ .outside) : (s.tasks t).scheduled = true := by
  cases x with
  | outside => exact absurd rfl hx
  | locked | countingLive _ _ | countingFree _ _ | admitted => exact h
  | _ => exact h.1

/-- A child is not yet given to the scheduler, and its slot is taken. -/
theorem Placed.child (h : Placed s t x) (hk : x.child = some k) :
    (s.tasks k).scheduled = false ∧ s.freeSlotBitmap k = false ∧ (s.tasks k).state = .ready := by
  cases x <;> cases hk
  case claimed =>
    obtain ⟨_, hbit, htask⟩ := h
    rw [htask]
    exact ⟨rfl, hbit, rfl⟩
  case loaded pid =>
    obtain ⟨_, hbit, _, htask⟩ := h
    rw [htask]
    exact ⟨rfl, hbit, rfl⟩
  all_goals
    obtain ⟨_, hbit, _, _, htask⟩ := h
    rw [htask]
    exact ⟨rfl, hbit, rfl⟩

/-- What is known of the slots depends on nothing but those slots. -/
theorem Placed.congr (h : Placed s t x) (ht : x ≠ .outside → s'.tasks t = s.tasks t)
    (hchild : ∀ k, x.child = some k →
      s'.tasks k = s.tasks k ∧ s'.freeSlotBitmap k = s.freeSlotBitmap k) : Placed s' t x := by
  cases x with
  | outside => trivial
  | locked | countingLive _ _ | countingFree _ _ | admitted =>
    rw [Placed, ht (by simp)]
    exact h
  | _ =>
    rw [Placed, ht (by simp), (hchild _ rfl).1, (hchild _ rfl).2]
    exact h

/-- A count stays good if no task of the uid comes in and, while the count of free slots is needed, no
slot is taken. -/
theorem Fits.mono (h : Fits s uid x)
    (hheld : x.pending = true →
      ∀ i, (s'.tasks i).heldBy uid = true → (s.tasks i).heldBy uid = true)
    (hfree : x.locks = true → ∀ i, (s.tasks i).held = false → (s'.tasks i).held = false) :
    Fits s' uid x := by
  have hlive : x.pending = true → s'.taskCountLiveForUid uid ≤ s.taskCountLiveForUid uid :=
    fun hp => Lib.tally_mono (hheld hp)
  cases x with
  | outside | locked | charged _ => trivial
  | countingLive i owned =>
    refine (Lib.tally_mono ?_).trans h
    intro j hj
    rw [Bool.and_eq_true] at hj ⊢
    exact ⟨hj.1, hheld rfl j hj.2⟩
  | countingFree i free =>
    refine ⟨(hlive rfl).trans_lt h.1, h.2.trans (Lib.tally_mono ?_)⟩
    intro j hj
    rw [Bool.and_eq_true, Bool.not_eq_true'] at hj ⊢
    exact ⟨hj.1, hfree rfl j hj.2⟩
  | admitted | claimed _ =>
    refine ⟨(hlive rfl).trans_lt h.1, h.2.trans_le (Lib.tally_mono ?_)⟩
    intro j hj
    rw [Bool.not_eq_true'] at hj ⊢
    exact hfree rfl j hj
  | named _ => exact (hlive rfl).trans_lt h
  | built _ | created _ | loaded _ _ | found _ =>
    intro hne
    exact (hlive rfl).trans_lt (h hne)

/-! ## Steps -/

/-- The step is one of the task `t`, and changes at most the slot `k`, which no other creation works
on. -/
structure Touches (t k : Slot) (s s' : State) : Prop where
  stage : ∀ t', t' ≠ t → s'.stage t' = s.stage t'
  tasks : ∀ i, i ≠ k → s'.tasks i = s.tasks i
  bits : ∀ i, i ≠ k → s'.freeSlotBitmap i = s.freeSlotBitmap i
  unused : (s'.tasks k = s.tasks k ∧ s'.freeSlotBitmap k = s.freeSlotBitmap k) ∨
    ∀ t', t' ≠ t → s.stage t' ≠ .outside → t' ≠ k ∧ (s.stage t').child ≠ some k

namespace Touches

theorem creator (h : Touches t k s s') (ht : t' ≠ t) (hstage : s.stage t' ≠ .outside) :
    s'.tasks t' = s.tasks t' := by
  by_cases hk : t' = k
  · subst hk
    rcases h.unused with ⟨hsame, _⟩ | hunused
    · exact hsame
    · exact absurd rfl (hunused t' ht hstage).1
  · exact h.tasks t' hk

theorem child {c : Slot} (h : Touches t k s s') (ht : t' ≠ t) (hc : (s.stage t').child = some c) :
    s'.tasks c = s.tasks c ∧ s'.freeSlotBitmap c = s.freeSlotBitmap c := by
  by_cases hk : c = k
  · subst hk
    rcases h.unused with hsame | hunused
    · exact hsame
    · exact absurd hc (hunused t' ht (Stage.ne_outside hc)).2
  · exact ⟨h.tasks c hk, h.bits c hk⟩

end Touches

namespace Inv

/-- Only one creation at a time waits for the uid of its child. -/
theorem sole (h : Inv limited s) (ht : (s.stage t).pending = true) (hne : t' ≠ t) :
    (s.stage t').pending = false := by
  rw [← Bool.not_eq_true]
  intro hpending
  exact hne (h.alone t' t hpending ht)

/-- And so only one task holds the exec lock. -/
theorem unlocked (h : Inv limited s) (ht : (s.stage t).locks = true) (hne : t' ≠ t) :
    (s.stage t').locks = false := by
  rw [← Bool.not_eq_true]
  intro hlocks
  exact hne (h.alone t' t (Stage.pending_of_locks hlocks) (Stage.pending_of_locks ht))

/-- What a step has to show for the task that takes it, and for the slot it changes. -/
theorem of_touches (h : Inv limited s) (hstep : Touches t k s s')
    (hplaced : Placed s' t (s'.stage t))
    (hfits : limited → (s'.tasks t).uid ≠ 0 → Fits s' (s'.tasks t).uid (s'.stage t))
    (howner : ∀ t', (s'.stage t').locks = true → s'.execOwner = some t')
    (hvacant : s'.freeSlotBitmap k = true → (s'.tasks k).scheduled = false)
    (hchild : ∀ c, (s'.stage t).child = some c → ∀ t', t' ≠ t → (s.stage t').child ≠ some c)
    (hpids : (s'.tasks k).held = true → ∀ j, j ≠ k → (s.tasks j).held = true →
      (s.tasks j).pid ≠ (s'.tasks k).pid)
    (halone : (s'.stage t).pending = true → ∀ t', t' ≠ t → (s.stage t').pending = false)
    (hcap : limited → ∀ uid, uid ≠ 0 → s'.taskCountLiveForUid uid ≤ userMaxConcurrentTasks)
    (hheld : (s.stage t).pending = false → ∀ uid,
      (s'.tasks k).heldBy uid = true → (s.tasks k).heldBy uid = true)
    (hfree : (s.stage t).pending = false → (s.tasks k).held = false →
      (s'.tasks k).held = false) : Inv limited s' where
  placed t' := by
    by_cases ht : t' = t
    · subst ht
      exact hplaced
    · rw [hstep.stage t' ht]
      exact (h.placed t').congr (hstep.creator ht) fun c hc => hstep.child ht hc
  fits hl t' huid := by
    by_cases ht : t' = t
    · subst ht
      exact hfits hl huid
    by_cases hout : s.stage t' = .outside
    · rw [hstep.stage t' ht, hout]
      trivial
    rw [hstep.stage t' ht]
    rw [hstep.creator ht hout] at huid ⊢
    -- If another creation waits for the uid of its child, then `t` does not.
    apply (h.fits hl t' huid).mono
    · intro hpending i hi
      by_cases hik : i = k
      · subst hik
        exact hheld (h.sole hpending (Ne.symm ht)) _ hi
      · rwa [hstep.tasks i hik] at hi
    · intro hlocks i hi
      by_cases hik : i = k
      · subst hik
        exact hfree (h.sole (Stage.pending_of_locks hlocks) (Ne.symm ht)) hi
      · rwa [hstep.tasks i hik]
  owner := howner
  vacant i hi := by
    by_cases hik : i = k
    · subst hik
      exact hvacant hi
    rw [hstep.bits i hik] at hi
    rw [hstep.tasks i hik]
    exact h.vacant i hi
  apart := Lib.once_step h.apart (fun t' ht => by rw [hstep.stage t' ht]) hchild
  pids i j hi hj hpid := by
    by_cases hik : i = k
    · by_cases hjk : j = k
      · exact hik.trans hjk.symm
      rw [hstep.tasks j hjk] at hj hpid
      rw [hik] at hi hpid
      exact absurd hpid.symm (hpids hi j hjk hj)
    · rw [hstep.tasks i hik] at hi hpid
      by_cases hjk : j = k
      · rw [hjk] at hj hpid
        exact absurd hpid (hpids hj i hik hi)
      · rw [hstep.tasks j hjk] at hj hpid
        exact h.pids i j hi hj hpid
  alone t₁ t₂ h₁ h₂ := by
    by_cases ht₁ : t₁ = t
    · by_cases ht₂ : t₂ = t
      · exact ht₁.trans ht₂.symm
      · rw [ht₁] at h₁
        rw [hstep.stage t₂ ht₂, halone h₁ t₂ ht₂] at h₂
        cases h₂
    · rw [hstep.stage t₁ ht₁] at h₁
      by_cases ht₂ : t₂ = t
      · rw [ht₂] at h₂
        rw [halone h₂ t₁ ht₁] at h₁
        cases h₁
      · rw [hstep.stage t₂ ht₂] at h₂
        exact h.alone t₁ t₂ h₁ h₂
  cap := hcap

theorem restage (h : Inv limited s) (htasks : s'.tasks = s.tasks)
    (hbits : s'.freeSlotBitmap = s.freeSlotBitmap)
    (hstage : ∀ t', t' ≠ t → s'.stage t' = s.stage t')
    (hplaced : Placed s t (s'.stage t))
    (hfits : limited → (s.tasks t).uid ≠ 0 → Fits s (s.tasks t).uid (s'.stage t))
    (howner : ∀ t', (s'.stage t').locks = true → s'.execOwner = some t')
    (hchild : ∀ c, (s'.stage t).child = some c → (s.stage t).child = some c)
    (halone : (s'.stage t).pending = true → ∀ t', t' ≠ t → (s.stage t').pending = false) :
    Inv limited s' := by
  have hsame : ∀ i, s'.tasks i = s.tasks i := fun i => congrFun htasks i
  have hcount : ∀ uid, s'.taskCountLiveForUid uid = s.taskCountLiveForUid uid := by
    intro uid
    rw [taskCountLiveForUid, htasks]
    rfl
  apply h.of_touches (t := t) (k := t)
  · exact ⟨hstage, fun i _ => hsame i, fun i _ => congrFun hbits i,
      .inl ⟨hsame t, congrFun hbits t⟩⟩
  · exact hplaced.congr (fun _ => hsame t) fun c _ => ⟨hsame c, congrFun hbits c⟩
  · intro hl huid
    rw [hsame t] at huid ⊢
    exact (hfits hl huid).mono (fun _ i hi => hsame i ▸ hi) fun _ i hi => (hsame i).symm ▸ hi
  · exact howner
  · intro hbit
    rw [hbits] at hbit
    rw [hsame t]
    exact h.vacant t hbit
  · intro c hc t' ht hc'
    exact ht (h.apart t' t c hc' (hchild c hc))
  · intro hheld j hj hjheld heq
    rw [hsame t] at hheld heq
    exact hj (h.pids j t hjheld hheld heq)
  · exact halone
  · intro hl uid huid
    rw [hcount]
    exact h.cap hl uid huid
  · intro _ uid hi
    rwa [hsame t] at hi
  · intro _ hi
    rwa [hsame t]

/-- A task that holds the exec lock goes on, and keeps the lock or releases it. -/
theorem onward {o : Option Slot} (h : Inv limited s) (ht : (s.stage t).locks = true)
    (hx : x.locks = true → o = some t) (hplaced : Placed s t x)
    (hfits : limited → (s.tasks t).uid ≠ 0 → Fits s (s.tasks t).uid x)
    (hchild : ∀ c, x.child = some c → (s.stage t).child = some c) :
    Inv limited ((s.setStage t x).setOwner o) := by
  have hself : ((s.setStage t x).setOwner o).stage t = x := by simp
  have hother : ∀ t', t' ≠ t → ((s.setStage t x).setOwner o).stage t' = s.stage t' := by
    intro t' hne
    simp [hne]
  refine h.restage ?_ ?_ hother ?_ ?_ ?_ ?_ ?_
  · rfl
  · rfl
  · rwa [hself]
  · rwa [hself]
  · intro t' hlocks
    by_cases hne : t' = t
    · rw [hne, hself] at hlocks
      rw [hne]
      exact hx hlocks
    · rw [hother t' hne, h.unlocked ht hne] at hlocks
      cases hlocks
  · rwa [hself]
  · intro _ t' hne
    exact h.sole (Stage.pending_of_locks ht) hne

theorem giveUp (h : Inv limited s) (ht : (s.stage t).locks = true) : Inv limited (s.giveUp t) := by
  apply h.onward ht
  · intro hlocks
    cases hlocks
  · trivial
  · intro _ _
    trivial
  · intro c hc
    cases hc

theorem keep (h : Inv limited s) (ht : (s.stage t).locks = true) (hplaced : Placed s t x)
    (hfits : limited → (s.tasks t).uid ≠ 0 → Fits s (s.tasks t).uid x)
    (hchild : ∀ c, x.child = some c → (s.stage t).child = some c) : Inv limited (s.setStage t x) :=
  h.onward ht (fun _ => h.owner t ht) hplaced hfits hchild

end Inv

/-! ## The counts -/

theorem countLive_inv {i owned : Nat} (h : Inv limited s) (ht : s.stage t = .countingLive i owned) :
    Inv limited (countLive s t i owned) := by
  have hlocks : (s.stage t).locks = true := by rw [ht]; rfl
  have hplaced := h.placed t
  have hfits := fun hl => h.fits hl t
  rw [ht] at hplaced hfits
  unfold countLive
  split
  · rename_i hi
    refine h.keep hlocks hplaced ?_ (fun c hc => by cases hc)
    intro hl hroot
    show (tally fun j => decide (j.val < i + 1) && _) ≤ _
    rw [Lib.tally_below_succ hi]
    exact Nat.add_le_add_right (hfits hl hroot) _
  · split
    · exact h.giveUp hlocks
    refine h.keep hlocks hplaced ?_ (fun c hc => by cases hc)
    intro hl hroot
    have hcount : (tally fun j => decide (j.val < i) && _) ≤ owned := hfits hl hroot
    rw [Lib.tally_below_all (by omega)] at hcount
    refine ⟨?_, Nat.zero_le _⟩
    show tally _ < _
    omega

theorem countFree_inv {i free : Nat} (h : Inv limited s) (ht : s.stage t = .countingFree i free) :
    Inv limited (countFree s t i free) := by
  have hlocks : (s.stage t).locks = true := by rw [ht]; rfl
  have hplaced := h.placed t
  have hfits := fun hl => h.fits hl t
  rw [ht] at hplaced hfits
  unfold countFree
  split
  · rename_i hi
    refine h.keep hlocks hplaced ?_ (fun c hc => by cases hc)
    intro hl hroot
    refine ⟨(hfits hl hroot).1, ?_⟩
    rw [Lib.tally_below_succ hi]
    have hturn := (hfits hl hroot).2
    cases (s.tasks ⟨i, hi⟩).held <;> simp only [Bool.not_true, Bool.not_false, if_true] <;> simp <;> omega
  · split
    · exact h.giveUp hlocks
    refine h.keep hlocks hplaced ?_ (fun c hc => by cases hc)
    intro hl hroot
    refine ⟨(hfits hl hroot).1, ?_⟩
    have hcount := (hfits hl hroot).2
    rw [Lib.tally_below_all (by omega)] at hcount
    show _ < tally _
    omega

/-! ## The slot of the child -/

namespace Inv

variable (h : Inv limited s)

include h

theorem unused_of_vacant (hk : s.freeSlotBitmap k = true) :
    ∀ t', t' ≠ t → s.stage t' ≠ .outside → t' ≠ k ∧ (s.stage t').child ≠ some k := by
  intro t' _ hstage
  constructor
  · intro heq
    have hscheduled := (h.placed t').scheduled hstage
    rw [heq, h.vacant k hk] at hscheduled
    cases hscheduled
  · intro hchild
    have hbit := ((h.placed t').child hchild).2.1
    rw [hk] at hbit
    cases hbit

theorem unused_of_child (hk : (s.stage t).child = some k) :
    ∀ t', t' ≠ t → s.stage t' ≠ .outside → t' ≠ k ∧ (s.stage t').child ≠ some k := by
  intro t' hne hstage
  constructor
  · intro heq
    have hscheduled := (h.placed t').scheduled hstage
    rw [heq, ((h.placed t).child hk).1] at hscheduled
    cases hscheduled
  · intro hchild
    exact hne (h.apart t' t k hchild hk)

theorem ne_child (hk : (s.stage t).child = some k) : t ≠ k := by
  intro heq
  have hscheduled := (h.placed t).scheduled (Stage.ne_outside hk)
  rw [heq, ((h.placed t).child hk).1] at hscheduled
  cases hscheduled

theorem unused_of_running (ht : (s.tasks t).scheduled = true) :
    ∀ t', t' ≠ t → s.stage t' ≠ .outside → t' ≠ t ∧ (s.stage t').child ≠ some t := by
  intro t' hne _
  refine ⟨hne, ?_⟩
  intro hchild
  have hscheduled := ((h.placed t').child hchild).1
  rw [ht] at hscheduled
  cases hscheduled

theorem unused_of_ended (hstate : (s.tasks t).state ≠ .ready) :
    ∀ t', t' ≠ t → s.stage t' ≠ .outside → t' ≠ t ∧ (s.stage t').child ≠ some t := by
  intro t' hne _
  refine ⟨hne, ?_⟩
  intro hchild
  exact hstate ((h.placed t').child hchild).2.2

theorem lower (hstep : Touches t k s s')
    (hk : (s'.tasks k).held = true → (s.tasks k).held = true ∧
      (s'.tasks k).pid = (s.tasks k).pid ∧ (s'.tasks k).uid = (s.tasks k).uid)
    (hvacant : s'.freeSlotBitmap k = true → (s'.tasks k).scheduled = false)
    (hplaced : Placed s' t (s'.stage t))
    (hfits : limited → (s'.tasks t).uid ≠ 0 → Fits s (s'.tasks t).uid (s'.stage t))
    (howner : ∀ t', (s'.stage t').locks = true → s'.execOwner = some t')
    (hchild : ∀ c, (s'.stage t).child = some c → ∀ t', t' ≠ t → (s.stage t').child ≠ some c)
    (halone : (s'.stage t).pending = true → (s.stage t).pending = true) : Inv limited s' := by
  have hheldBy : ∀ uid i, (s'.tasks i).heldBy uid = true → (s.tasks i).heldBy uid = true := by
    intro uid i hi
    by_cases hik : i = k
    · subst hik
      rw [heldBy, Bool.and_eq_true] at hi ⊢
      obtain ⟨hheld, _, huid⟩ := hk hi.1
      exact ⟨hheld, huid ▸ hi.2⟩
    · rwa [hstep.tasks i hik] at hi
  have hfree : ∀ i, (s.tasks i).held = false → (s'.tasks i).held = false := by
    intro i hi
    by_cases hik : i = k
    · subst hik
      rw [← Bool.not_eq_true]
      intro hheld
      rw [(hk hheld).1] at hi
      cases hi
    · rwa [hstep.tasks i hik]
  apply h.of_touches hstep hplaced
  · intro hl huid
    exact (hfits hl huid).mono (fun _ => hheldBy _) fun _ => hfree
  · exact howner
  · exact hvacant
  · exact hchild
  · intro hheld j hj hjheld heq
    obtain ⟨hkheld, hpid, _⟩ := hk hheld
    exact hj (h.pids j k hjheld hkheld (heq.trans hpid))
  · intro hpending t' hne
    exact h.sole (halone hpending) hne
  · intro hl uid huid
    exact (Lib.tally_mono (hheldBy uid)).trans (h.cap hl uid huid)
  · intro _ uid hi
    exact hheldBy uid k hi
  · intro _ hi
    exact hfree k hi

/-- The owner of the exec lock, after a step in which its holder lets go of it. -/
theorem released (ht : (s.stage t).locks = true)
    (hstage : ∀ t', t' ≠ t → s'.stage t' = s.stage t') (hself : (s'.stage t).locks = false) :
    ∀ t', (s'.stage t').locks = true → s'.execOwner = some t' := by
  intro t' hlocks
  by_cases hne : t' = t
  · rw [hne, hself] at hlocks
    cases hlocks
  · rw [hstage t' hne, h.unlocked ht hne] at hlocks
    cases hlocks

/-- The same, after a step that leaves the lock alone. -/
theorem unreleased (hstage : ∀ t', t' ≠ t → s'.stage t' = s.stage t')
    (hself : (s'.stage t).locks = true → (s.stage t).locks = true)
    (howner : s'.execOwner = s.execOwner) :
    ∀ t', (s'.stage t').locks = true → s'.execOwner = some t' := by
  intro t' hlocks
  rw [howner]
  apply h.owner
  by_cases hne : t' = t
  · rw [hne] at hlocks ⊢
    exact hself hlocks
  · rwa [hstage t' hne] at hlocks

/-- The creation fails, and the slot of the child is given back. -/
theorem drop {v : Task} (ht : (s.stage t).locks = true) (hk : (s.stage t).child = some k)
    (hv : v.held = false) (hscheduled : v.scheduled = false) :
    Inv limited (((s.setTask k v).taskFreeSlot k).giveUp t) := by
  have hstage : ∀ t', t' ≠ t → (((s.setTask k v).taskFreeSlot k).giveUp t).stage t' = s.stage t' := by
    intro t' hne
    simp [State.giveUp, State.taskFreeSlot, hne]
  have hself : (((s.setTask k v).taskFreeSlot k).giveUp t).stage t = .outside := by
    simp [State.giveUp]
  have htask : (((s.setTask k v).taskFreeSlot k).giveUp t).tasks k = v := by
    simp [State.giveUp, State.taskFreeSlot]
  apply h.lower (t := t) (k := k)
  · refine ⟨hstage, ?_, ?_, .inr (h.unused_of_child hk)⟩
    · intro i hi
      simp [State.giveUp, State.taskFreeSlot, hi]
    · intro i hi
      simp [State.giveUp, State.taskFreeSlot, hi]
  · intro hheld
    rw [htask, hv] at hheld
    cases hheld
  · intro _
    rwa [htask]
  · rw [hself]
    trivial
  · intro _ _
    rw [hself]
    trivial
  · exact h.released ht hstage (by rw [hself]; rfl)
  · intro c hc
    rw [hself] at hc
    cases hc
  · intro hpending
    rw [hself] at hpending
    cases hpending

end Inv

theorem claim_inv (h : Inv limited s) (ht : s.stage t = .admitted) : Inv limited (claim s t) := by
  have hlocks : (s.stage t).locks = true := by rw [ht]; rfl
  unfold claim
  split
  · exact h.giveUp hlocks
  rename_i k hfind
  have hbit : s.freeSlotBitmap k = true := List.find?_some hfind
  have hscheduled : (s.tasks t).scheduled = true := (h.placed t).scheduled (by simp [ht])
  have hne : t ≠ k := by
    intro heq
    rw [heq, h.vacant k hbit] at hscheduled
    cases hscheduled
  have hfits := fun hl => h.fits hl t
  rw [ht] at hfits
  apply h.lower (t := t) (k := k)
  · refine ⟨?_, ?_, ?_, .inr (h.unused_of_vacant hbit)⟩
    · intro t' hne
      simp [hne]
    · intro i hi
      simp [hi]
    · intro i hi
      simp [hi]
  · intro hheld
    simp [held] at hheld
  · simp
  · simpa [Placed, hne] using hscheduled
  · simp only [setStage_tasks, setTask_of_ne hne, setBit_tasks, setStage_self]
    exact hfits
  · apply h.unreleased (t := t)
    · intro t' hne
      simp [hne]
    · intro _
      exact hlocks
    · rfl
  · intro c hc t' ht' hc'
    rw [setStage_self] at hc
    cases hc
    exact (h.unused_of_vacant hbit t' ht' (Stage.ne_outside hc')).2 hc'
  · intro _
    exact Stage.pending_of_locks hlocks

theorem Inv.write {v : Task} (h : Inv limited s) (hk : (s.stage t).child = some k)
    (hlocks : x.locks = true → (s.stage t).locks = true)
    (hpending : x.pending = true → (s.stage t).pending = true)
    (hchild : ∀ c, x.child = some c → c = k)
    (hplaced : Placed ((s.setTask k v).setStage t x) t x)
    (hfits : limited → (s.tasks t).uid ≠ 0 →
      Fits ((s.setTask k v).setStage t x) (s.tasks t).uid x)
    (hpids : v.held = true → ∀ j, j ≠ k → (s.tasks j).held = true → (s.tasks j).pid ≠ v.pid)
    (hcap : limited → ∀ uid, uid ≠ 0 →
      ((s.setTask k v).setStage t x).taskCountLiveForUid uid ≤ userMaxConcurrentTasks)
    (hsame : (s.stage t).pending = false → ∀ uid, v.heldBy uid = (s.tasks k).heldBy uid) :
    Inv limited ((s.setTask k v).setStage t x) := by
  have hstage : ∀ t', t' ≠ t → ((s.setTask k v).setStage t x).stage t' = s.stage t' := by
    intro t' hne
    simp [hne]
  have htask : ((s.setTask k v).setStage t x).tasks t = s.tasks t := by
    simp [h.ne_child hk]
  apply h.of_touches (t := t) (k := k)
  · refine ⟨hstage, ?_, ?_, .inr (h.unused_of_child hk)⟩
    · intro i hi
      simp [hi]
    · simp
  · simpa using hplaced
  · rw [htask]
    simpa using hfits
  · apply h.unreleased hstage
    · simpa using hlocks
    · rfl
  · intro hbit
    simp [((h.placed t).child hk).2.1] at hbit
  · intro c hc t' hne hc'
    rw [setStage_self] at hc
    rw [hchild c hc] at hc'
    exact hne (h.apart t' t k hc' hk)
  · simpa using hpids
  · intro hpend t' hne
    rw [setStage_self] at hpend
    exact h.sole (hpending hpend) hne
  · exact hcap
  · intro hdone uid
    simp [hsame hdone uid]
  · intro hdone hfree
    have hnone := hsame hdone v.uid
    simpa [heldBy, hfree] using hnone

theorem count_write_le {v : Task} :
    ((s.setTask k v).setStage t x).taskCountLiveForUid uid ≤ s.taskCountLiveForUid uid + 1 := by
  apply Lib.tally_le_succ k
  intro i hi hheld
  simpa [hi] using hheld

theorem count_write {v : Task} (hv : v.heldBy uid = true → (s.tasks k).heldBy uid = true) :
    ((s.setTask k v).setStage t x).taskCountLiveForUid uid ≤ s.taskCountLiveForUid uid := by
  apply Lib.tally_mono
  intro i hheld
  by_cases hi : i = k
  · subst hi
    exact hv (by simpa using hheld)
  · simpa [hi] using hheld

theorem pidInUse_of_held {j : Slot} (hj : (s.tasks j).held = true) :
    s.pidInUse (s.tasks j).pid = true := by
  rw [held, Bool.and_eq_true] at hj
  rw [pidInUse, List.any_eq_true]
  exact ⟨j, List.mem_finRange j, by simpa using hj.2⟩

theorem assignPid_inv {pid : UInt32} (h : Inv limited s) (ht : s.stage t = .claimed k)
    (hstep : assignPid s t k pid = some s') : Inv limited s' := by
  have hlocks : (s.stage t).locks = true := by rw [ht]; rfl
  have hk : (s.stage t).child = some k := by rw [ht]; rfl
  have hplaced := h.placed t
  have hfits := fun hl => h.fits hl t
  rw [ht] at hplaced hfits
  obtain ⟨hscheduled, hbit, htask⟩ := hplaced
  unfold assignPid at hstep
  split at hstep
  · cases hstep
    have hdrop := h.drop (v := s.tasks k) hlocks hk (by rw [htask]; rfl) (by rw [htask])
    rwa [setTask, Function.update_eq_self] at hdrop
  rename_i hpid
  split at hstep
  · cases hstep
  rename_i hused
  cases hstep
  rw [htask]
  -- The child is a task of root until it is given its first credentials.
  have hroot : ∀ uid, uid ≠ 0 → heldBy { pid := pid } uid = false := by
    intro uid huid
    simp [heldBy, Ne.symm huid]
  have hcount : ∀ uid : UInt16, uid ≠ 0 →
      ((s.setTask k { pid := pid }).setStage t (.named k)).taskCountLiveForUid uid ≤
        s.taskCountLiveForUid uid := by
    intro uid huid
    apply count_write
    intro hv
    rw [hroot uid huid] at hv
    cases hv
  apply h.write hk
  · intro _
    exact hlocks
  · intro _
    exact Stage.pending_of_locks hlocks
  · intro c hc
    cases hc
    rfl
  · simpa [Placed, h.ne_child hk, hscheduled, hbit] using hpid
  · intro hl huid
    exact (hcount _ huid).trans_lt (hfits hl huid).1
  · intro _ j _ hj hsame
    apply hused
    rw [← show (s.tasks j).pid = pid from hsame]
    exact pidInUse_of_held hj
  · intro hl uid huid
    exact (hcount uid huid).trans (h.cap hl uid huid)
  · intro hdone
    rw [Stage.pending_of_locks hlocks] at hdone
    cases hdone

theorem named_inv (h : Inv limited s) (ht : s.stage t = .named k)
    (hguard : limited → (s.tasks t).uid ≠ 1000 →
      s.taskCountLiveForUid 1000 < userMaxConcurrentTasks) :
    Inv limited ((s.setTask k { s.tasks k with uid := 1000 }).setStage t (.built k)) := by
  have hlocks : (s.stage t).locks = true := by rw [ht]; rfl
  have hk : (s.stage t).child = some k := by rw [ht]; rfl
  have hplaced := h.placed t
  have hfits := fun hl => h.fits hl t
  rw [ht] at hplaced hfits
  obtain ⟨hscheduled, hbit, pid, hpid, htask⟩ := hplaced
  have hkheld : (s.tasks k).held = true := by simp [htask, held, hpid]
  have hother : ∀ uid, uid ≠ 1000 →
      heldBy { s.tasks k with uid := 1000 } uid = true → (s.tasks k).heldBy uid = true := by
    intro uid huid hv
    simp [heldBy, Ne.symm huid] at hv
  apply h.write hk
  · intro _
    exact hlocks
  · intro _
    exact Stage.pending_of_locks hlocks
  · intro c hc
    cases hc
    rfl
  · simpa [Placed, h.ne_child hk, hscheduled, hbit, htask] using hpid
  · intro hl huid hstandard
    exact (count_write (hother _ hstandard)).trans_lt (hfits hl huid)
  · intro _ j hj hjheld hsame
    exact hj (h.pids j k hjheld hkheld hsame)
  · intro hl uid huid
    by_cases hstandard : uid = 1000
    · subst hstandard
      -- If the creator is a task of uid 1000, its own count left room.
      have hroom : s.taskCountLiveForUid 1000 < userMaxConcurrentTasks := by
        by_cases hself : (s.tasks t).uid = 1000
        · have hown := hfits hl (by rw [hself]; decide)
          rwa [hself] at hown
        · exact hguard hl hself
      exact count_write_le.trans hroom
    · exact (count_write (hother uid hstandard)).trans (h.cap hl uid huid)
  · intro hdone
    rw [Stage.pending_of_locks hlocks] at hdone
    cases hdone

theorem found_inv (h : Inv limited s) (ht : s.stage t = .found k) :
    Inv limited ((s.setTask k { s.tasks k with uid := (s.tasks t).uid }).setStage t (.charged k)) := by
  have hk : (s.stage t).child = some k := by rw [ht]; rfl
  have hplaced := h.placed t
  have hfits := fun hl => h.fits hl t
  rw [ht] at hplaced hfits
  obtain ⟨hscheduled, hbit, pid, hpid, htask⟩ := hplaced
  have hkheld : (s.tasks k).held = true := by simp [htask, held, hpid]
  -- The child may be new to the creator's uid, unless that is 1000.
  have hsame : ∀ uid, uid = 1000 ∨ uid ≠ (s.tasks t).uid →
      heldBy { s.tasks k with uid := (s.tasks t).uid } uid = true →
      (s.tasks k).heldBy uid = true := by
    intro uid huid hv
    rw [heldBy, Bool.and_eq_true, decide_eq_true_iff] at hv
    rcases huid with hstandard | hne
    · rw [hstandard, heldBy, hkheld, htask]
      rfl
    · exact absurd hv.2.symm hne
  apply h.write hk
  · intro hl
    cases hl
  · intro hp
    cases hp
  · intro c hc
    cases hc
    rfl
  · simpa [Placed, h.ne_child hk, hscheduled, hbit, htask] using hpid
  · intro _ _
    trivial
  · intro _ j hj hjheld heq
    exact hj (h.pids j k hjheld hkheld heq)
  · intro hl uid huid
    by_cases hown : uid = 1000 ∨ uid ≠ (s.tasks t).uid
    · exact (count_write (hsame uid hown)).trans (h.cap hl uid huid)
    push Not at hown
    obtain ⟨hstandard, rfl⟩ := hown
    exact count_write_le.trans (hfits hl huid hstandard)
  · intro hdone
    rw [ht] at hdone
    cases hdone

theorem charged_inv (h : Inv limited s) (ht : s.stage t = .charged k) :
    Inv limited ((s.setTask k { s.tasks k with scheduled := true }).setStage t .outside) := by
  have hk : (s.stage t).child = some k := by rw [ht]; rfl
  have hplaced := h.placed t
  rw [ht] at hplaced
  obtain ⟨hscheduled, hbit, pid, hpid, htask⟩ := hplaced
  have hkheld : (s.tasks k).held = true := by simp [htask, held, hpid]
  apply h.write hk
  · intro hl
    cases hl
  · intro hp
    cases hp
  · intro c hc
    cases hc
  · trivial
  · intro _ _
    trivial
  · intro _ j hj hjheld heq
    exact hj (h.pids j k hjheld hkheld heq)
  · intro hl uid huid
    refine (count_write ?_).trans (h.cap hl uid huid)
    intro hv
    exact hv
  · intro _ uid
    rfl

theorem taskGet_child {pid : UInt32} (h : Inv limited s) (ht : s.stage t = .loaded k pid) :
    s.taskGet pid = some k := by
  have hplaced := h.placed t
  rw [ht] at hplaced
  obtain ⟨_, _, hpid, htask⟩ := hplaced
  have hkheld : (s.tasks k).held = true := by simp [htask, held, hpid]
  rcases hget : s.taskGet pid with _ | c
  · have hnone := List.find?_eq_none.mp hget k (List.mem_finRange k)
    simp [htask] at hnone
  · have hc := List.find?_some hget
    rw [Bool.and_eq_true, decide_eq_true_iff, decide_eq_true_iff] at hc
    have hcheld : (s.tasks c).held = true := by simp [held, hc.1, hc.2, hpid]
    rw [h.pids c k hcheld hkheld (by rw [hc.1, htask])]

end TinyOS.Proc.SpawnLimits
