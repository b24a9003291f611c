import TinyOS.User.Moves

/-!
# An administrative lock

An account that `user_lock_account` locked stays locked until `user_unlock_account` or
`user_set_password` releases it, provided that the failure counter is below the lockout limit when
the lock is set and that no call has passed the test of the flag by then (`Clean`).

The test in `user_authenticate_for` takes a lock for an administrator's when the failure counter is
low. `user_lock_account` does not reset the counter and `user_set_password` unlocks the account
without resetting it, so the counter of an earlier lockout can stay behind, and the lock then
expires as a lockout would.
-/

namespace TinyOS.User

open TinyOS.Lib

variable {Hash : Type} {kdf : Kdf Hash} {s s' : State Hash} {a : Index}

/-! ## Locks in a history -/

/-- The account was unlocked by an administrator, or given a password. -/
def Obs.releases (a : Index) : Obs → Bool
  | .adminUnlocked i => decide (i = a)
  | .passwordSet i => decide (i = a)
  | _ => false

/-- The account was locked by an administrator, and not released since. -/
def held (a : Index) : List Obs → Bool
  | [] => false
  | o :: older => if o = .adminLocked a then true else !o.releases a && held a older

theorem held_skip {o : Obs} (hlock : o ≠ .adminLocked a) (hrelease : o.releases a = false)
    (older : List Obs) : held a (o :: older) = held a older := by
  simp [held, hlock, hrelease]

theorem held_release {o : Obs} (hlock : o ≠ .adminLocked a) (hrelease : o.releases a = true)
    (older : List Obs) : held a (o :: older) = false := by
  simp [held, hlock, hrelease]

theorem held_append {newer : List Obs} (hnone : ∀ o ∈ newer, o.releases a = false)
    {older : List Obs} (h : held a older = true) : held a (newer ++ older) = true := by
  induction newer with
  | nil => exact h
  | cons o newer ih =>
    obtain ⟨ho, hnewer⟩ := List.forall_mem_cons.mp hnone
    simp [held, ho, ih hnewer]

theorem Obs.Idle.skip {o : Obs} (h : o.Idle a) (older : List Obs) :
    held a (o :: older) = held a older := by
  apply held_skip
  · rintro rfl
    exact h rfl
  · cases o with
    | adminUnlocked i => exact decide_eq_false h
    | passwordSet i => exact decide_eq_false h
    | _ => rfl

theorem held_idle {obs : List Obs} (h : ∀ o ∈ obs, o.Idle a) (older : List Obs) :
    held a (obs ++ older) = held a older := by
  induction obs with
  | nil => rfl
  | cons o obs ih =>
    obtain ⟨ho, hobs⟩ := List.forall_mem_cons.mp h
    rw [List.cons_append, ho.skip, ih hobs]

/-! ## Steps that set the lock cleanly -/

/-- When an administrator locks the account, its failures do not amount to a lockout and no call
is inside. -/
def Clean (a : Index) (s : State Hash) : Event → Prop
  | .lockAccount (some username) => userFindByUsername s.users username = some a →
      (s.users a).failedAttempts < userMaxLoginAttempts ∧ ∀ call ∈ s.calls, call.at a = none
  | _ => True

instance (a : Index) (s : State Hash) : (e : Event) → Decidable (Clean a s e)
  | .lockAccount (some _) => inferInstanceAs (Decidable (_ → _))
  | .lockAccount none => .isTrue trivial
  | .call _ _ => .isTrue trivial
  | .resume _ => .isTrue trivial
  | .setPassword _ _ _ => .isTrue trivial
  | .unlockAccount _ => .isTrue trivial
  | .tick _ => .isTrue trivial

/-! ## The invariant -/

/-- No call on the account has succeeded while the account was held. -/
def Honoured (a : Index) : List Obs → Prop
  | [] => True
  | o :: older =>
    (∀ k code, o = .returned k (some a) code → 0 ≤ code → held a older = false) ∧ Honoured a older

theorem Honoured.success {newer older : List Obs} {k : Nat} {code : Int}
    (h : Honoured a (newer ++ .returned k (some a) code :: older)) (hcode : 0 ≤ code) :
    held a older = false := by
  induction newer with
  | nil => exact h.1 k code rfl hcode
  | cons o newer ih => exact ih h.2

theorem Honoured.idle {obs older : List Obs} (hobs : ∀ o ∈ obs, o.Idle a) (h : Honoured a older) :
    Honoured a (obs ++ older) := by
  induction obs with
  | nil => exact h
  | cons o obs ih =>
    obtain ⟨ho, hobs⟩ := List.forall_mem_cons.mp hobs
    refine ⟨?_, ih hobs⟩
    rintro k code rfl hcode
    have hneg : code < 0 := ho rfl
    omega

/-- While the account is held, no call gets past the test of the flag. -/
structure LockInv (a : Index) (s : State Hash) : Prop where
  shut : held a s.trace = true → (s.users a).locked = true ∧
    (s.users a).failedAttempts < userMaxLoginAttempts ∧ ∀ k, s.pcOf a k = none
  honoured : Honoured a s.trace

theorem lockInv_fresh (users : Index → Account Hash) (ticks : Nat) :
    LockInv a (State.fresh users ticks) where
  shut h := by cases h
  honoured := trivial

/-- A call that is inside the account shows that the account is not held. -/
theorem LockInv.open_of_pc (h : LockInv a s) {k : Nat} {pc : Pc} (hk : s.pcOf a k = some pc) :
    held a s.trace = false := by
  by_contra hheld
  rw [Bool.not_eq_false] at hheld
  obtain ⟨_, _, hnone⟩ := h.shut hheld
  rw [hnone k] at hk
  cases hk

/-- An account that is not held after the step has nothing to show. -/
theorem LockInv.of_open {obs : List Obs} (htrace : s'.trace = obs ++ s.trace)
    (hheld : held a (obs ++ s.trace) = false) (hhon : Honoured a (obs ++ s.trace)) :
    LockInv a s' where
  shut h := by
    rw [htrace, hheld] at h
    cases h
  honoured := htrace ▸ hhon

/-- An account that is not held is not held after observations that do not lock it. -/
theorem held_cons_open {o : Obs} {older : List Obs} (hlock : o ≠ .adminLocked a)
    (h : held a older = false) : held a (o :: older) = false := by
  simp [held, hlock, h]

theorem LockInv.touch {e : Event} (h : LockInv a s) (hclean : Clean a s e)
    (ht : Touch kdf a s e s') : LockInv a s' := by
  cases ht with
  | away obs hobs hb =>
    constructor
    · rw [hb.trace, held_idle hobs, hb.user, hb.pcs]
      exact h.shut
    · rw [hb.trace]
      exact h.honoured.idle hobs
  | enter hfind hset hpc hb =>
    -- the test lets nobody in while the account is held
    refine LockInv.of_open hb.trace ?_ h.honoured
    by_contra hheld
    rw [Bool.not_eq_false] at hheld
    obtain ⟨hlocked, hfew, _⟩ := h.shut hheld
    rcases hpc with ⟨_, hfree⟩ | ⟨_, hexpired⟩
    · rw [hlocked] at hfree
      cases hfree
    · simp [lockHolds, hfew] at hexpired
  | expire hk hb | compare hk hb =>
    refine LockInv.of_open hb.trace (held_cons_open (by simp) (h.open_of_pc hk)) ?_
    exact ⟨nofun, h.honoured⟩
  | pass hk hb => exact LockInv.of_open hb.trace (h.open_of_pc hk) h.honoured
  | drop hk hb | succeed hk hb =>
    refine LockInv.of_open hb.trace (held_cons_open (by simp) (h.open_of_pc hk)) ?_
    exact ⟨fun _ _ _ _ => h.open_of_pc hk, h.honoured⟩
  | miss hk hb =>
    have hopen := held_cons_open (o := .counted a s.ticks) (by simp) (h.open_of_pc hk)
    refine LockInv.of_open hb.trace (held_cons_open (by simp) hopen) ?_
    exact ⟨fun _ _ _ _ => hopen, nofun, h.honoured⟩
  | password hset hb | unlock hb =>
    refine LockInv.of_open hb.trace (held_release (by simp) (by simp [Obs.releases]) _) ?_
    exact ⟨nofun, h.honoured⟩
  | lock hfind hb =>
    obtain ⟨hfew, hquiet⟩ := hclean hfind
    constructor
    · intro _
      rw [hb.user, hb.pcs]
      exact ⟨rfl, hfew, pcOf_of_forall (P := (· = none)) rfl hquiet⟩
    · rw [hb.trace]
      exact ⟨nofun, h.honoured⟩
  | tick hb =>
    constructor
    · rw [hb.trace, hb.user, hb.pcs]
      exact h.shut
    · rw [hb.trace]
      exact h.honoured

/-! ## Runs -/

/-- Runs in which the account is locked cleanly. -/
def CleanStep (kdf : Kdf Hash) (a : Index) (s : State Hash) (e : Event) (s' : State Hash) : Prop :=
  Clean a s e ∧ step kdf s e = some s'

/-- The invariant of a run, with what every run keeps. -/
def LockSafe (kdf : Kdf Hash) (a : Index) (s : State Hash) : Prop :=
  Sound kdf s ∧ LockInv a s

theorem LockSafe.step {e : Event} (h : LockSafe kdf a s) (hstep : CleanStep kdf a s e s') :
    LockSafe kdf a s' := by
  obtain ⟨hsound, hinv⟩ := h
  obtain ⟨hclean, hstep⟩ := hstep
  exact ⟨hsound.step hstep, hinv.touch hclean (step_touch a hsound hstep)⟩

theorem lockSafe_run {users : Index → Account Hash} {ticks : Nat} {events : List Event}
    (hrun : Run (CleanStep kdf a) (State.fresh users ticks) events s) : LockSafe kdf a s :=
  hrun.invariant (fun _ _ _ h hstep => h.step hstep)
    ⟨sound_fresh users ticks, lockInv_fresh users ticks⟩

/-- Between an administrator's lock and the next success on the account, an administrator
released it. -/
theorem administrative_lock_holds (kdf : Kdf Hash) (users : Index → Account Hash) (ticks : Nat)
    (a : Index) {events : List Event} {s : State Hash}
    (hrun : Run (CleanStep kdf a) (State.fresh users ticks) events s)
    (newer between older : List Obs) {k : Nat} {code : Int}
    (htrace : s.trace =
      newer ++ .returned k (some a) code :: (between ++ .adminLocked a :: older))
    (hcode : 0 ≤ code) : ∃ o ∈ between, o.releases a = true := by
  have hhon := (lockSafe_run hrun).2.honoured
  rw [htrace] at hhon
  have hopen := hhon.success hcode
  by_contra hnone
  have hheld : held a (between ++ .adminLocked a :: older) = true := by
    apply held_append
    · intro o ho
      by_contra hrelease
      exact hnone ⟨o, ho, Bool.not_eq_false _ ▸ hrelease⟩
    · simp [held]
  rw [hheld] at hopen
  cases hopen

/-! ## A lock that expires -/

/-- A hash that is the password behind a dollar sign, for runs that are carried out. -/
def plainKdf : Kdf Str where
  hashPassword _ password := 36 :: password
  isSet hash := !hash.isEmpty
  verify hash password := hash == 36 :: password
  hashPassword_isSet _ _ := rfl

/-- One account, named `r` and with password `p`. -/
def oneUser (i : Index) : Account Str where
  inUse := decide (i = 0)
  username := [114]
  uid := 0
  passwordHash := [36, 112]
  active := true
  locked := false
  failedAttempts := 0
  lastFailedTime := 0

/-- A call with this password, carried out to its end when it is compared. -/
def attempt (k : Nat) (password : Str) : List Event :=
  [.call (some [114]) (some password), .resume k, .resume k, .resume k]

/-- The lock is set, the right password is refused, the lock is taken away, and then the password
is accepted. -/
def lockAndRelease : List Event :=
  [.lockAccount (some [114]), .call (some [114]) (some [112]), .unlockAccount (some [114])] ++
    attempt 1 [112]

/-- What happens between the lock and the success, newest first. -/
def whileLocked : List Obs :=
  [.compared 1 0 true false, .adminUnlocked 0, .returned 0 (some 0) (-3)]

theorem released_account_is_entered :
    ∃ s : State Str, Run (CleanStep plainKdf 0) (State.fresh oneUser 0) lockAndRelease s ∧
      s.trace = .returned 1 (some 0) 0 :: (whileLocked ++ [.adminLocked 0]) ∧
      ∃ o ∈ whileLocked, o.releases 0 = true := by
  have hend : (lockAndRelease.foldlM (fun s e => if Clean 0 s e then step plainKdf s e else none)
      (State.fresh oneUser 0)).any (fun s => s.trace =
        .returned 1 (some 0) 0 :: (whileLocked ++ [.adminLocked 0])) = true := by
    decide +kernel
  obtain ⟨s, hs, htrace⟩ := (Option.any_eq_true ..).mp hend
  have hrun : Run (CleanStep plainKdf 0) (State.fresh oneUser 0) lockAndRelease s :=
    .of_foldlM_some_guarded hs
  have htrace := of_decide_eq_true htrace
  exact ⟨s, hrun, htrace,
    administrative_lock_holds plainKdf oneUser 0 0 hrun [] whileLocked [] htrace (le_refl 0)⟩

/-- Three wrong passwords lock the account, and `user_set_password` unlocks it but leaves the
counter. An administrator locks the account, and a minute later the right password is tried. -/
def lockAfterLockout : List Event :=
  attempt 0 [] ++ attempt 1 [] ++ attempt 2 [] ++
    [.setPassword 0 (some [113]) 0, .lockAccount (some [114]), .tick 6000] ++
    attempt 3 [113] ++ [.resume 3]

theorem lock_expires_after_a_lockout :
    ∃ (s : State Str) (between older : List Obs),
      Run (fun s e s' => step plainKdf s e = some s') (State.fresh oneUser 0) lockAfterLockout s ∧
      s.trace = .returned 3 (some 0) 0 :: (between ++ .adminLocked 0 :: older) ∧
      ∀ o ∈ between, o.releases 0 = false := by
  have hend : (lockAfterLockout.foldlM (step plainKdf) (State.fresh oneUser 0)).any
      (fun s => s.trace.take 4 = [.returned 3 (some 0) 0, .compared 3 0 true false, .expired 0,
        .adminLocked 0]) = true := by
    decide +kernel
  obtain ⟨s, hs, htrace⟩ := (Option.any_eq_true ..).mp hend
  refine ⟨s, [.compared 3 0 true false, .expired 0], s.trace.drop 4, Run.of_foldlM_some hs, ?_,
    by decide⟩
  conv_lhs => rw [← List.take_append_drop 4 s.trace, of_decide_eq_true htrace]
  rfl

end TinyOS.User
