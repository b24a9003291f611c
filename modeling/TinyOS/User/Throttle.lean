import TinyOS.User.AdminLock

/-!
# The lockout after wrong passwords

At most three wrong passwords are compared with an account's hash before a lockout has to expire,
no password is compared while the account is locked, and a lockout ends a minute after the last
failure that was counted. This holds in every run in which no two calls are inside the account at
once (`Calm`).

The test of the flag and the update of the counter are separate sections of
`user_authenticate_for`, with the slow comparison between them. Calls that pass the test together
are all compared, whatever the counter says by then.
-/

namespace TinyOS.User

open TinyOS.Lib Function List Obs

variable {Hash : Type} {kdf : Kdf Hash} {s s' : State Hash} {a : Index}

/-! ## Wrong passwords in a history -/

/-- Ends a period in which wrong passwords are counted against the limit: the lockout expires, the
account is unlocked or given a password, or a call succeeds. -/
def Obs.resets (a : Index) : Obs → Bool
  | .adminUnlocked i => decide (i = a)
  | .passwordSet i => decide (i = a)
  | .expired i => decide (i = a)
  | .returned _ account code => decide (account = some a) && decide (0 ≤ code)
  | _ => false

/-- A wrong password was compared with the account's hash. -/
def Obs.wrong (a : Index) : Obs → Bool
  | .compared _ i matched _ => decide (i = a) && !matched
  | _ => false

/-- Wrong passwords compared in the current period. -/
def guesses (a : Index) : List Obs → Nat
  | [] => 0
  | o :: older => if o.resets a then 0 else (if o.wrong a then 1 else 0) + guesses a older

/-- An administrator locked the account, and it was not unlocked since. -/
def underAdmin (a : Index) : List Obs → Bool
  | [] => false
  | .adminLocked i :: older => decide (i = a) || underAdmin a older
  | .adminUnlocked i :: older => decide (i ≠ a) && underAdmin a older
  | .passwordSet i :: older => decide (i ≠ a) && underAdmin a older
  | .expired i :: older => decide (i ≠ a) && underAdmin a older
  | _ :: older => underAdmin a older

/-- When the last wrong password of the current period was counted. -/
def lastFailure (a : Index) : List Obs → Option Nat
  | [] => none
  | .counted i ticks :: older => if i = a then some ticks else lastFailure a older
  | o :: older => if o.resets a then none else lastFailure a older

/-- In no period have there been too many. -/
def Few (a : Index) : List Obs → Prop
  | [] => True
  | o :: older => guesses a (o :: older) ≤ userMaxLoginAttempts ∧ Few a older

theorem countP_wrong_le {period : List Obs} (h : ∀ o ∈ period, o.resets a = false)
    (older : List Obs) : period.countP (Obs.wrong a) ≤ guesses a (period ++ older) := by
  induction period with
  | nil => exact Nat.zero_le _
  | cons o period ih =>
    obtain ⟨ho, hperiod⟩ := forall_mem_cons.mp h
    have hle := ih hperiod
    simp only [countP_cons, cons_append, guesses, ho, Bool.false_eq_true, if_false]
    omega

theorem Few.period {newer period older : List Obs} (h : Few a (newer ++ (period ++ older)))
    (hperiod : ∀ o ∈ period, o.resets a = false) :
    period.countP (Obs.wrong a) ≤ userMaxLoginAttempts := by
  induction newer with
  | nil =>
    cases period with
    | nil => exact Nat.zero_le _
    | cons o period => exact (countP_wrong_le hperiod older).trans h.1
  | cons o newer ih => exact ih h.2

/-! ### Observations that do not matter -/

theorem Obs.Idle.resets_eq {o : Obs} (h : o.Idle a) : o.resets a = false := by
  cases o with
  | adminUnlocked i | passwordSet i | expired i => exact decide_eq_false h
  | returned k account code =>
    by_cases haccount : account = some a
    · have hneg : code < 0 := h haccount
      simp [resets, hneg]
    · simp [resets, haccount]
  | _ => rfl

theorem Obs.Idle.wrong_eq {o : Obs} (h : o.Idle a) : o.wrong a = false := by
  cases o with
  | compared k i matched locked =>
    have hi : i ≠ a := h
    simp [wrong, hi]
  | _ => rfl

theorem Obs.Idle.guesses_cons {o : Obs} (h : o.Idle a) (older : List Obs) :
    guesses a (o :: older) = guesses a older := by
  simp [guesses, h.resets_eq, h.wrong_eq]

theorem Obs.Idle.underAdmin_cons {o : Obs} (h : o.Idle a) (older : List Obs) :
    underAdmin a (o :: older) = underAdmin a older := by
  cases o with
  | adminLocked i | adminUnlocked i | passwordSet i
  | expired i => simp [underAdmin, show i ≠ a from h]
  | _ => rfl

theorem Obs.Idle.lastFailure_cons {o : Obs} (h : o.Idle a) (older : List Obs) :
    lastFailure a (o :: older) = lastFailure a older := by
  have hreset := h.resets_eq
  cases o with
  | counted i ticks => simp [lastFailure, show i ≠ a from h]
  | _ => simp [lastFailure, hreset]

theorem Few.guesses_le {trace : List Obs} (h : Few a trace) :
    guesses a trace ≤ userMaxLoginAttempts := by
  cases trace with
  | nil => exact Nat.zero_le _
  | cons o older => exact h.1

/-! ## The call inside the account -/

/-- At most one call is inside the account, and this is where it is. -/
inductive Inside (a : Index) (s : State Hash) : Option Pc → Prop
  | nobody (h : ∀ k, s.pcOf a k = none) : Inside a s none
  | one {k : Nat} {pc : Pc} (hk : s.pcOf a k = some pc) (h : ∀ j, j ≠ k → s.pcOf a j = none) :
      Inside a s (some pc)

theorem Inside.eq {inside : Option Pc} (h : Inside a s inside) {k : Nat} {pc : Pc}
    (hk : s.pcOf a k = some pc) : inside = some pc ∧ ∀ j, j ≠ k → s.pcOf a j = none := by
  cases h with
  | nobody h =>
    rw [h k] at hk
    cases hk
  | @one k' pc' hk' h =>
    by_cases heq : k = k'
    · subst heq
      exact ⟨hk'.symm.trans hk, h⟩
    · rw [h k heq] at hk
      cases hk

theorem Inside.move {inside : Option Pc} (h : Inside a s inside) {k : Nat} {pc : Pc}
    (hk : s.pcOf a k = some pc) {next : Option Pc}
    (hs : s'.pcOf a = update (s.pcOf a) k next) : Inside a s' next := by
  have hothers : ∀ j, j ≠ k → s'.pcOf a j = none := by
    intro j hj
    rw [hs, update_of_ne hj]
    exact (h.eq hk).2 j hj
  have hself : s'.pcOf a k = next := by rw [hs, update_self]
  cases next with
  | some pc' => exact .one hself hothers
  | none =>
    refine .nobody fun j => ?_
    by_cases hj : j = k
    · subst hj
      exact hself
    · exact hothers j hj

theorem Inside.enter (h : ∀ k, s.pcOf a k = none) {k : Nat} {pc : Pc}
    (hs : s'.pcOf a = update (s.pcOf a) k (some pc)) : Inside a s' (some pc) := by
  refine .one (k := k) (by rw [hs, update_self]) fun j hj => ?_
  rw [hs, update_of_ne hj, h j]

theorem Inside.same {inside : Option Pc} (h : Inside a s inside) (hs : s'.pcOf a = s.pcOf a) :
    Inside a s' inside := by
  cases h with
  | nobody h => exact .nobody fun k => by rw [hs, h k]
  | one hk h => exact .one (by rw [hs, hk]) fun j hj => by rw [hs, h j hj]

/-! ## What holds of an account -/

/-- The counter, the lock and the history of an account agree, given where the call inside is. -/
structure Fits (kdf : Kdf Hash) (a : Index) (inside : Option Pc) (user : Account Hash)
    (ticks : Nat) (trace : List Obs) : Prop where
  isSet : inside ≠ none → kdf.isSet user.passwordHash = true
  /-- Between the test of the flag and the comparison the account stays unlocked. -/
  unlocked : inside = some .active ∨ inside = some .verify → user.locked = false
  byAdmin : ∀ matched, inside = some (.update matched) → user.locked = true →
    underAdmin a trace = true
  /-- A wrong password has been counted, or the call inside is about to count it. -/
  counted : guesses a trace ≤ user.failedAttempts + 1
  settled : inside ≠ some (.update false) → guesses a trace ≤ user.failedAttempts ∧
    (0 < guesses a trace → user.locked = false → user.failedAttempts < userMaxLoginAttempts)
  few : Few a trace
  compared : ∀ k matched, .compared k a matched true ∉ trace
  /-- The lockout runs from the last failure, on the clock that is running now. -/
  lockout : ∀ T, user.locked = true → underAdmin a trace = false → lastFailure a trace = some T →
    userMaxLoginAttempts ≤ user.failedAttempts ∧ user.lastFailedTime = uptime T ∧ T ≤ ticks ∧
      T / 2 ^ 32 = ticks / 2 ^ 32
  failedSet : lastFailure a trace ≠ none → kdf.isSet user.passwordHash = true

section moves

variable {inside : Option Pc} {user : Account Hash} {ticks : Nat} {trace : List Obs}

theorem fits_fresh (user : Account Hash) (ticks : Nat) : Fits kdf a none user ticks [] where
  isSet h := absurd rfl h
  unlocked h := by rcases h with h | h <;> cases h
  byAdmin _ h := by cases h
  counted := Nat.zero_le _
  settled _ := ⟨Nat.zero_le _, fun h => absurd h (Nat.lt_irrefl 0)⟩
  few := trivial
  compared _ _ h := by cases h
  lockout _ _ _ h := by cases h
  failedSet h := absurd rfl h

variable (h : Fits kdf a inside user ticks trace)

include h

theorem Fits.idle_cons {o : Obs} (ho : o.Idle a) : Fits kdf a inside user ticks (o :: trace) where
  isSet := h.isSet
  unlocked := h.unlocked
  byAdmin := by
    rw [ho.underAdmin_cons]
    exact h.byAdmin
  counted := by
    rw [ho.guesses_cons]
    exact h.counted
  settled := by
    rw [ho.guesses_cons]
    exact h.settled
  few := ⟨by rw [ho.guesses_cons]; exact h.few.guesses_le, h.few⟩
  compared k matched hmem := by
    rcases mem_cons.mp hmem with rfl | hmem
    · exact ho rfl
    · exact h.compared k matched hmem
  lockout := by
    rw [ho.underAdmin_cons, ho.lastFailure_cons]
    exact h.lockout
  failedSet := by
    rw [ho.lastFailure_cons]
    exact h.failedSet

theorem Fits.idle {obs : List Obs} (hobs : ∀ o ∈ obs, o.Idle a) :
    Fits kdf a inside user ticks (obs ++ trace) := by
  induction obs with
  | nil => exact h
  | cons o obs ih =>
    obtain ⟨ho, hobs⟩ := forall_mem_cons.mp hobs
    exact (ih hobs).idle_cons ho

/-- The call inside moves to a place where less is known of the counter than before. -/
theorem Fits.goto {next : Option Pc} (hfrom : inside ≠ some (.update false))
    (hset : next ≠ none → kdf.isSet user.passwordHash = true)
    (hunlocked : next = some .active ∨ next = some .verify → user.locked = false)
    (hupdate : ∀ matched, next ≠ some (.update matched)) : Fits kdf a next user ticks trace :=
  { h with
    isSet := hset
    unlocked := hunlocked
    byAdmin := fun matched hnext => absurd hnext (hupdate matched)
    settled := fun _ => h.settled hfrom }

/-- A period ends; if a call is inside, the account is unlocked. -/
theorem Fits.reset {next : Option Pc} {user' : Account Hash} {o : Obs}
    (hreset : o.resets a = true) (hset : next ≠ none → kdf.isSet user'.passwordHash = true)
    (hlocked : next ≠ none → user'.locked = false) : Fits kdf a next user' ticks (o :: trace) := by
  have hguesses : guesses a (o :: trace) = 0 := by simp [guesses, hreset]
  have hlast : lastFailure a (o :: trace) = none := by
    cases o with
    | counted i ticks => cases hreset
    | _ => simp [lastFailure, hreset]
  have hinside : ∀ pc, next = some pc → user'.locked = false := by
    rintro pc rfl
    exact hlocked nofun
  constructor
  case isSet => exact hset
  case unlocked =>
    rintro (hnext | hnext)
    · exact hinside _ hnext
    · exact hinside _ hnext
  case byAdmin =>
    intro matched hnext hl
    rw [hinside _ hnext] at hl
    cases hl
  case counted => omega
  case settled =>
    intro _
    constructor
    · omega
    · omega
  case few => exact ⟨hguesses ▸ Nat.zero_le _, h.few⟩
  case compared =>
    intro k matched hmem
    rcases mem_cons.mp hmem with rfl | hmem
    · cases hreset
    · exact h.compared k matched hmem
  case lockout =>
    intro T _ _ hT
    rw [hlast] at hT
    cases hT
  case failedSet => exact fun hne => absurd hlast hne

omit h

theorem Fits.compare (h : Fits kdf a (some .verify) user ticks trace) (k : Nat) (matched : Bool) :
    Fits kdf a (some (.update matched)) user ticks
      (.compared k a matched user.locked :: trace) := by
  have hfree : user.locked = false := h.unlocked (.inr rfl)
  obtain ⟨hle, hlow⟩ := h.settled nofun
  have hlow := fun hpos => hlow hpos hfree
  have hguesses : guesses a (.compared k a matched user.locked :: trace) =
      (if matched = true then 0 else 1) + guesses a trace := by
    cases matched <;> simp [guesses, resets, wrong]
  constructor
  case isSet => exact fun _ => h.isSet nofun
  case unlocked => exact fun _ => hfree
  case byAdmin =>
    intro _ _ hl
    rw [hfree] at hl
    cases hl
  case counted =>
    rw [hguesses]
    split <;> omega
  case settled =>
    intro hpc
    -- the call is about to count a failure, unless the password matched
    cases matched with
    | false => exact absurd rfl hpc
    | true =>
      rw [hguesses, if_pos rfl, Nat.zero_add]
      exact h.settled nofun
  case few =>
    refine ⟨?_, h.few⟩
    rw [hguesses]
    unfold userMaxLoginAttempts at *
    split <;> omega
  case compared =>
    intro j m hmem
    rcases mem_cons.mp hmem with heq | hmem
    · rw [hfree] at heq
      cases heq
    · exact h.compared j m hmem
  case lockout =>
    intro T hl
    rw [hfree] at hl
    cases hl
  case failedSet =>
    exact h.failedSet

theorem Fits.miss (h : Fits kdf a (some (.update false)) user ticks trace) (k : Nat)
    (hroom : user.failedAttempts + 1 < 2 ^ 32) :
    Fits kdf a none (countFailure user (uptime ticks)) ticks
      (.returned k (some a) (-5) :: .counted a ticks :: trace) := by
  have hattempts : (countFailure user (uptime ticks)).failedAttempts = user.failedAttempts + 1 :=
    Nat.mod_eq_of_lt hroom
  have hlocked : (countFailure user (uptime ticks)).locked =
      (user.locked || decide (userMaxLoginAttempts ≤ user.failedAttempts + 1)) := by
    simp only [countFailure, Nat.mod_eq_of_lt hroom]
  have hguesses : guesses a (.returned k (some a) (-5) :: .counted a ticks :: trace) =
      guesses a trace := by
    simp [guesses, resets, wrong]
  have hadmin : underAdmin a (.returned k (some a) (-5) :: .counted a ticks :: trace) =
      underAdmin a trace := rfl
  have hlast : lastFailure a (.returned k (some a) (-5) :: .counted a ticks :: trace) =
      some ticks := by
    simp [lastFailure, resets]
  have hcounted := h.counted
  constructor
  case isSet => exact fun hne => absurd rfl hne
  case unlocked => rintro (hpc | hpc) <;> cases hpc
  case byAdmin =>
    intro _ hpc
    cases hpc
  case counted =>
    omega
  case settled =>
    intro _
    rw [hguesses, hattempts, hlocked]
    refine ⟨hcounted, fun _ hfree => ?_⟩
    have hlow := (Bool.or_eq_false_iff.mp hfree).2
    exact Nat.lt_of_not_le (of_decide_eq_false hlow)
  case few =>
    refine ⟨?_, ?_, h.few⟩
    · rw [hguesses]
      exact h.few.guesses_le
    · simpa [guesses, resets, wrong] using h.few.guesses_le
  case compared =>
    intro j m hmem
    rcases mem_cons.mp hmem with heq | hmem
    · cases heq
    · rcases mem_cons.mp hmem with heq | hmem
      · cases heq
      · exact h.compared j m hmem
  case lockout =>
    intro T hl hnoAdmin hT
    rw [hlast] at hT
    cases hT
    rw [hlocked] at hl
    rw [hadmin] at hnoAdmin
    refine ⟨?_, rfl, le_refl _, rfl⟩
    rcases Bool.or_eq_true_iff.mp hl with hl | hl
    · -- the account was locked before, which only an administrator can have done
      rw [h.byAdmin false rfl hl] at hnoAdmin
      cases hnoAdmin
    · rw [hattempts]
      exact of_decide_eq_true hl
  case failedSet => exact fun _ => h.isSet nofun

theorem Fits.lock (h : Fits kdf a inside user ticks trace)
    (hpc : inside ≠ some .active ∧ inside ≠ some .verify) :
    Fits kdf a inside { user with locked := true } ticks (.adminLocked a :: trace) := by
  have hguesses : guesses a (.adminLocked a :: trace) = guesses a trace := by
    simp [guesses, resets, wrong]
  have hadmin : underAdmin a (.adminLocked a :: trace) = true := by simp [underAdmin]
  constructor
  case isSet => exact h.isSet
  case unlocked =>
    rintro (hin | hin)
    · exact absurd hin hpc.1
    · exact absurd hin hpc.2
  case byAdmin => exact fun _ _ _ => hadmin
  case counted =>
    rw [hguesses]
    exact h.counted
  case settled =>
    intro hne
    rw [hguesses]
    exact ⟨(h.settled hne).1, nofun⟩
  case few =>
    refine ⟨?_, h.few⟩
    rw [hguesses]
    exact h.few.guesses_le
  case compared =>
    intro j m hmem
    rcases mem_cons.mp hmem with heq | hmem
    · cases heq
    · exact h.compared j m hmem
  case lockout =>
    intro T _ hnoAdmin
    rw [hadmin] at hnoAdmin
    cases hnoAdmin
  case failedSet =>
    intro hne
    apply h.failedSet
    simpa [lastFailure, resets] using hne

theorem Fits.tick (h : Fits kdf a inside user ticks trace) {n : Nat}
    (hclock : user.locked = true → (ticks + n) / 2 ^ 32 = ticks / 2 ^ 32) :
    Fits kdf a inside user (ticks + n) trace :=
  { h with
    lockout := fun T hl hnoAdmin hT => by
      obtain ⟨hmany, htime, hle, hepoch⟩ := h.lockout T hl hnoAdmin hT
      exact ⟨hmany, htime, by omega, hepoch.trans (hclock hl).symm⟩ }

end moves

/-! ## Runs without two calls at once -/

/-- The tests before the first mutex let a call go on. -/
def admitted (kdf : Kdf Hash) (user : Account Hash) (now : Nat) : Bool :=
  kdf.isSet user.passwordHash && (!user.locked || !lockHolds user now)

/-- The condition on a step, and on the state before it. -/
def Calm (kdf : Kdf Hash) (a : Index) (s : State Hash) : Event → Prop
  /- A call goes on only when no other call is inside the account. -/
  | .call (some username) (some _) => userFindByUsername s.users username = some a →
      admitted kdf (s.users a) (uptime s.ticks) = true → ∀ call ∈ s.calls, call.at a = none
  /- An administrator does not lock the account between a call's test and its comparison. -/
  | .lockAccount (some username) => userFindByUsername s.users username = some a →
      ∀ call ∈ s.calls, call.at a ≠ some .active ∧ call.at a ≠ some .verify
  /- The counter does not overflow. -/
  | .resume k => s.pcOf a k = some (.update false) → (s.users a).failedAttempts + 1 < 2 ^ 32
  /- The tick counter does not wrap around while the account is locked. -/
  | .tick n => (s.users a).locked = true → (s.ticks + n) / 2 ^ 32 = s.ticks / 2 ^ 32
  | _ => True

instance (kdf : Kdf Hash) (a : Index) (s : State Hash) : (e : Event) → Decidable (Calm kdf a s e)
  | .call (some _) (some _) => inferInstanceAs (Decidable (_ → _ → _))
  | .call (some _) none => .isTrue trivial
  | .call none _ => .isTrue trivial
  | .lockAccount (some _) => inferInstanceAs (Decidable (_ → _))
  | .lockAccount none => .isTrue trivial
  | .resume _ => inferInstanceAs (Decidable (_ → _))
  | .tick _ => inferInstanceAs (Decidable (_ → _))
  | .setPassword _ _ _ => .isTrue trivial
  | .unlockAccount _ => .isTrue trivial

/-- The invariant of one account. -/
def Throttled (kdf : Kdf Hash) (a : Index) (s : State Hash) : Prop :=
  ∃ inside, Inside a s inside ∧ Fits kdf a inside (s.users a) s.ticks s.trace

theorem Becomes.throttled {user : Account Hash} {pcs : Nat → Option Pc} {obs : List Obs} {n : Nat}
    {inside : Option Pc} (hb : Becomes a s s' user pcs obs n) (hin : Inside a s' inside)
    (hfits : Fits kdf a inside user (s.ticks + n) (obs ++ s.trace)) : Throttled kdf a s' := by
  refine ⟨inside, hin, ?_⟩
  rw [hb.user, hb.trace, hb.ticks]
  exact hfits

theorem Throttled.touch {e : Event} (h : Throttled kdf a s) (hcalm : Calm kdf a s e)
    (ht : Touch kdf a s e s') : Throttled kdf a s' := by
  obtain ⟨inside, hin, hfits⟩ := h
  cases ht with
  | away obs hobs hb =>
    refine hb.throttled (hin.same hb.pcs) ?_
    exact hfits.idle hobs
  | @enter u p pc _ hfind hset hpc hb =>
    have hadmitted : admitted kdf (s.users a) (uptime s.ticks) = true := by
      rcases hpc with ⟨_, hfree⟩ | ⟨_, hexpired⟩
      · simp [admitted, hset, hfree]
      · simp [admitted, hset, hexpired]
    have hnobody : ∀ k, s.pcOf a k = none := pcOf_of_forall (P := (· = none)) rfl (hcalm hfind hadmitted)
    have hinside : inside = none := by
      cases hin with
      | nobody _ => rfl
      | one hk _ =>
        rw [hnobody] at hk
        cases hk
    refine hb.throttled (Inside.enter hnobody hb.pcs) ?_
    subst hinside
    apply hfits.goto nofun (fun _ => hset)
    · intro hnext
      rcases hpc with ⟨_, hfree⟩ | ⟨rfl, _⟩
      · exact hfree
      · rcases hnext with hnext | hnext <;> cases hnext
    · rintro matched hnext
      cases hnext
      rcases hpc with ⟨hpc, _⟩ | ⟨hpc, _⟩ <;> cases hpc
  | expire hk hb =>
    obtain ⟨rfl, _⟩ := hin.eq hk
    refine hb.throttled (hin.move hk hb.pcs) ?_
    exact hfits.reset (by simp [resets]) (fun _ => hfits.isSet nofun) (fun _ => rfl)
  | pass hk hb =>
    obtain ⟨rfl, _⟩ := hin.eq hk
    refine hb.throttled (hin.move hk hb.pcs) ?_
    exact hfits.goto nofun (fun _ => hfits.isSet nofun) (fun _ => hfits.unlocked (.inl rfl)) nofun
  | @drop k _ hk hb =>
    obtain ⟨rfl, _⟩ := hin.eq hk
    refine hb.throttled (hin.move hk hb.pcs) ?_
    have hidle : (returned k (some a) (-4)).Idle a := fun _ => by decide
    refine Fits.idle_cons (hfits.goto nofun (absurd rfl) ?_ nofun) hidle
    rintro (hpc | hpc) <;> cases hpc
  | @compare k matched _ hk hb =>
    obtain ⟨rfl, _⟩ := hin.eq hk
    refine hb.throttled (hin.move hk hb.pcs) ?_
    exact hfits.compare k matched
  | @miss k _ hk hb =>
    obtain ⟨rfl, _⟩ := hin.eq hk
    refine hb.throttled (hin.move hk hb.pcs) ?_
    exact hfits.miss k (hcalm hk)
  | succeed hk hb =>
    refine hb.throttled (hin.move hk hb.pcs) ?_
    exact hfits.reset (by simp [resets]) (absurd rfl) (absurd rfl)
  | password hset hb =>
    refine hb.throttled (hin.same hb.pcs) ?_
    exact hfits.reset (by simp [resets]) (fun _ => hset) (fun _ => rfl)
  | lock hfind hb =>
    refine hb.throttled (hin.same hb.pcs) ?_
    apply hfits.lock
    cases hin with
    | nobody _ => exact ⟨nofun, nofun⟩
    | one hk _ =>
      rw [← hk]
      exact pcOf_of_forall (P := fun pc => pc ≠ some .active ∧ pc ≠ some .verify) ⟨nofun, nofun⟩
        (hcalm hfind) _
  | unlock hb =>
    refine hb.throttled (hin.same hb.pcs) ?_
    exact hfits.reset (by simp [resets]) hfits.isSet (fun _ => rfl)
  | tick hb =>
    refine hb.throttled (hin.same hb.pcs) ?_
    exact hfits.tick hcalm

def CalmStep (kdf : Kdf Hash) (a : Index) (s : State Hash) (e : Event) (s' : State Hash) : Prop :=
  Calm kdf a s e ∧ step kdf s e = some s'

/-- The invariant of a run, with what every run keeps. -/
def ThrottleSafe (kdf : Kdf Hash) (a : Index) (s : State Hash) : Prop :=
  Sound kdf s ∧ Throttled kdf a s

theorem ThrottleSafe.step {e : Event} (h : ThrottleSafe kdf a s) (hstep : CalmStep kdf a s e s') :
    ThrottleSafe kdf a s' := by
  obtain ⟨hsound, hinv⟩ := h
  obtain ⟨hcalm, hstep⟩ := hstep
  exact ⟨hsound.step hstep, hinv.touch hcalm (step_touch a hsound hstep)⟩

theorem throttleSafe_run {users : Index → Account Hash} {ticks : Nat} {events : List Event}
    (hrun : Run (CalmStep kdf a) (State.fresh users ticks) events s) : ThrottleSafe kdf a s :=
  hrun.invariant (fun _ _ _ h hstep => h.step hstep)
    ⟨sound_fresh users ticks, none, .nobody fun _ => rfl, fits_fresh _ ticks⟩

/-! ## The end of a lockout -/

/-- On a clock that has not wrapped around, the unsigned difference is the difference. -/
theorem elapsed_uptime {T ticks : Nat} (hle : T ≤ ticks) (hepoch : T / 2 ^ 32 = ticks / 2 ^ 32) :
    elapsed (uptime ticks) (uptime T) = uptime ticks - uptime T ∧ uptime T ≤ uptime ticks := by
  unfold elapsed uptime
  omega

theorem beginCall_locked {u p : Str} (hfind : userFindByUsername s.users u = some a)
    (hset : kdf.isSet (s.users a).passwordHash = true) (hlocked : (s.users a).locked = true) :
    beginCall kdf s (some u) (some p) =
      if lockHolds (s.users a) (uptime s.ticks) = true then s.refuse (some a) (-3)
      else s.enter (.running u p a .unlock) := by
  simp [beginCall, hfind, hset, hlocked]

/-- Whoever finds the lockout expired ends it with the next section. -/
theorem resume_unlock (kdf : Kdf Hash) (s : State Hash) (a : Index) (u p : Str) :
    ∃ s', step kdf (s.enter (.running u p a .unlock)) (.resume s.calls.length) = some s' ∧
      (s'.users a).locked = false ∧ (s'.users a).failedAttempts = 0 := by
  have hcall : (s.enter (.running u p a .unlock)).calls[s.calls.length]? =
      some (.running u p a .unlock) := by
    simp [State.enter]
  refine ⟨resumeCall kdf (s.enter (.running u p a .unlock)) s.calls.length u p a .unlock, ?_, ?_⟩
  · simp only [step, hcall]
  · have huser := users_setUser_self (s := s.enter (.running u p a .unlock)) (a := a)
      { s.users a with locked := false, failedAttempts := 0 }
    constructor
    · exact congrArg Account.locked huser
    · exact congrArg Account.failedAttempts huser

/-- In every run in which no two calls are inside the account at once: in a period without an
expiry, an unlock, a new password or a success, at most three wrong passwords are compared with the
account's hash; a call whose comparison ran while the account was locked does not succeed; and a
lockout that wrong passwords alone have caused refuses every call for a minute after the last one
that was counted, and is ended by the first call that comes later. -/
theorem wrong_passwords_are_throttled (kdf : Kdf Hash) (users : Index → Account Hash) (ticks : Nat)
    (a : Index) {events : List Event} {s : State Hash}
    (hrun : Run (CalmStep kdf a) (State.fresh users ticks) events s) :
    (∀ newer period older, s.trace = newer ++ (period ++ older) →
      (∀ o ∈ period, o.resets a = false) → period.countP (Obs.wrong a) ≤ userMaxLoginAttempts) ∧
    (∀ k matched code, .compared k a matched true ∈ s.trace →
      .returned k (some a) code ∈ s.trace → code < 0) ∧
    ∀ T, (s.users a).locked = true → underAdmin a s.trace = false →
      lastFailure a s.trace = some T →
      ∀ u p, userFindByUsername s.users u = some a →
        (uptime s.ticks < uptime T + userLockoutDuration →
          step kdf s (.call (some u) (some p)) = some (s.refuse (some a) (-3))) ∧
        (uptime T + userLockoutDuration ≤ uptime s.ticks →
          ∃ s₁ s₂, step kdf s (.call (some u) (some p)) = some s₁ ∧
            step kdf s₁ (.resume s.calls.length) = some s₂ ∧
            (s₂.users a).locked = false ∧ (s₂.users a).failedAttempts = 0) := by
  obtain ⟨_, inside, _, hfits⟩ := throttleSafe_run hrun
  refine ⟨?_, ?_, ?_⟩
  · intro newer period older htrace hperiod
    have hfew := hfits.few
    rw [htrace] at hfew
    exact hfew.period hperiod
  · intro k matched code hcompared _
    exact absurd hcompared (hfits.compared k matched)
  · intro T hlocked hadmin hT u p hfind
    obtain ⟨hmany, htime, hle, hepoch⟩ := hfits.lockout T hlocked hadmin hT
    have hset := hfits.failedSet (by rw [hT]; exact Option.some_ne_none T)
    obtain ⟨helapsed, hclock⟩ := elapsed_uptime hle hepoch
    have hbegin := beginCall_locked (p := p) hfind hset hlocked
    have hholds : lockHolds (s.users a) (uptime s.ticks) =
        decide (uptime s.ticks - uptime T < userLockoutDuration) := by
      rw [lockHolds, htime, helapsed, decide_eq_false (Nat.not_lt.mpr hmany), Bool.false_or]
    constructor
    · intro hearly
      rw [hholds, decide_eq_true (by omega), if_pos rfl] at hbegin
      exact congrArg some hbegin
    · intro hlate
      rw [hholds, decide_eq_false (by omega), if_neg Bool.false_ne_true] at hbegin
      obtain ⟨s₂, hs₂, hfree⟩ := resume_unlock kdf s a u p
      exact ⟨_, s₂, congrArg some hbegin, hs₂, hfree⟩

/-- Three wrong passwords, one after the other, lock the account. -/
def threeWrong : List Event :=
  attempt 0 [] ++ attempt 1 [] ++ attempt 2 []

theorem three_wrong_passwords_lock_the_account :
    ∃ s : State Str, Run (CalmStep plainKdf 0) (State.fresh oneUser 0) threeWrong s ∧
      (s.users 0).locked = true ∧ s.trace.countP (Obs.wrong 0) = 3 ∧
      (∀ o ∈ s.trace, o.resets 0 = false) ∧
      s.trace.countP (Obs.wrong 0) ≤ userMaxLoginAttempts := by
  have hend : (threeWrong.foldlM (fun s e => if Calm plainKdf 0 s e then step plainKdf s e else none)
      (State.fresh oneUser 0)).any (fun s => decide ((s.users 0).locked = true ∧
        s.trace.countP (wrong 0) = 3 ∧ ∀ o ∈ s.trace, o.resets 0 = false)) = true := by
    decide +kernel
  obtain ⟨s, hs, hfacts⟩ := (Option.any_eq_true ..).mp hend
  obtain ⟨hlocked, hcount, hperiod⟩ := of_decide_eq_true hfacts
  have hrun : Run (CalmStep plainKdf 0) (State.fresh oneUser 0) threeWrong s :=
    .of_foldlM_some_guarded hs
  refine ⟨s, hrun, hlocked, hcount, hperiod, ?_⟩
  apply (wrong_passwords_are_throttled plainKdf oneUser 0 0 hrun).1 [] s.trace [] _ hperiod
  simp

/-- Four calls pass the test of the flag before any of them has counted its failure. -/
def fourAtOnce : List Event :=
  List.replicate 4 (.call (some [114]) (some [])) ++
    [.resume 0, .resume 0, .resume 1, .resume 1, .resume 2, .resume 2, .resume 3, .resume 3]

theorem four_calls_at_once_are_all_compared :
    ∃ s : State Str,
      Run (fun s e s' => step plainKdf s e = some s') (State.fresh oneUser 0) fourAtOnce s ∧
      (∀ o ∈ s.trace, o.resets 0 = false) ∧
      userMaxLoginAttempts < s.trace.countP (Obs.wrong 0) := by
  have hend : (fourAtOnce.foldlM (step plainKdf) (State.fresh oneUser 0)).any
      (fun s => decide ((∀ o ∈ s.trace, o.resets 0 = false) ∧
        userMaxLoginAttempts < s.trace.countP (wrong 0))) = true := by
    decide +kernel
  obtain ⟨s, hs, hfacts⟩ := (Option.any_eq_true ..).mp hend
  exact ⟨s, Run.of_foldlM_some hs, of_decide_eq_true hfacts⟩

end TinyOS.User
