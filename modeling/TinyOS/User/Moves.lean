import TinyOS.User.Account

/-!
# What a step does to one account

`Touch` lists, for one account, everything a step of the system can do to its record, to the calls
that are inside it and to the history. The properties of an account are proved over this list and
no longer look at the code.
-/

namespace TinyOS.User

open Function List State

variable {Hash : Type} {kdf : Kdf Hash} {s s' : State Hash} {a i : Index} {k : Nat}

/-! ## The calls on one account -/

/-- Where the call is, if it runs on this account. -/
def Call.at (a : Index) : Call → Option Pc
  | .running _ _ i pc => if i = a then some pc else none
  | .returned _ => none

def State.pcOf (a : Index) (s : State Hash) (k : Nat) : Option Pc :=
  s.calls[k]?.bind (Call.at a)

@[simp] theorem Call.at_self (u p : Str) (a : Index) (pc : Pc) :
    Call.at a (.running u p a pc) = some pc := if_pos rfl

theorem Call.at_ne (u p : Str) (h : i ≠ a) (pc : Pc) : Call.at a (.running u p i pc) = none :=
  if_neg h

@[simp] theorem Call.at_returned (code : Int) : Call.at a (.returned code) = none := rfl

@[simp] theorem pcOf_say (o : Obs) : (s.say o).pcOf a = s.pcOf a := rfl

theorem pcOf_new : s.pcOf a s.calls.length = none := by
  simp [pcOf]

theorem pcOf_enter (call : Call) :
    (s.enter call).pcOf a = update (s.pcOf a) s.calls.length (call.at a) := by
  funext j
  rcases Nat.lt_trichotomy j s.calls.length with h | rfl | h
  · rw [update_of_ne h.ne]
    simp [pcOf, enter, getElem?_append_left h]
  · simp [pcOf, enter]
  · rw [update_of_ne h.ne']
    have hnew : (s.calls ++ [call])[j]? = none := by
      apply getElem?_eq_none
      rw [length_append, length_singleton]
      exact h
    have hold : s.calls[j]? = none := getElem?_eq_none h.le
    simp [pcOf, enter, hnew, hold]

theorem pcOf_setCall (hk : k < s.calls.length) (call : Call) :
    (s.setCall k call).pcOf a = update (s.pcOf a) k (call.at a) := by
  funext j
  by_cases h : j = k
  · subst h
    simp [pcOf, setCall, hk]
  · rw [update_of_ne h]
    simp [pcOf, setCall, getElem?_set_ne (Ne.symm h)]

/-- A call that is on no account, before and after, is not seen. -/
theorem update_none {f : Nat → Option Pc} (h : f k = none) : update f k none = f := by
  rw [← h, update_eq_self]

theorem pcOf_refuse (account : Option Index) (code : Int) :
    (s.refuse account code).pcOf a = s.pcOf a := by
  rw [refuse, pcOf_say, pcOf_enter, Call.at_returned, update_none pcOf_new]

theorem pcOf_leave (hk : k < s.calls.length) (account : Index) (code : Int) :
    (s.leave k account code).pcOf a = update (s.pcOf a) k none := by
  rw [leave, pcOf_say, pcOf_setCall hk, Call.at_returned]

/-- A property of all calls holds of what is seen of the account. -/
theorem pcOf_of_forall {P : Option Pc → Prop} (hnone : P none)
    (h : ∀ call ∈ s.calls, P (call.at a)) (k : Nat) : P (s.pcOf a k) := by
  rcases hk : s.calls[k]? with _ | call
  · rw [pcOf, hk]
    exact hnone
  · rw [pcOf, hk]
    exact h call (mem_of_getElem? hk)

theorem users_setUser_self (user : Account Hash) : (s.setUser a user).users a = user := by
  simp [setUser]

theorem users_setUser_ne (h : i ≠ a) (user : Account Hash) :
    (s.setUser i user).users a = s.users a := by
  simp [setUser, Ne.symm h]

/-! ## A call keeps its account -/

/-- What a call knows of its account behind the tests: the name leads there, and a password is
set. -/
structure Sound (kdf : Kdf Hash) (s : State Hash) : Prop where
  calls : ∀ (k : Nat) (u p : Str) (i : Index) (pc : Pc), s.calls[k]? = some (Call.running u p i pc) →
    userFindByUsername s.users u = some i ∧ kdf.isSet (s.users i).passwordHash = true

/-- The new record belongs to the same user, and has a password if the old one had. -/
structure SameUser (kdf : Kdf Hash) (old new : Account Hash) : Prop where
  inUse : new.inUse = old.inUse
  username : new.username = old.username
  isSet : kdf.isSet old.passwordHash = true → kdf.isSet new.passwordHash = true

theorem userFindByUsername_setUser {user : Account Hash} (h : SameUser kdf (s.users i) user)
    (name : Str) :
    userFindByUsername (s.setUser i user).users name = userFindByUsername s.users name := by
  unfold userFindByUsername
  congr 1
  funext j
  by_cases hj : i = j
  · subst hj
    rw [users_setUser_self, h.inUse, h.username]
  · rw [users_setUser_ne hj]

variable (h : Sound kdf s)

include h

theorem Sound.setUser {user : Account Hash} (hu : SameUser kdf (s.users i) user) :
    Sound kdf (s.setUser i user) where
  calls k u p j pc hk := by
    obtain ⟨hfind, hset⟩ := h.calls k u p j pc hk
    rw [userFindByUsername_setUser hu]
    refine ⟨hfind, ?_⟩
    by_cases hj : i = j
    · subst hj
      rw [users_setUser_self]
      exact hu.isSet hset
    · rw [users_setUser_ne hj]
      exact hset

theorem Sound.say (o : Obs) : Sound kdf (s.say o) :=
  ⟨h.calls⟩

variable {call : Call} (hc : ∀ u p i pc, call = .running u p i pc →
  userFindByUsername s.users u = some i ∧ kdf.isSet (s.users i).passwordHash = true)

include hc

theorem Sound.enter : Sound kdf (s.enter call) where
  calls k u p i pc hk := by
    have hk' : (s.calls ++ [call])[k]? = some (Call.running u p i pc) := hk
    rw [getElem?_append] at hk'
    split at hk'
    · exact h.calls k u p i pc hk'
    · apply hc u p i pc
      rw [getElem?_singleton] at hk'
      split at hk'
      · exact Option.some.inj hk'
      · cases hk'

theorem Sound.setCall : Sound kdf (s.setCall k call) where
  calls j u p i pc hj := by
    have hj' : (s.calls.set k call)[j]? = some (Call.running u p i pc) := hj
    rw [getElem?_set] at hj'
    split at hj'
    · split at hj'
      · exact hc u p i pc (Option.some.inj hj')
      · cases hj'
    · exact h.calls j u p i pc hj'

omit hc

theorem Sound.refuse (account : Option Index) (code : Int) : Sound kdf (s.refuse account code) :=
  (h.enter fun _ _ _ _ hc => by cases hc).say _

theorem Sound.leave (account : Index) (code : Int) : Sound kdf (s.leave k account code) :=
  (h.setCall fun _ _ _ _ hc => by cases hc).say _

omit h in
theorem sound_fresh (users : Index → Account Hash) (ticks : Nat) :
    Sound kdf (State.fresh users ticks) where
  calls k u p i pc hk := by cases hk

theorem beginCall_sound (username password : Option Str) :
    Sound kdf (beginCall kdf s username password) := by
  unfold beginCall
  split
  · rename_i u p
    split
    · exact h.refuse _ _
    rename_i i hfind
    split
    · exact h.refuse _ _
    rename_i hset
    have hknown : ∀ u' p' i' pc pc', Call.running u p i pc = .running u' p' i' pc' →
        userFindByUsername s.users u' = some i' ∧
          kdf.isSet (s.users i').passwordHash = true := by
      rintro u' p' i' pc pc' heq
      cases heq
      exact ⟨hfind, by simpa using hset⟩
    split
    · split
      · exact h.refuse _ _
      · exact h.enter fun u' p' i' pc' => hknown u' p' i' _ pc'
    · exact h.enter fun u' p' i' pc' => hknown u' p' i' _ pc'
  · exact h.refuse _ _

variable {p u : Str}

theorem resumeCall_sound {pc : Pc} (hk : s.calls[k]? = some (.running u p i pc)) :
    Sound kdf (resumeCall kdf s k u p i pc) := by
  obtain ⟨hfind, hset⟩ := h.calls k u p i pc hk
  have hknown : ∀ u' p' i' pc pc', Call.running u p i pc = .running u' p' i' pc' →
      userFindByUsername s.users u' = some i' ∧ kdf.isSet (s.users i').passwordHash = true := by
    rintro u' p' i' pc pc' heq
    cases heq
    exact ⟨hfind, hset⟩
  cases pc with
  | unlock =>
    have hsame : SameUser kdf (s.users i) { s.users i with locked := false, failedAttempts := 0 } :=
      ⟨rfl, rfl, id⟩
    refine Sound.say (Sound.setCall (h.setUser hsame) ?_) _
    rintro u' p' i' pc' heq
    cases heq
    rw [userFindByUsername_setUser hsame, users_setUser_self]
    exact ⟨hfind, hset⟩
  | active =>
    simp only [resumeCall]
    split
    · exact h.leave _ _
    · exact h.setCall fun u' p' i' pc' => hknown u' p' i' _ pc'
  | verify =>
    simp only [resumeCall]
    split
    · exact h.setCall fun u' p' i' pc' => hknown u' p' i' _ pc'
    · exact (h.setCall fun u' p' i' pc' => hknown u' p' i' _ pc').say _
  | update matched =>
    cases matched with
    | false =>
      have hsame : SameUser kdf (s.users i) (countFailure (s.users i) (uptime s.ticks)) :=
        ⟨rfl, rfl, id⟩
      exact ((h.setUser hsame).say _).leave _ _
    | true =>
      refine Sound.leave (h.setUser ?_) _ _
      exact ⟨rfl, rfl, id⟩

theorem Sound.step {e : Event} (hs : step kdf s e = some s') : Sound kdf s' := by
  cases e with
  | call username password =>
    cases hs
    exact beginCall_sound h username password
  | resume k =>
    simp only [User.step] at hs
    split at hs
    · rename_i u p i pc hk
      cases hs
      exact resumeCall_sound h hk
    · cases hs
  | setPassword uid password salt =>
    cases hs
    unfold userSetPassword
    split
    · exact h
    · exact h
    · split
      · exact h
      · refine Sound.say (h.setUser ?_) _
        exact ⟨rfl, rfl, fun _ => kdf.hashPassword_isSet _ _⟩
  | lockAccount username =>
    cases hs
    unfold userLockAccount
    split
    · exact h
    · refine Sound.say (h.setUser ?_) _
      exact ⟨rfl, rfl, id⟩
  | unlockAccount username =>
    cases hs
    unfold userUnlockAccount
    split
    · exact h
    · refine Sound.say (h.setUser ?_) _
      exact ⟨rfl, rfl, id⟩
  | tick n =>
    cases hs
    exact ⟨h.calls⟩

omit h

/-! ## The list of moves -/

/-- The step leaves the account with this record and these calls, adds these observations to the
history, and lets the timer tick `n` times. -/
structure Becomes (a : Index) (s s' : State Hash) (user : Account Hash) (pcs : Nat → Option Pc)
    (obs : List Obs) (n : Nat) : Prop where
  user : s'.users a = user
  pcs : s'.pcOf a = pcs
  trace : s'.trace = obs ++ s.trace
  ticks : s'.ticks = s.ticks + n

/-- Says nothing of the account, or only that a call on it was refused. -/
def Obs.Idle (a : Index) : Obs → Prop
  | .adminLocked i => i ≠ a
  | .adminUnlocked i => i ≠ a
  | .passwordSet i => i ≠ a
  | .expired i => i ≠ a
  | .compared _ i _ _ => i ≠ a
  | .counted i _ => i ≠ a
  | .returned _ account code => account = some a → code < 0

/-- What a step can do to account `a`. -/
inductive Touch (kdf : Kdf Hash) (a : Index) (s : State Hash) : Event → State Hash → Prop
  | away {e : Event} {s' : State Hash} (obs : List Obs) (hobs : ∀ o ∈ obs, o.Idle a)
      (h : Becomes a s s' (s.users a) (s.pcOf a) obs 0) : Touch kdf a s e s'
  | enter {u p : Str} {pc : Pc} {s' : State Hash} (hfind : userFindByUsername s.users u = some a)
      (hset : kdf.isSet (s.users a).passwordHash = true)
      (hpc : pc = .active ∧ (s.users a).locked = false ∨
        pc = .unlock ∧ lockHolds (s.users a) (uptime s.ticks) = false)
      (h : Becomes a s s' (s.users a)
        (update (s.pcOf a) s.calls.length (some pc)) [] 0) :
      Touch kdf a s (.call (some u) (some p)) s'
  | expire {k : Nat} {s' : State Hash} (hk : s.pcOf a k = some .unlock)
      (h : Becomes a s s' { s.users a with locked := false, failedAttempts := 0 }
        (update (s.pcOf a) k (some .active)) [.expired a] 0) :
      Touch kdf a s (.resume k) s'
  | pass {k : Nat} {s' : State Hash} (hk : s.pcOf a k = some .active)
      (h : Becomes a s s' (s.users a) (update (s.pcOf a) k (some .verify)) [] 0) :
      Touch kdf a s (.resume k) s'
  | drop {k : Nat} {s' : State Hash} (hk : s.pcOf a k = some .active)
      (h : Becomes a s s' (s.users a) (update (s.pcOf a) k none)
        [.returned k (some a) (-4)] 0) :
      Touch kdf a s (.resume k) s'
  | compare {k : Nat} {matched : Bool} {s' : State Hash} (hk : s.pcOf a k = some .verify)
      (h : Becomes a s s' (s.users a) (update (s.pcOf a) k (some (.update matched)))
        [.compared k a matched (s.users a).locked] 0) :
      Touch kdf a s (.resume k) s'
  | miss {k : Nat} {s' : State Hash} (hk : s.pcOf a k = some (.update false))
      (h : Becomes a s s' (countFailure (s.users a) (uptime s.ticks))
        (update (s.pcOf a) k none)
        [.returned k (some a) (-5), .counted a s.ticks] 0) :
      Touch kdf a s (.resume k) s'
  | succeed {k : Nat} {s' : State Hash} (hk : s.pcOf a k = some (.update true))
      (h : Becomes a s s' { s.users a with failedAttempts := 0 } (update (s.pcOf a) k none)
        [.returned k (some a) (s.users a).uid.toNat] 0) :
      Touch kdf a s (.resume k) s'
  | password {uid : UInt16} {password : Option Str} {hash : Hash} {salt : Nat} {s' : State Hash}
      (hset : kdf.isSet hash = true)
      (h : Becomes a s s'
        { s.users a with
          passwordHash := hash
          locked := false
          active := true } (s.pcOf a) [.passwordSet a] 0) :
      Touch kdf a s (.setPassword uid password salt) s'
  | lock {u : Str} {s' : State Hash} (hfind : userFindByUsername s.users u = some a)
      (h : Becomes a s s' { s.users a with locked := true } (s.pcOf a) [.adminLocked a] 0) :
      Touch kdf a s (.lockAccount (some u)) s'
  | unlock {username : Option Str} {s' : State Hash}
      (h : Becomes a s s' { s.users a with locked := false, failedAttempts := 0 } (s.pcOf a)
        [.adminUnlocked a] 0) :
      Touch kdf a s (.unlockAccount username) s'
  | tick {n : Nat} {s' : State Hash} (h : Becomes a s s' (s.users a) (s.pcOf a) [] n) :
      Touch kdf a s (.tick n) s'

theorem touch_refuse {e : Event} (account : Option Index) {code : Int} (hcode : code < 0) :
    Touch kdf a s e (s.refuse account code) := by
  refine .away [.returned s.calls.length account code] ?_ ⟨rfl, pcOf_refuse account code, rfl, rfl⟩
  intro o ho
  rw [mem_singleton] at ho
  subst ho
  exact fun _ => hcode

theorem touch_enter {pc : Pc} (hfind : userFindByUsername s.users u = some i)
    (hset : kdf.isSet (s.users i).passwordHash = true)
    (hpc : pc = .active ∧ (s.users i).locked = false ∨
      pc = .unlock ∧ lockHolds (s.users i) (uptime s.ticks) = false) :
    Touch kdf a s (.call (some u) (some p)) (s.enter (.running u p i pc)) := by
  by_cases h : i = a
  · subst h
    refine .enter hfind hset hpc ⟨rfl, ?_, rfl, rfl⟩
    rw [pcOf_enter, Call.at_self]
  · refine .away [] (fun o ho => by cases ho) ⟨rfl, ?_, rfl, rfl⟩
    rw [pcOf_enter, Call.at_ne u p h, update_none pcOf_new]

theorem beginCall_touch (username password : Option Str) :
    Touch kdf a s (.call username password) (beginCall kdf s username password) := by
  unfold beginCall
  split
  · split
    · exact touch_refuse none (by decide)
    rename_i i hfind
    split
    · exact touch_refuse (some i) (by decide)
    rename_i hset
    rw [Bool.not_eq_false] at hset
    split
    · split
      · exact touch_refuse (some i) (by decide)
      · rename_i hholds
        exact touch_enter hfind hset (.inr ⟨rfl, Bool.not_eq_true _ ▸ hholds⟩)
    · rename_i hlocked
      exact touch_enter hfind hset (.inl ⟨rfl, Bool.not_eq_true _ ▸ hlocked⟩)
  · exact touch_refuse none (by decide)

/-! ### Sections of a call -/

theorem pcOf_running {pc : Pc} (hk : s.calls[k]? = some (.running u p a pc)) :
    s.pcOf a k = some pc := by
  rw [pcOf, hk]
  exact Call.at_self u p a pc

theorem pcOf_elsewhere {pc : Pc} (hk : s.calls[k]? = some (.running u p i pc))
    (h : i ≠ a) : s.pcOf a k = none := by
  rw [pcOf, hk]
  exact Call.at_ne u p h pc

theorem pcOf_setCall_elsewhere (hlen : k < s.calls.length) (hk : s.pcOf a k = none) (h : i ≠ a)
    (u p : Str) (pc : Pc) : (s.setCall k (.running u p i pc)).pcOf a = s.pcOf a := by
  rw [pcOf_setCall hlen, Call.at_ne u p h, update_none hk]

theorem pcOf_leave_elsewhere (hlen : k < s.calls.length) (hk : s.pcOf a k = none) (code : Int) :
    (s.leave k i code).pcOf a = s.pcOf a := by
  rw [pcOf_leave hlen, update_none hk]

theorem userVerifyPassword_found (hfind : userFindByUsername s.users u = some i)
    (hset : kdf.isSet (s.users i).passwordHash = true) (p : Str) :
    userVerifyPassword kdf s u p = (some i, kdf.verify (s.users i).passwordHash p) := by
  simp [userVerifyPassword, hfind, hset]

theorem resumeCall_elsewhere (hs : Sound kdf s) {pc : Pc} {e : Event}
    (hk : s.calls[k]? = some (.running u p i pc)) (h : i ≠ a) :
    Touch kdf a s e (resumeCall kdf s k u p i pc) := by
  have hpc : s.pcOf a k = none := pcOf_elsewhere hk h
  have hlen : k < s.calls.length := (List.getElem?_eq_some_iff.mp hk).1
  have hleft : ∀ code, (Obs.returned k (some i) code).Idle a :=
    fun code heq => absurd (Option.some.inj heq) h
  cases pc with
  | unlock =>
    refine .away [.expired i] (forall_mem_singleton.mpr h)
      ⟨users_setUser_ne h _, ?_, rfl, rfl⟩
    exact pcOf_setCall_elsewhere (s := s.setUser i _) hlen hpc h u p .active
  | active =>
    simp only [resumeCall]
    split
    · exact .away [.returned k (some i) (-4)] (forall_mem_singleton.mpr (hleft _))
        ⟨rfl, pcOf_leave_elsewhere hlen hpc _, rfl, rfl⟩
    · exact .away [] (fun o ho => by cases ho)
        ⟨rfl, pcOf_setCall_elsewhere hlen hpc h u p .verify, rfl, rfl⟩
  | verify =>
    obtain ⟨hfind, hset⟩ := hs.calls k u p i .verify hk
    simp only [resumeCall, userVerifyPassword_found hfind hset]
    exact .away [.compared k i _ _] (forall_mem_singleton.mpr h)
      ⟨rfl, pcOf_setCall_elsewhere hlen hpc h u p _, rfl, rfl⟩
  | update matched =>
    cases matched with
    | false =>
      refine .away [.returned k (some i) (-5), .counted i s.ticks] ?_
        ⟨users_setUser_ne h _, ?_, rfl, rfl⟩
      · exact forall_mem_cons.mpr ⟨hleft _, forall_mem_singleton.mpr h⟩
      · exact pcOf_leave_elsewhere (s := (s.setUser i _).say _) hlen hpc _
    | true =>
      refine .away [.returned k (some i) _] (forall_mem_singleton.mpr (hleft _))
        ⟨users_setUser_ne h _, ?_, rfl, rfl⟩
      exact pcOf_leave_elsewhere (s := s.setUser i _) hlen hpc _

theorem resumeCall_here (hs : Sound kdf s) {pc : Pc} (hk : s.calls[k]? = some (.running u p a pc)) :
    Touch kdf a s (.resume k) (resumeCall kdf s k u p a pc) := by
  have hpc : s.pcOf a k = some pc := pcOf_running hk
  have hlen : k < s.calls.length := (List.getElem?_eq_some_iff.mp hk).1
  have hnext : ∀ (s : State Hash) (pc' : Pc), k < s.calls.length →
      (s.setCall k (.running u p a pc')).pcOf a = update (s.pcOf a) k (some pc') :=
    fun s pc' hlen => by rw [pcOf_setCall hlen, Call.at_self]
  cases pc with
  | unlock => exact .expire hpc ⟨users_setUser_self _, hnext (s.setUser a _) _ hlen, rfl, rfl⟩
  | active =>
    simp only [resumeCall]
    split
    · exact .drop hpc ⟨rfl, pcOf_leave hlen _ _, rfl, rfl⟩
    · exact .pass hpc ⟨rfl, hnext s _ hlen, rfl, rfl⟩
  | verify =>
    obtain ⟨hfind, hset⟩ := hs.calls k u p a .verify hk
    simp only [resumeCall, userVerifyPassword_found hfind hset]
    exact .compare hpc ⟨rfl, hnext s _ hlen, rfl, rfl⟩
  | update matched =>
    cases matched with
    | false =>
      exact .miss hpc ⟨users_setUser_self _, pcOf_leave (s := (s.setUser a _).say _) hlen _ _,
        rfl, rfl⟩
    | true =>
      exact .succeed hpc ⟨users_setUser_self _, pcOf_leave (s := s.setUser a _) hlen _ _, rfl, rfl⟩

/-! ### Administration -/

theorem touch_setUser_elsewhere {e : Event} {o : Obs} (h : i ≠ a) (user : Account Hash)
    (ho : o.Idle a) : Touch kdf a s e ((s.setUser i user).say o) :=
  .away [o] (forall_mem_singleton.mpr ho) ⟨users_setUser_ne h user, rfl, rfl, rfl⟩

theorem touch_none {e : Event} : Touch kdf a s e s :=
  .away [] (fun o ho => by cases ho) ⟨rfl, rfl, rfl, rfl⟩

theorem userSetPassword_touch (uid : UInt16) (password : Option Str) (salt : Nat) :
    Touch kdf a s (.setPassword uid password salt) (userSetPassword kdf s uid password salt) := by
  unfold userSetPassword
  split
  · exact touch_none
  · exact touch_none
  · split
    · exact touch_none
    rename_i i _
    by_cases h : i = a
    · subst h
      exact .password (kdf.hashPassword_isSet _ _) ⟨users_setUser_self _, rfl, rfl, rfl⟩
    · exact touch_setUser_elsewhere h _ h

theorem userLockAccount_touch (username : Option Str) :
    Touch kdf a s (.lockAccount username) (userLockAccount s username) := by
  unfold userLockAccount
  split
  · exact touch_none
  rename_i i hfind
  obtain ⟨u, rfl, hfind⟩ := Option.bind_eq_some_iff.mp hfind
  by_cases h : i = a
  · subst h
    exact .lock hfind ⟨users_setUser_self _, rfl, rfl, rfl⟩
  · exact touch_setUser_elsewhere h _ h

theorem userUnlockAccount_touch (username : Option Str) :
    Touch kdf a s (.unlockAccount username) (userUnlockAccount s username) := by
  unfold userUnlockAccount
  split
  · exact touch_none
  rename_i i _
  by_cases h : i = a
  · subst h
    exact .unlock ⟨users_setUser_self _, rfl, rfl, rfl⟩
  · exact touch_setUser_elsewhere h _ h

theorem step_touch (a : Index) (hs : Sound kdf s) {e : Event} (h : step kdf s e = some s') :
    Touch kdf a s e s' := by
  cases e with
  | call username password =>
    cases h
    exact beginCall_touch username password
  | resume k =>
    simp only [step] at h
    split at h
    · rename_i u p i pc hk
      cases h
      by_cases hi : i = a
      · subst hi
        exact resumeCall_here hs hk
      · exact resumeCall_elsewhere hs hk hi
    · cases h
  | setPassword uid password salt =>
    cases h
    exact userSetPassword_touch uid password salt
  | lockAccount username =>
    cases h
    exact userLockAccount_touch username
  | unlockAccount username =>
    cases h
    exact userUnlockAccount_touch username
  | tick n =>
    cases h
    exact .tick ⟨rfl, rfl, rfl, rfl⟩

end TinyOS.User
