import Mathlib.Algebra.Ring.Nat
import Mathlib.Tactic.DeriveFintype
import TinyOS.Lib.Run

/-!
# User accounts: passwords, locks and the lockout

`user.c` keeps 32 accounts. One flag, `USER_FLAG_LOCKED`, says that an account is locked by an
administrator (`user_lock_account`) and also that too many wrong passwords were given; the two are
told apart by the failure counter.

`user_authenticate_for` is not one critical section. It looks the account up and tests the flags
without the mutex, takes the mutex to end a lockout that has expired, takes it again to compare the
password, and once more to update the counter. Other calls run in between. A call is therefore a
program counter, and the system moves by one such section at a time.
-/

namespace TinyOS.User

/-- A C string: its bytes before the terminating zero. -/
abbrev Str := List UInt8

def userMaxUsers : Nat := 32

instance : NeZero userMaxUsers := ⟨by decide⟩

def userMaxLoginAttempts : Nat := 3
/-- In seconds. -/
def userLockoutDuration : Nat := 60

/-- `&user_database[i]`. -/
abbrev Index := Fin userMaxUsers

/-- The password hash: what `user_hash_password` writes for a salt and a password, and what
`user_verify_password_locked` answers for the stored field. -/
structure Kdf (Hash : Type) where
  hashPassword : Nat → Str → Hash
  /-- The first byte of the field is not zero. -/
  isSet : Hash → Bool
  verify : Hash → Str → Bool
  /-- The text starts with a dollar sign. -/
  hashPassword_isSet : ∀ salt password, isSet (hashPassword salt password) = true

/-- `user_account_t`; of the flags, those that the modelled functions read or write. -/
structure Account (Hash : Type) where
  inUse : Bool
  username : Str
  uid : UInt16
  passwordHash : Hash
  /-- `USER_FLAG_ACTIVE`. -/
  active : Bool
  /-- `USER_FLAG_LOCKED`. -/
  locked : Bool
  failedAttempts : Nat
  lastFailedTime : Nat

variable {Hash : Type}

/-! ## Lookup -/

def userFindByUid (users : Index → Account Hash) (uid : UInt16) : Option Index :=
  (List.finRange userMaxUsers).find? fun i => (users i).inUse && (users i).uid == uid

def userFindByUsername (users : Index → Account Hash) (username : Str) : Option Index :=
  (List.finRange userMaxUsers).find? fun i => (users i).inUse && (users i).username == username

/-! ## Time -/

/-- `time_get_uptime_seconds`, when the timer has ticked this often since boot. The tick counter
has 32 bits; there are 100 ticks in a second. -/
def uptime (ticks : Nat) : Nat :=
  ticks % 2 ^ 32 / 100

/-- `current_time - last_failed_time`, on `uint32_t`. -/
def elapsed (current last : Nat) : Nat :=
  (current + 2 ^ 32 - last) % 2 ^ 32

/-! ## The system -/

/-- Where a call of `user_authenticate_for` is. -/
inductive Pc
  /-- The lockout was found to have expired; the call is about to end it. -/
  | unlock
  /-- About to test `USER_FLAG_ACTIVE`. -/
  | active
  /-- About to call `user_verify_password`. -/
  | verify
  /-- The password was compared; about to update the counter. -/
  | update (matched : Bool)
  deriving DecidableEq, Repr

inductive Call
  /-- The call holds a pointer to the account. -/
  | running (username password : Str) (account : Index) (pc : Pc)
  | returned (code : Int)
  deriving DecidableEq, Repr

/-- What happened, as far as the properties of a history speak of it. -/
inductive Obs
  /-- `user_lock_account` locked the account. -/
  | adminLocked (i : Index)
  /-- `user_unlock_account` unlocked the account. -/
  | adminUnlocked (i : Index)
  /-- `user_set_password` completed. -/
  | passwordSet (i : Index)
  /-- A call ended the account's lockout, because it had expired. -/
  | expired (i : Index)
  /-- The call compared its password with the account's hash. -/
  | compared (call : Nat) (i : Index) (matched whileLocked : Bool)
  /-- A wrong password was counted, at this tick. -/
  | counted (i : Index) (ticks : Nat)
  /-- The call on this account returned. -/
  | returned (call : Nat) (account : Option Index) (code : Int)
  deriving DecidableEq, Repr

structure State (Hash : Type) where
  users : Index → Account Hash
  /-- Timer ticks since boot. -/
  ticks : Nat
  /-- The calls of `user_authenticate_for`, in the order in which they began. -/
  calls : List Call
  /-- What happened, newest first. -/
  trace : List Obs

namespace State

def setUser (s : State Hash) (i : Index) (user : Account Hash) : State Hash :=
  { s with users := Function.update s.users i user }

def say (s : State Hash) (o : Obs) : State Hash :=
  { s with trace := o :: s.trace }

/-- A call begins and goes as far as its first mutex. -/
def enter (s : State Hash) (call : Call) : State Hash :=
  { s with calls := s.calls ++ [call] }

/-- A call begins and is refused. -/
def refuse (s : State Hash) (account : Option Index) (code : Int) : State Hash :=
  (s.enter (.returned code)).say (.returned s.calls.length account code)

def setCall (s : State Hash) (k : Nat) (call : Call) : State Hash :=
  { s with calls := s.calls.set k call }

/-- Call `k`, which is on this account, returns. -/
def leave (s : State Hash) (k : Nat) (account : Index) (code : Int) : State Hash :=
  (s.setCall k (.returned code)).say (.returned k (some account) code)

end State

/-! ## `user_authenticate_for` -/

/-- The account is locked, and this is not a lockout that has expired. -/
def lockHolds (user : Account Hash) (now : Nat) : Bool :=
  decide (user.failedAttempts < userMaxLoginAttempts) ||
    decide (elapsed now user.lastFailedTime < userLockoutDuration)

variable (kdf : Kdf Hash)

/-- The lookup and the tests before the first mutex. -/
def beginCall (s : State Hash) : Option Str → Option Str → State Hash
  | some username, some password =>
    match userFindByUsername s.users username with
    | none => s.refuse none (-2)
    | some i =>
      if kdf.isSet (s.users i).passwordHash = false then s.refuse (some i) (-6)
      else if (s.users i).locked = true then
        if lockHolds (s.users i) (uptime s.ticks) = true then s.refuse (some i) (-3)
        else s.enter (.running username password i .unlock)
      else s.enter (.running username password i .active)
  | _, _ => s.refuse none (-1)

/-- `user_verify_password`: the account whose hash was compared, and the answer. -/
def userVerifyPassword (s : State Hash) (username password : Str) : Option Index × Bool :=
  match userFindByUsername s.users username with
  | none => (none, false)
  | some i =>
    if kdf.isSet (s.users i).passwordHash = false then (none, false)
    else (some i, kdf.verify (s.users i).passwordHash password)

/-- A wrong password is counted, and the account locked after too many. -/
def countFailure (user : Account Hash) (now : Nat) : Account Hash :=
  let attempts := (user.failedAttempts + 1) % 2 ^ 32
  { user with
    failedAttempts := attempts
    lastFailedTime := now
    locked := user.locked || decide (userMaxLoginAttempts ≤ attempts) }

/-- The next section of call `k`. -/
def resumeCall (s : State Hash) (k : Nat) (username password : Str) (i : Index) : Pc → State Hash
  | .unlock =>
    ((s.setUser i { s.users i with locked := false, failedAttempts := 0 }).setCall k
      (.running username password i .active)).say (.expired i)
  | .active =>
    if (s.users i).active = false then s.leave k i (-4)
    else s.setCall k (.running username password i .verify)
  | .verify =>
    match userVerifyPassword kdf s username password with
    | (none, matched) => s.setCall k (.running username password i (.update matched))
    | (some j, matched) =>
      (s.setCall k (.running username password i (.update matched))).say
        (.compared k j matched (s.users j).locked)
  | .update false =>
    ((s.setUser i (countFailure (s.users i) (uptime s.ticks))).say (.counted i s.ticks)).leave k i
      (-5)
  | .update true =>
    (s.setUser i { s.users i with failedAttempts := 0 }).leave k i (s.users i).uid.toNat

/-! ## Administration -/

/-- `user_set_password`; the salt is what the generator gave. -/
def userSetPassword (s : State Hash) (uid : UInt16) (password : Option Str) (salt : Nat) :
    State Hash :=
  match password with
  | none => s
  | some [] => s
  | some password =>
    match userFindByUid s.users uid with
    | none => s
    | some i =>
      (s.setUser i
        { s.users i with
          passwordHash := kdf.hashPassword salt password
          locked := false
          active := true }).say (.passwordSet i)

def userLockAccount (s : State Hash) (username : Option Str) : State Hash :=
  match username.bind (userFindByUsername s.users) with
  | none => s
  | some i => (s.setUser i { s.users i with locked := true }).say (.adminLocked i)

def userUnlockAccount (s : State Hash) (username : Option Str) : State Hash :=
  match username.bind (userFindByUsername s.users) with
  | none => s
  | some i =>
    (s.setUser i { s.users i with locked := false, failedAttempts := 0 }).say (.adminUnlocked i)

/-! ## Steps -/

inductive Event
  /-- `user_authenticate_for` is called; a missing argument is a null pointer. -/
  | call (username password : Option Str)
  /-- A call runs its next section. -/
  | resume (k : Nat)
  | setPassword (uid : UInt16) (password : Option Str) (salt : Nat)
  | lockAccount (username : Option Str)
  | unlockAccount (username : Option Str)
  /-- The timer ticks this often. -/
  | tick (n : Nat)
  deriving DecidableEq, Repr

def step (s : State Hash) : Event → Option (State Hash)
  | .call username password => some (beginCall kdf s username password)
  | .resume k =>
    match s.calls[k]? with
    | some (.running username password i pc) => some (resumeCall kdf s k username password i pc)
    | _ => none
  | .setPassword uid password salt => some (userSetPassword kdf s uid password salt)
  | .lockAccount username => some (userLockAccount s username)
  | .unlockAccount username => some (userUnlockAccount s username)
  | .tick n => some { s with ticks := s.ticks + n }

/-- A database before any of the calls: whatever the accounts are, nothing has happened yet. -/
def State.fresh (users : Index → Account Hash) (ticks : Nat) : State Hash where
  users := users
  ticks := ticks
  calls := []
  trace := []

end TinyOS.User
