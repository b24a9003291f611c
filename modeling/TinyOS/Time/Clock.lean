import TinyOS.Lib.Run
import Mathlib.Algebra.Ring.Nat
import Mathlib.Logic.Function.Iterate

/-!
# The wall clock

`time.c` keeps a datetime and the tick at which it was right. `time_get_datetime` copies both in one
critical section, adds the seconds that have passed to its copy, and stores the result in another.

* `addSeconds_eq`: the carries of `time_get_datetime` are as many steps of the calendar as seconds
  have passed.
* `clock_is_right`: every call returns the right datetime, if no two calls overlap.
* `overlapping_calls_advance_twice`: two calls that overlap both advance `last_update_ticks`.
-/

namespace TinyOS.Time

open Lib Function

/-! ## The calendar -/

/-- `datetime_t`. -/
structure DateTime where
  year : Nat
  month : Nat
  day : Nat
  hour : Nat
  minute : Nat
  second : Nat
  weekday : Nat
  deriving DecidableEq

def isLeapYear (year : Nat) : Bool :=
  if year % 400 = 0 then true
  else if year % 100 = 0 then false
  else if year % 4 = 0 then true
  else false

/-- The days of a month, as `time_get_datetime` has them. -/
def daysInMonth (year month : Nat) : Nat :=
  if month = 4 ∨ month = 6 ∨ month = 9 ∨ month = 11 then 30
  else if month = 2 then if isLeapYear year then 29 else 28
  else 31

/-- One turn of the loop that adds days. The year has 16 bits. -/
def addDay (d : DateTime) : DateTime :=
  let d := { d with day := d.day + 1, weekday := (d.weekday + 1) % 7 }
  if daysInMonth d.year d.month < d.day then
    if 12 < d.month + 1 then { d with day := 1, month := 1, year := (d.year + 1) % 2 ^ 16 }
    else { d with day := 1, month := d.month + 1 }
  else d

/-- The arithmetic of `time_get_datetime`, between its critical sections. -/
def addSeconds (d : DateTime) (elapsedSeconds : Nat) : DateTime :=
  let totalSeconds := d.second + elapsedSeconds
  let totalMinutes := d.minute + totalSeconds / 60
  let totalHours := d.hour + totalMinutes / 60
  addDay^[totalHours / 24]
    { d with second := totalSeconds % 60, minute := totalMinutes % 60, hour := totalHours % 24 }

/-- The datetime is one of the calendar. -/
structure Valid (d : DateTime) : Prop where
  year : d.year < 2 ^ 16
  month : 1 ≤ d.month ∧ d.month ≤ 12
  day : 1 ≤ d.day ∧ d.day ≤ daysInMonth d.year d.month
  hour : d.hour < 24
  minute : d.minute < 60
  second : d.second < 60
  weekday : d.weekday < 7

/-- The day after, in the calendar. -/
def nextDay (d : DateTime) : DateTime :=
  let d := { d with weekday := (d.weekday + 1) % 7 }
  if d.day < daysInMonth d.year d.month then { d with day := d.day + 1 }
  else if d.month < 12 then { d with day := 1, month := d.month + 1 }
  else { d with day := 1, month := 1, year := d.year + 1 }

/-- The second after, in the calendar. -/
def nextSecond (d : DateTime) : DateTime :=
  if d.second < 59 then { d with second := d.second + 1 }
  else if d.minute < 59 then { d with second := 0, minute := d.minute + 1 }
  else if d.hour < 23 then { d with second := 0, minute := 0, hour := d.hour + 1 }
  else nextDay { d with second := 0, minute := 0, hour := 0 }

/-- A datetime some seconds later. -/
def after (d : DateTime) (seconds : Nat) : DateTime := nextSecond^[seconds] d

/-- Write the time of day. -/
def DateTime.setTime (d : DateTime) (seconds : Nat) : DateTime :=
  { d with second := seconds % 60, minute := seconds / 60 % 60, hour := seconds / 3600 % 24 }

/-- The second of the day. -/
def DateTime.time (d : DateTime) : Nat := d.hour * 3600 + d.minute * 60 + d.second

theorem nextDay_setTime (d : DateTime) (n : Nat) : nextDay (d.setTime n) = (nextDay d).setTime n := by
  unfold nextDay DateTime.setTime
  dsimp only
  split
  · rfl
  · split <;> rfl

theorem nextDay_iterate_setTime (d : DateTime) (n days : Nat) :
    nextDay^[days] (d.setTime n) = (nextDay^[days] d).setTime n := by
  have hcomm : Semiconj (DateTime.setTime · n) nextDay nextDay := fun d => (nextDay_setTime d n).symm
  exact ((hcomm.iterate_right days) d).symm

theorem setTime_time {d : DateTime} (h : Valid d) : d.setTime d.time = d := by
  obtain ⟨_, _, _, hhour, hminute, hsecond, _⟩ := h
  have h₁ : d.time % 60 = d.second := by
    unfold DateTime.time
    omega
  have h₂ : d.time / 60 % 60 = d.minute := by
    unfold DateTime.time
    omega
  have h₃ : d.time / 3600 % 24 = d.hour := by
    unfold DateTime.time
    omega
  rw [DateTime.setTime, h₁, h₂, h₃]

/-- A second later on the same day, or the first second of the next one. -/
theorem nextSecond_setTime (d : DateTime) (n : Nat) :
    nextSecond ((nextDay^[n / 86400] d).setTime n) =
      (nextDay^[(n + 1) / 86400] d).setTime (n + 1) := by
  generalize hx : nextDay^[n / 86400] d = x
  unfold nextSecond
  by_cases hs : n % 60 < 59
  · rw [if_pos (show (x.setTime n).second < 59 from hs), show (n + 1) / 86400 = n / 86400 by omega, hx]
    simp only [DateTime.setTime, show (n + 1) % 60 = n % 60 + 1 by omega,
      show (n + 1) / 60 = n / 60 by omega, show (n + 1) / 3600 = n / 3600 by omega]
  rw [if_neg (show ¬(x.setTime n).second < 59 from hs)]
  by_cases hm : n / 60 % 60 < 59
  · rw [if_pos (show (x.setTime n).minute < 59 from hm), show (n + 1) / 86400 = n / 86400 by omega, hx]
    simp only [DateTime.setTime, show (n + 1) % 60 = 0 by omega,
      show (n + 1) / 60 % 60 = n / 60 % 60 + 1 by omega, show (n + 1) / 3600 = n / 3600 by omega]
  rw [if_neg (show ¬(x.setTime n).minute < 59 from hm)]
  by_cases hh : n / 3600 % 24 < 23
  · rw [if_pos (show (x.setTime n).hour < 23 from hh), show (n + 1) / 86400 = n / 86400 by omega, hx]
    simp only [DateTime.setTime, show (n + 1) % 60 = 0 by omega,
      show (n + 1) / 60 % 60 = 0 by omega, show (n + 1) / 3600 % 24 = n / 3600 % 24 + 1 by omega]
  · -- Midnight.
    rw [if_neg (show ¬(x.setTime n).hour < 23 from hh), show (n + 1) / 86400 = n / 86400 + 1 by omega,
      iterate_succ_apply', hx, ← nextDay_setTime]
    simp only [DateTime.setTime, show (n + 1) % 60 = 0 by omega,
      show (n + 1) / 60 % 60 = 0 by omega, show (n + 1) / 3600 % 24 = 0 by omega]

theorem after_eq {d : DateTime} (h : Valid d) (n : Nat) :
    after d n = (nextDay^[(d.time + n) / 86400] d).setTime (d.time + n) := by
  induction n with
  | zero =>
    have htime : d.time / 86400 = 0 := by
      obtain ⟨_, _, _, hhour, hminute, hsecond, _⟩ := h
      unfold DateTime.time
      omega
    rw [Nat.add_zero, htime]
    exact (setTime_time h).symm
  | succ n ih => rw [after, iterate_succ_apply', ← after, ih, nextSecond_setTime, Nat.add_assoc]

theorem after_add (d : DateTime) (m n : Nat) : after (after d m) n = after d (m + n) := by
  rw [after, after, after, Nat.add_comm, iterate_add_apply]

/-! ## What `time_get_datetime` adds -/

theorem year_nextDay (d : DateTime) : d.year ≤ (nextDay d).year := by
  unfold nextDay
  dsimp only
  split
  · exact Nat.le_refl _
  split
  · exact Nat.le_refl _
  · exact Nat.le_succ _

theorem year_nextDay_iterate (d : DateTime) (n : Nat) : d.year ≤ (nextDay^[n] d).year := by
  induction n generalizing d with
  | zero => exact Nat.le_refl _
  | succ n ih => exact Nat.le_trans (year_nextDay d) (ih (nextDay d))

/-- In a valid datetime the loop and the calendar agree, until the year does not fit. -/
theorem addDay_eq {d : DateTime} (hday : 1 ≤ d.day ∧ d.day ≤ daysInMonth d.year d.month)
    (hmonth : 1 ≤ d.month ∧ d.month ≤ 12) (hyear : (nextDay d).year < 2 ^ 16) : addDay d = nextDay d := by
  unfold nextDay at hyear ⊢
  unfold addDay
  dsimp only at hyear ⊢
  by_cases hlast : d.day < daysInMonth d.year d.month
  · rw [if_neg (by omega), if_pos hlast]
  rw [if_pos (by omega), if_neg hlast]
  by_cases hdecember : d.month < 12
  · rw [if_neg (by omega), if_pos hdecember]
  · rw [if_neg hlast, if_neg hdecember] at hyear
    rw [if_pos (by omega), if_neg hdecember, Nat.mod_eq_of_lt hyear]

theorem daysInMonth_pos (year month : Nat) : 1 ≤ daysInMonth year month := by
  unfold daysInMonth
  split
  · decide
  split
  · split <;> decide
  · decide

theorem day_nextDay {d : DateTime} (hmonth : 1 ≤ d.month ∧ d.month ≤ 12) :
    (1 ≤ (nextDay d).day ∧ (nextDay d).day ≤ daysInMonth (nextDay d).year (nextDay d).month) ∧
      1 ≤ (nextDay d).month ∧ (nextDay d).month ≤ 12 := by
  unfold nextDay
  dsimp only
  split
  · rename_i hlast
    exact ⟨⟨Nat.le_add_left 1 _, hlast⟩, hmonth⟩
  split
  · rename_i hdecember
    exact ⟨⟨Nat.le_refl 1, daysInMonth_pos _ _⟩, Nat.le_add_left 1 _, hdecember⟩
  · exact ⟨⟨Nat.le_refl 1, daysInMonth_pos _ _⟩, Nat.le_refl 1, Nat.le_add_left 1 11⟩

theorem addDay_iterate_eq {d : DateTime} {n : Nat}
    (hday : 1 ≤ d.day ∧ d.day ≤ daysInMonth d.year d.month) (hmonth : 1 ≤ d.month ∧ d.month ≤ 12)
    (hyear : (nextDay^[n] d).year < 2 ^ 16) : addDay^[n] d = nextDay^[n] d := by
  induction n generalizing d with
  | zero => rfl
  | succ n ih =>
    rw [iterate_succ_apply, iterate_succ_apply,
      addDay_eq hday hmonth (Nat.lt_of_le_of_lt (year_nextDay_iterate _ n) hyear)]
    obtain ⟨hday', hmonth'⟩ := day_nextDay hmonth
    exact ih hday' hmonth' hyear

/-- The carries are as many steps of the calendar as seconds have passed. -/
theorem addSeconds_eq {d : DateTime} {n : Nat} (h : Valid d) (hyear : (after d n).year < 2 ^ 16) :
    addSeconds d n = after d n := by
  rw [after_eq h] at hyear ⊢
  have hhours : (d.hour + (d.minute + (d.second + n) / 60) / 60) / 24 = (d.time + n) / 86400 := by
    unfold DateTime.time
    omega
  have hset : { d with
      second := (d.second + n) % 60
      minute := (d.minute + (d.second + n) / 60) % 60
      hour := (d.hour + (d.minute + (d.second + n) / 60) / 60) % 24 } = d.setTime (d.time + n) := by
    have h₁ : (d.second + n) % 60 = (d.time + n) % 60 := by
      unfold DateTime.time
      omega
    have h₂ : (d.minute + (d.second + n) / 60) % 60 = (d.time + n) / 60 % 60 := by
      unfold DateTime.time
      omega
    have h₃ : (d.hour + (d.minute + (d.second + n) / 60) / 60) % 24 = (d.time + n) / 3600 % 24 := by
      unfold DateTime.time
      omega
    rw [DateTime.setTime, h₁, h₂, h₃]
  unfold addSeconds
  dsimp only
  rw [hhours, hset]
  rw [← nextDay_iterate_setTime] at hyear ⊢
  exact addDay_iterate_eq (d := d.setTime (d.time + n)) h.day h.month hyear

theorem Valid.after {d : DateTime} {n : Nat} (h : Valid d) (hyear : (after d n).year < 2 ^ 16) :
    Valid (after d n) := by
  rw [after_eq h] at hyear ⊢
  have hdays : ∀ k, (1 ≤ (nextDay^[k] d).day ∧
      (nextDay^[k] d).day ≤ daysInMonth (nextDay^[k] d).year (nextDay^[k] d).month) ∧
      (1 ≤ (nextDay^[k] d).month ∧ (nextDay^[k] d).month ≤ 12) ∧ (nextDay^[k] d).weekday < 7 := by
    intro k
    induction k with
    | zero => exact ⟨h.day, h.month, h.weekday⟩
    | succ k ih =>
      rw [iterate_succ_apply']
      obtain ⟨hday, hmonth⟩ := day_nextDay ih.2.1
      refine ⟨hday, hmonth, ?_⟩
      have hweekday : ∀ x : DateTime, (nextDay x).weekday = (x.weekday + 1) % 7 := by
        intro x
        unfold nextDay
        dsimp only
        split
        · rfl
        · split <;> rfl
      rw [hweekday]
      exact Nat.mod_lt _ (by decide)
  obtain ⟨hday, hmonth, hweekday⟩ := hdays ((d.time + n) / 86400)
  exact ⟨hyear, hmonth, hday, Nat.mod_lt _ (by decide), Nat.mod_lt _ (by decide),
    Nat.mod_lt _ (by decide), hweekday⟩

/-! ## Readers -/

/-- A call that has left its first critical section. -/
structure Pending where
  temp : DateTime
  elapsedSeconds : Nat
  /-- The tick at which it read the clock. -/
  readAt : Nat
  deriving DecidableEq

/-- What a call returned, with the ticks at which it read the clock and returned. -/
structure Returned where
  value : DateTime
  readAt : Nat
  returnedAt : Nat
  deriving DecidableEq

/-- The variables of `time.c`, the timer, and the tasks that are in `time_get_datetime`. -/
structure System where
  systemTime : DateTime
  lastUpdateTicks : UInt32
  /-- How often the timer has ticked. `pit_get_ticks` returns the lower 32 bits. -/
  ticks : Nat
  pending : Nat → Option Pending
  returned : List Returned

inductive Event where
  | tick
  /-- The first critical section, in a call by task `t`. -/
  | read (t : Nat)
  /-- The second one. -/
  | commit (t : Nat)

def System.pitGetTicks (s : System) : UInt32 := UInt32.ofNat s.ticks

/-- `none` if the task is not where the step is taken. -/
def System.next (s : System) : Event → Option System
  | .tick => some { s with ticks := s.ticks + 1 }
  | .read t =>
    match s.pending t with
    | some _ => none
    | none =>
      let elapsedSeconds := (s.pitGetTicks - s.lastUpdateTicks) / 100
      some { s with
        pending := update s.pending t (some ⟨s.systemTime, elapsedSeconds.toNat, s.ticks⟩) }
  | .commit t =>
    match s.pending t with
    | none => none
    | some c =>
      let temp := addSeconds c.temp c.elapsedSeconds
      some { s with
        systemTime := temp
        lastUpdateTicks := s.lastUpdateTicks + UInt32.ofNat c.elapsedSeconds * 100
        pending := update s.pending t none
        returned := ⟨temp, c.readAt, s.ticks⟩ :: s.returned }

/-- `time_set_datetime` has set the clock, and nobody reads it yet. -/
def System.start (d : DateTime) (t₀ : Nat) : System := ⟨d, UInt32.ofNat t₀, t₀, fun _ => none, []⟩

/-- A call begins when no other is between its critical sections; the tick counter does not wrap
around, and the datetime of the present tick has a year of 16 bits. -/
def Undisturbed (d : DateTime) (t₀ : Nat) (s : System) : Event → Prop
  | .tick => s.ticks + 1 < 2 ^ 32
  | .read _ => (∀ t, s.pending t = none) ∧ (after d ((s.ticks - t₀) / 100)).year < 2 ^ 16
  | .commit _ => True

/-- The clock is right, and every call has returned a datetime that was right during the call. -/
structure Right (d : DateTime) (t₀ : Nat) (s : System) : Prop where
  returned : ∀ r ∈ s.returned, ∃ n, r.readAt ≤ n ∧ n ≤ r.returnedAt ∧
    r.value = after d ((n - t₀) / 100)
  systemTime : s.systemTime = after d ((s.lastUpdateTicks.toNat - t₀) / 100)
  lastUpdateTicks : t₀ ≤ s.lastUpdateTicks.toNat ∧ s.lastUpdateTicks.toNat ≤ s.ticks

/-- With `seconds` in the datetime that is kept. -/
structure Inv (d : DateTime) (t₀ : Nat) (s : System) (seconds : Nat) : Prop where
  ticks : s.ticks < 2 ^ 32
  valid : Valid s.systemTime
  systemTime : s.systemTime = after d seconds
  last : s.lastUpdateTicks.toNat = t₀ + 100 * seconds
  past : t₀ + 100 * seconds ≤ s.ticks
  /-- The one call under way has copied what is still kept. -/
  pending : ∀ t c, s.pending t = some c → c.temp = s.systemTime ∧ c.readAt ≤ s.ticks ∧
    seconds + c.elapsedSeconds = (c.readAt - t₀) / 100 ∧
    (after d ((c.readAt - t₀) / 100)).year < 2 ^ 16
  alone : ∀ t t' c c', s.pending t = some c → s.pending t' = some c' → t = t'
  returned : ∀ r ∈ s.returned, ∃ n, r.readAt ≤ n ∧ n ≤ r.returnedAt ∧
    r.value = after d ((n - t₀) / 100)

variable {d : DateTime} {t₀ : Nat} {s s' : System} {seconds : Nat}

theorem Inv.read {t : Nat} (h : Inv d t₀ s seconds) (hguard : Undisturbed d t₀ s (.read t))
    (hnext : s.next (.read t) = some s') : Inv d t₀ s' seconds := by
  obtain ⟨hnone, hyear⟩ := hguard
  simp only [System.next, hnone t] at hnext
  cases hnext
  have helapsed : ((s.pitGetTicks - s.lastUpdateTicks) / 100).toNat = (s.ticks - t₀) / 100 - seconds := by
    have hticks : s.pitGetTicks.toNat = s.ticks := by
      rw [System.pitGetTicks, UInt32.toNat_ofNat', Nat.mod_eq_of_lt h.ticks]
    have hle : s.lastUpdateTicks ≤ s.pitGetTicks := by
      rw [UInt32.le_iff_toNat_le, hticks, h.last]
      exact h.past
    rw [UInt32.toNat_div, UInt32.toNat_sub_of_le _ _ hle, hticks, h.last]
    show (s.ticks - (t₀ + 100 * seconds)) / 100 = _
    omega
  have hpast := h.past
  have honly : ∀ t' c, update s.pending t
      (some ⟨s.systemTime, ((s.pitGetTicks - s.lastUpdateTicks) / 100).toNat, s.ticks⟩) t' = some c →
      t' = t ∧ c = ⟨s.systemTime, (s.ticks - t₀) / 100 - seconds, s.ticks⟩ := by
    intro t' c hc
    by_cases ht : t' = t
    · rw [ht, update_self, helapsed] at hc
      exact ⟨ht, (Option.some.inj hc).symm⟩
    · rw [update_of_ne ht, hnone t'] at hc
      cases hc
  refine { h with pending := ?_, alone := ?_ }
  · intro t' c hc
    obtain ⟨_, rfl⟩ := honly t' c hc
    refine ⟨rfl, Nat.le_refl _, ?_, hyear⟩
    show seconds + ((s.ticks - t₀) / 100 - seconds) = (s.ticks - t₀) / 100
    omega
  · intro t₁ t₂ c₁ c₂ h₁ h₂
    exact (honly t₁ c₁ h₁).1.trans (honly t₂ c₂ h₂).1.symm

theorem Inv.commit {t : Nat} (hd : Valid d) (h : Inv d t₀ s seconds)
    (hnext : s.next (.commit t) = some s') : ∃ seconds', Inv d t₀ s' seconds' := by
  simp only [System.next] at hnext
  split at hnext
  · cases hnext
  rename_i c hc
  cases hnext
  obtain ⟨htemp, hread, hseconds, hyear⟩ := h.pending t c hc
  have hvalue : addSeconds c.temp c.elapsedSeconds = after d ((c.readAt - t₀) / 100) := by
    rw [htemp, h.systemTime, ← hseconds, ← after_add]
    apply addSeconds_eq (h.systemTime ▸ h.valid)
    rwa [after_add, hseconds]
  have hnone : ∀ t', update s.pending t none t' = none := by
    intro t'
    by_cases ht : t' = t
    · rw [ht, update_self]
    rw [update_of_ne ht]
    rcases hp : s.pending t' with _ | c'
    · rfl
    · exact absurd (h.alone t' t c' c hp hc) ht
  have hpast := h.past
  have hticks := h.ticks
  refine ⟨seconds + c.elapsedSeconds, h.ticks, ?_, ?_, ?_, ?_, ?_, ?_, ?_⟩
  · rw [hvalue]
    exact hd.after hyear
  · rw [hvalue, hseconds]
  · rw [UInt32.toNat_add, UInt32.toNat_mul, UInt32.toNat_ofNat', h.last]
    show (t₀ + 100 * seconds + c.elapsedSeconds % 2 ^ 32 * 100 % 2 ^ 32) % 2 ^ 32 = _
    omega
  · show t₀ + 100 * (seconds + c.elapsedSeconds) ≤ s.ticks
    omega
  · intro t' c' hc'
    exact absurd ((hnone t').symm.trans hc') nofun
  · intro t₁ t₂ c₁ c₂ h₁
    exact absurd ((hnone t₁).symm.trans h₁) nofun
  · intro r hr
    rcases List.mem_cons.mp hr with rfl | hr
    · exact ⟨c.readAt, Nat.le_refl _, hread, hvalue⟩
    · exact h.returned r hr

theorem Inv.next {e : Event} (hd : Valid d) (h : Inv d t₀ s seconds) (hguard : Undisturbed d t₀ s e)
    (hnext : s.next e = some s') : ∃ seconds', Inv d t₀ s' seconds' := by
  cases e with
  | tick =>
    cases hnext
    refine ⟨seconds, { h with ticks := hguard, past := Nat.le_succ_of_le h.past, pending := ?_ }⟩
    intro t c hc
    obtain ⟨htemp, hread, hrest⟩ := h.pending t c hc
    exact ⟨htemp, Nat.le_succ_of_le hread, hrest⟩
  | read t => exact ⟨seconds, h.read hguard hnext⟩
  | commit t => exact h.commit hd hnext

theorem start_inv (hd : Valid d) (ht : t₀ < 2 ^ 32) : Inv d t₀ (.start d t₀) 0 := by
  refine ⟨ht, hd, rfl, ?_, Nat.le_refl _, nofun, nofun, nofun⟩
  rw [System.start, UInt32.toNat_ofNat', Nat.mod_eq_of_lt ht, Nat.mul_zero, Nat.add_zero]

/-- A step that meets the condition. -/
def Step (d : DateTime) (t₀ : Nat) (s : System) (e : Event) (s' : System) : Prop :=
  Undisturbed d t₀ s e ∧ s.next e = some s'

/-- Calls that do not overlap return the datetime of a tick during the call, and keep the clock right. -/
theorem clock_is_right {events : List Event} (hd : Valid d) (ht : t₀ < 2 ^ 32)
    (hrun : Run (Step d t₀) (.start d t₀) events s) : Right d t₀ s := by
  obtain ⟨seconds, h⟩ : ∃ seconds, Inv d t₀ s seconds := by
    refine @Run.invariant _ _ (Step d t₀) _ _ _ (fun s => ∃ seconds, Inv d t₀ s seconds) ?_ hrun
      ⟨0, start_inv hd ht⟩
    intro s e s' hinv hstep
    obtain ⟨seconds, hinv⟩ := hinv
    exact hinv.next hd hstep.1 hstep.2
  refine ⟨h.returned, ?_, ?_⟩
  · rw [h.systemTime, h.last, Nat.add_sub_cancel_left, Nat.mul_div_cancel_left _ (by decide)]
  · rw [h.last]
    exact ⟨Nat.le_add_right _ _, h.past⟩

/-! ## Two readers -/

/-- The last second of February 29, 2024, a Thursday. -/
def leapDay : DateTime := ⟨2024, 2, 29, 23, 59, 59, 4⟩

theorem leapDay_valid : Valid leapDay := by
  constructor <;> decide

theorem run_ticks {n : Nat} (h : s.ticks + n < 2 ^ 32) :
    Run (Step d t₀) s (List.replicate n .tick) { s with ticks := s.ticks + n } := by
  induction n generalizing s with
  | zero => exact .nil s
  | succ n ih =>
    have hfirst : Step d t₀ s .tick { s with ticks := s.ticks + 1 } := ⟨by
      show s.ticks + 1 < 2 ^ 32
      omega, rfl⟩
    refine .cons hfirst ?_
    have hrest := @ih { s with ticks := s.ticks + 1 } (by
      show s.ticks + 1 + n < 2 ^ 32
      omega)
    rwa [show s.ticks + (n + 1) = s.ticks + 1 + n by omega]

/-- A call a second later. -/
theorem clock_is_right_after_leapDay :
    Valid leapDay ∧ ∃ s, Run (Step leapDay 7) (.start leapDay 7)
      (List.replicate 100 .tick ++ [.read 0, .tick, .commit 0]) s ∧ Right leapDay 7 s ∧
      s.systemTime = ⟨2024, 3, 1, 0, 0, 0, 5⟩ := by
  have hticks : Run (Step leapDay 7) (.start leapDay 7) (List.replicate 100 .tick)
      { System.start leapDay 7 with ticks := 107 } := run_ticks (by decide)
  have hread : Undisturbed leapDay 7 { System.start leapDay 7 with ticks := 107 } (.read 0) :=
    ⟨fun _ => rfl, by decide +kernel⟩
  have hcall : Run (Step leapDay 7) (.start leapDay 7)
      (List.replicate 100 .tick ++ [.read 0, .tick, .commit 0]) _ :=
    hticks.append (.cons ⟨hread, rfl⟩ (.cons ⟨show 107 + 1 < 2 ^ 32 by decide, rfl⟩
      (.cons ⟨trivial, rfl⟩ (.nil _))))
  exact ⟨leapDay_valid, _, hcall, clock_is_right leapDay_valid (by decide) hcall, by decide +kernel⟩

/-- A call, and another one between its two sections, both add a second to `last_update_ticks`, which is
then ahead of the timer. The next call takes the difference for more than a year. -/
theorem overlapping_calls_advance_twice :
    Valid leapDay ∧ ∃ s, Run (fun s e s' => System.next s e = some s') (.start leapDay 0)
      (List.replicate 100 .tick ++ [.read 0, .read 1, .commit 1, .commit 0, .read 2, .commit 2]) s ∧
      s.ticks = 100 ∧ s.systemTime.year = 2025 := by
  have heval : ((List.replicate 100 Event.tick ++
      [Event.read 0, .read 1, .commit 1, .commit 0, .read 2, .commit 2]).foldlM System.next
        (System.start leapDay 0)).any
          (fun s : System => s.ticks = 100 ∧ s.systemTime.year = 2025) = true := by
    decide +kernel
  obtain ⟨s, hs, hstate⟩ := Option.any_eq_true _ _ |>.mp heval
  exact ⟨leapDay_valid, s, Run.of_foldlM_some hs, of_decide_eq_true hstate⟩

end TinyOS.Time
