import TinyOS.Time.Clock
import Mathlib.Tactic.IntervalCases

/-!
# Timestamps

`timestamp_to_datetime` takes whole years and months off the days, `datetime_to_timestamp` adds them up,
and `get_day_of_week` uses Zeller's congruence. They agree on every 32-bit timestamp.
-/

namespace TinyOS.Time

/-- `days_in_month`. -/
def monthLengths : List Nat := [31, 28, 31, 30, 31, 30, 31, 31, 30, 31, 30, 31]

def daysInYear (year : Nat) : Nat := if isLeapYear year then 366 else 365

/-- The loop of `timestamp_to_datetime` over the years, with the days that are left. -/
def takeYears (days year : Nat) : Nat × Nat :=
  if days < daysInYear year then (days, year)
  else takeYears (days - daysInYear year) ((year + 1) % 2 ^ 16)
termination_by days
decreasing_by
  have : 365 ≤ daysInYear year := by unfold daysInYear; split <;> decide
  omega

/-- The loop over the months. -/
def takeMonths (year days month : Nat) : Nat × Nat :=
  if month ≤ 12 then
    let daysThisMonth := if month = 2 ∧ isLeapYear year then 29 else monthLengths.getD (month - 1) 0
    if days < daysThisMonth then (days, month)
    else takeMonths year (days - daysThisMonth) (month + 1)
  else (days, month)
termination_by 13 - month

def timestampToDatetime (timestamp : UInt32) : DateTime :=
  let minutes := timestamp.toNat / 60
  let hours := minutes / 60
  let days := hours / 24
  let (rest, year) := takeYears days 1970
  let (rest, month) := takeMonths year rest 1
  { year, month, day := rest + 1, hour := hours % 24, minute := minutes % 60,
    second := timestamp.toNat % 60, weekday := (days + 4) % 7 }

/-- The loop of `datetime_to_timestamp` over the years, for so many years from 1970. -/
def addYears : Nat → Nat
  | 0 => 0
  | n + 1 => addYears n + daysInYear (1970 + n)

/-- The loop over the months, for so many months. -/
def addMonths (year : Nat) : Nat → Nat
  | 0 => 0
  | n + 1 =>
    addMonths year n + monthLengths.getD n 0 + if n + 1 = 2 ∧ isLeapYear year then 1 else 0

/-- The day is an `int` when it is added to the 64-bit days. -/
def datetimeToTimestamp (d : DateTime) : UInt32 :=
  if d.year < 1970 then 0
  else
    let days : Int := addYears (d.year - 1970) + addMonths d.year (d.month - 1) + (d.day - 1)
    let seconds := (days * 86400 + d.hour * 3600 + d.minute * 60 + d.second) % 2 ^ 64
    if 4294967295 < seconds then 4294967295 else UInt32.ofNat seconds.toNat

/-- `h` is the remainder of an `int`, stored in 32 unsigned bits. -/
def getDayOfWeek (year month day : Nat) : Nat :=
  let (year, month) := if month < 3 then ((year + 2 ^ 16 - 1) % 2 ^ 16, month + 12) else (year, month)
  let century : Int := year / 100
  let yearOfCentury : Int := year % 100
  let h := (day + 13 * (month + 1) / 5 + yearOfCentury + yearOfCentury / 4 + century / 4
    - 2 * century).tmod 7 % 2 ^ 32
  ((h + 6) % 2 ^ 32 % 7).toNat

/-! ## The days before a year and before a month -/

variable {year n days : Nat}

/-- The leap days before the end of a year. -/
def leapDays (year : Nat) : Int := year / 4 - year / 100 + year / 400

theorem leapDays_succ (year : Nat) :
    leapDays (year + 1) = leapDays year + if isLeapYear (year + 1) then 1 else 0 := by
  unfold leapDays isLeapYear
  split
  · rw [if_pos rfl]
    omega
  split
  · rw [if_neg Bool.noConfusion]
    omega
  split
  · rw [if_pos rfl]
    omega
  · rw [if_neg Bool.noConfusion]
    omega

theorem addYears_eq (n : Nat) : addYears n = 365 * n + leapDays (1969 + n) - 477 := by
  induction n with
  | zero => rfl
  | succ n ih =>
    rw [addYears, ← Nat.add_assoc, leapDays_succ, daysInYear, show 1969 + n + 1 = 1970 + n by omega]
    push_cast
    split <;> omega

theorem addMonths_succ (hn : n < 12) :
    addMonths year (n + 1) = addMonths year n + daysInMonth year (n + 1) := by
  rw [addMonths, daysInMonth, Nat.add_assoc]
  generalize isLeapYear year = leap
  interval_cases n <;> cases leap <;> rfl

theorem addMonths_twelve : addMonths year 12 = daysInYear year := by
  simp only [addMonths, daysInYear]
  generalize isLeapYear year = leap
  cases leap <;> rfl

theorem takeYears_spec (hyear : 1970 + n + days < 2 ^ 16) :
    ∃ k rest, takeYears days (1970 + n) = (rest, 1970 + k) ∧
      addYears k + rest = addYears n + days ∧ rest < daysInYear (1970 + k) := by
  induction days using Nat.strong_induction_on generalizing n with
  | _ days ih =>
    rw [takeYears]
    split_ifs with h
    · exact ⟨n, days, rfl, rfl, h⟩
    · have hpos : 365 ≤ daysInYear (1970 + n) := by
        unfold daysInYear
        split <;> decide
      rw [Nat.mod_eq_of_lt (by omega), Nat.add_assoc]
      obtain ⟨k, rest, heq, hsum, hlt⟩ := ih (days - daysInYear (1970 + n)) (by omega)
        (n := n + 1) (by omega)
      refine ⟨k, rest, heq, ?_, hlt⟩
      rw [hsum, addYears]
      omega

theorem takeMonths_spec (hn : n ≤ 12) (h : addMonths year n + days < addMonths year 12) :
    ∃ k rest, takeMonths year days (n + 1) = (rest, k + 1) ∧ k < 12 ∧
      addMonths year k + rest = addMonths year n + days ∧ rest < daysInMonth year (k + 1) := by
  induction hn using Nat.decreasingInduction generalizing days with
  | self => omega
  | of_succ n hn ih =>
    have hthis : (if n + 1 = 2 ∧ isLeapYear year then 29 else monthLengths.getD n 0) =
        daysInMonth year (n + 1) := by
      rw [daysInMonth]
      generalize isLeapYear year = leap
      interval_cases n <;> cases leap <;> rfl
    rw [takeMonths, if_pos (by omega)]
    dsimp only
    rw [Nat.add_sub_cancel, hthis]
    split_ifs with hlt
    · exact ⟨n, days, rfl, hn, rfl, hlt⟩
    · rw [addMonths_succ hn] at ih
      obtain ⟨k, rest, heq, hk, hsum, hrest⟩ := @ih (days - daysInMonth year (n + 1)) (by omega)
      exact ⟨k, rest, heq, hk, by omega, hrest⟩

/-! ## The weekday -/

/-- The remainder has the sign of the `int`, and 6 more is not negative. -/
theorem tmod_seven (x : Int) : (x.tmod 7 % 2 ^ 32 + 6) % 2 ^ 32 % 7 = (x + 6) % 7 := by
  rw [Int.tmod_eq_emod]
  split_ifs <;> omega

/-- What the congruence has of the year, up to whole weeks. -/
theorem zeller_year (x : Int) (year : Nat) :
    x + year % 100 + year % 100 / 4 + year / 100 / 4 - 2 * (year / 100) =
      x + year + leapDays year - 126 * (year / 100) := by
  unfold leapDays
  omega

theorem getDayOfWeek_eq {k : Nat} (hn : 1970 + n < 2 ^ 16) (hk : k < 12) (day : Nat) :
    getDayOfWeek (1970 + n) (k + 1) day =
      (addYears n + addMonths (1970 + n) k + day + 3) % 7 := by
  have hyears := addYears_eq n
  have hleap := leapDays_succ (1969 + n)
  have hpred : (1970 + n + 2 ^ 16 - 1) % 2 ^ 16 = 1969 + n := by omega
  rw [show 1969 + n + 1 = 1970 + n by omega] at hleap
  simp only [getDayOfWeek, tmod_seven, zeller_year, hpred]
  cases h : isLeapYear (1970 + n) with
  | false =>
    rw [h, if_neg Bool.noConfusion] at hleap
    interval_cases k <;> simp [addMonths, monthLengths, h] <;> omega
  | true =>
    rw [h, if_pos rfl] at hleap
    interval_cases k <;> simp [addMonths, monthLengths, h] <;> omega

/-! ## The three functions together -/

/-- What `timestamp_to_datetime` finds: years, months and days that add up to the timestamp's. -/
theorem timestampToDatetime_eq (t : UInt32) :
    ∃ n k rest, k < 12 ∧ rest < daysInMonth (1970 + n) (k + 1) ∧
      addYears n + addMonths (1970 + n) k + rest = t.toNat / 60 / 60 / 24 ∧
      timestampToDatetime t = ⟨1970 + n, k + 1, rest + 1, t.toNat / 60 / 60 % 24,
        t.toNat / 60 % 60, t.toNat % 60, (t.toNat / 60 / 60 / 24 + 4) % 7⟩ := by
  have ht := t.toNat_lt
  have hshort : 1970 + 0 + t.toNat / 60 / 60 / 24 < 2 ^ 16 := by omega
  obtain ⟨n, days, hyear, hsum, hdays⟩ := takeYears_spec hshort
  rw [← addMonths_twelve, ← Nat.zero_add days] at hdays
  obtain ⟨k, rest, hmonth, hk, hrest, hlt⟩ := takeMonths_spec (Nat.zero_le 12) hdays
  refine ⟨n, k, rest, hk, hlt, ?_, ?_⟩
  · rw [Nat.add_assoc, hrest, addMonths, Nat.zero_add, hsum, addYears, Nat.zero_add]
  · simp only [timestampToDatetime]
    rw [hyear]
    dsimp only
    rw [hmonth]

theorem timestamps_and_datetimes_agree (t : UInt32) :
    Valid (timestampToDatetime t) ∧ datetimeToTimestamp (timestampToDatetime t) = t ∧
      getDayOfWeek (timestampToDatetime t).year (timestampToDatetime t).month
        (timestampToDatetime t).day = (timestampToDatetime t).weekday := by
  obtain ⟨n, k, rest, hk, hrest, hsum, heq⟩ := timestampToDatetime_eq t
  have ht := t.toNat_lt
  have hn : 1970 + n < 2 ^ 16 := by
    have hyears := addYears_eq n
    unfold leapDays at hyears
    omega
  rw [heq]
  refine ⟨⟨hn, ?_, ?_, ?_, ?_, ?_, ?_⟩, ?_, ?_⟩
  · exact ⟨Nat.le_add_left 1 k, hk⟩
  · exact ⟨Nat.le_add_left 1 rest, hrest⟩
  iterate 4 exact Nat.mod_lt _ (by decide)
  · have hseconds : ((addYears n + addMonths (1970 + n) k + ((rest + 1 : Nat) - 1) : Int) * 86400 +
        (t.toNat / 60 / 60 % 24 : Nat) * 3600 + (t.toNat / 60 % 60 : Nat) * 60 + (t.toNat % 60 : Nat)) %
          2 ^ 64 = t.toNat := by omega
    simp only [datetimeToTimestamp, Nat.add_sub_cancel, Nat.add_sub_cancel_left, hseconds]
    rw [if_neg (by omega), if_neg (by omega), Int.toNat_natCast, UInt32.ofNat_toNat]
  · rw [getDayOfWeek_eq hn hk, ← hsum]
    dsimp only
    omega

end TinyOS.Time
