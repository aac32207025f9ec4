import CodaDb.Sql.Number

/-!
# `sql_time`

A time stamp and the format it is shown in. `gmtime` and `strftime` are the C library's, in the
proleptic Gregorian calendar.
-/

namespace CodaDb

/-- The fields of a `struct tm` that the formats read. -/
structure Tm where
  year : Int
  month : Nat
  day : Nat
  hour : Nat
  minute : Nat
  second : Nat
deriving DecidableEq, Repr

/-- Broken-down UTC time. Years are counted from March, so that the leap day ends a year, and the
days of a 400 year era are counted from its first of March. -/
def gmtime (value : Int) : Tm :=
  let days := value.fdiv 86400 + 719468
  let secs := (value.fmod 86400).toNat
  let era := days.fdiv 146097
  let doe := (days.fmod 146097).toNat
  let yoe := (doe - doe / 1460 + doe / 36524 - doe / 146096) / 365
  let doy := doe - (365 * yoe + yoe / 4 - yoe / 100)
  let mp := (5 * doy + 2) / 153
  let month := if mp < 10 then mp + 3 else mp - 9
  { year := yoe + era * 400 + (if month ≤ 2 then 1 else 0)
    month := month
    day := doy - (153 * mp + 2) / 5 + 1
    hour := secs / 3600
    minute := secs % 3600 / 60
    second := secs % 60 }

inductive TimeFormat where
  | date | time | timestamp | datetime
deriving DecidableEq, Repr

structure SqlTime where
  value_ : Int
  format_ : TimeFormat
deriving DecidableEq, Repr

namespace SqlTime

/-- `%Y-%m-%d` -/
def dateText (tm : Tm) : String :=
  toString tm.year ++ "-" ++ zeroPadded 2 tm.month ++ "-" ++ zeroPadded 2 tm.day

/-- `%H:%M:%S` -/
def timeText (tm : Tm) : String :=
  zeroPadded 2 tm.hour ++ ":" ++ zeroPadded 2 tm.minute ++ ":" ++ zeroPadded 2 tm.second

/-- `gmtime` has the year. -/
def HasYear (t : SqlTime) : Prop :=
  IntKind.int.min ≤ (gmtime t.value_).year - 1900 ∧ (gmtime t.value_).year - 1900 ≤ IntKind.int.max

instance (t : SqlTime) : Decidable t.HasYear := inferInstanceAs (Decidable (_ ∧ _))

/-- `to_string` where `gmtime` has the year. Elsewhere it returns a null pointer, which `strftime`
reads. -/
def toString (t : SqlTime) : String :=
  match t.format_ with
  | .date => dateText (gmtime t.value_)
  | .time => timeText (gmtime t.value_)
  | .timestamp | .datetime => dateText (gmtime t.value_) ++ " " ++ timeText (gmtime t.value_)

/-- `to_string`, where it is defined. -/
def text (t : SqlTime) : Option String := if t.HasYear then some t.toString else none

example : SqlTime.toString ⟨1709164800, .datetime⟩ = "2024-02-29 00:00:00" := by decide

end SqlTime

end CodaDb
