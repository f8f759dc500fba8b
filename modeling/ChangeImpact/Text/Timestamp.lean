/-!
# Points in time

A point in time as text, from the seconds since the beginning of 1970.
-/

namespace ChangeImpact

structure CalendarDay where
  year : Nat
  month : Nat
  day : Nat
deriving DecidableEq, Inhabited

/-- The day that lies so many days after the first of January 1970. Years are counted from
March here, so that the leap day is the last of its year; four hundred of them have always
the same number of days. -/
def CalendarDay.ofDays (days : Nat) : CalendarDay :=
  let shifted := days + 719468
  let era := shifted / 146097
  let dayOfEra := shifted % 146097
  let yearOfEra := (dayOfEra - dayOfEra / 1460 + dayOfEra / 36524 - dayOfEra / 146096) / 365
  let dayOfYear := dayOfEra - (365 * yearOfEra + yearOfEra / 4 - yearOfEra / 100)
  let shiftedMonth := (5 * dayOfYear + 2) / 153
  let day := dayOfYear - (153 * shiftedMonth + 2) / 5 + 1
  let month := if shiftedMonth < 10 then shiftedMonth + 3 else shiftedMonth - 9
  let year := yearOfEra + era * 400
  ⟨if month ≤ 2 then year + 1 else year, month, day⟩

structure Timestamp where
  seconds : Nat
  nanoseconds : Nat := 0
deriving DecidableEq, Inhabited

namespace Timestamp

def padded (width n : Nat) : String :=
  let digits := Nat.toDigits 10 n
  String.ofList (List.replicate (width - digits.length) '0' ++ digits)

/-- The fraction of a second: nothing, or three, six or nine digits. -/
def fraction (n : Nat) : String :=
  if n = 0 then ""
  else if n % 1000000 = 0 then "." ++ padded 3 (n / 1000000)
  else if n % 1000 = 0 then "." ++ padded 6 (n / 1000)
  else "." ++ padded 9 n

def text (t : Timestamp) : String :=
  let day := CalendarDay.ofDays (t.seconds / 86400)
  let second := t.seconds % 86400
  padded 4 day.year ++ "-" ++ padded 2 day.month ++ "-" ++ padded 2 day.day
    ++ "T" ++ padded 2 (second / 3600) ++ ":" ++ padded 2 (second / 60 % 60)
    ++ ":" ++ padded 2 (second % 60) ++ fraction t.nanoseconds ++ "Z"

end Timestamp

end ChangeImpact
