/-!
Moments as text: the date and the time of day in the common calendar, at zero offset.
-/
namespace LanguageHost

/-- A moment, from the start of the year 1970. -/
structure Moment where
  seconds : Nat
  nanos : Nat
deriving DecidableEq, Repr

namespace Moment

/-- The year, month and day after a number of days. Years are counted from March, so that a leap day
ends one. -/
def date (days : Nat) : Nat × Nat × Nat :=
  let shifted := days + 719468
  let era := shifted / 146097
  let day := shifted % 146097
  let year := (day - day / 1460 + day / 36524 - day / 146096) / 365
  let dayOfYear := day - (365 * year + year / 4 - year / 100)
  let part := (5 * dayOfYear + 2) / 153
  let month := if part < 10 then part + 3 else part - 9
  (year + era * 400 + (if month ≤ 2 then 1 else 0), month, dayOfYear - (153 * part + 2) / 5 + 1)

def digits (width n : Nat) : String :=
  let s := toString n
  String.ofList (List.replicate (width - s.length) '0') ++ s

def text (m : Moment) : String :=
  let (year, month, day) := date (m.seconds / 86400)
  let time := m.seconds % 86400
  digits 4 year ++ "-" ++ digits 2 month ++ "-" ++ digits 2 day ++ "T" ++ digits 2 (time / 3600) ++
    ":" ++ digits 2 (time / 60 % 60) ++ ":" ++ digits 2 (time % 60) ++ "." ++ digits 9 m.nanos ++
    "+00:00"

end Moment

end LanguageHost
