/-! Points in time as text, in UTC and by the Gregorian calendar. -/

namespace Rungs.Clock

structure Date where
  year : Nat
  month : Nat
  day : Nat
deriving DecidableEq, Repr, Inhabited

/-- The date a number of days after the first of January 1970. Years are counted from March on, so
that the day which only some years have is the last one. -/
def dateAfter (days : Nat) : Date :=
  let shifted := days + 719468
  let century := shifted % 146097
  let year := (century - century / 1460 + century / 36524 - century / 146096) / 365
  let ordinal := century - (365 * year + year / 4 - year / 100)
  let month := (5 * ordinal + 2) / 153
  let fromMarch := year + 400 * (shifted / 146097)
  { year := if month < 10 then fromMarch else fromMarch + 1
    month := if month < 10 then month + 3 else month - 9
    day := ordinal - (153 * month + 2) / 5 + 1 }

/-- A number with zeros in front up to a width. -/
def padded (width n : Nat) : String :=
  let digits := Nat.toDigits 10 n
  String.ofList (List.replicate (width - digits.length) '0' ++ digits)

/-- A part of a second in thousandths, millionths or billionths, whichever come out even first. -/
def fraction (nanoseconds : Nat) : String :=
  if nanoseconds = 0 then ""
  else if nanoseconds % 1000000 = 0 then "." ++ padded 3 (nanoseconds / 1000000)
  else if nanoseconds % 1000 = 0 then "." ++ padded 6 (nanoseconds / 1000)
  else "." ++ padded 9 nanoseconds

/-- The time a number of seconds, and of nanoseconds, after the beginning of 1970. -/
def text (seconds nanoseconds : Nat) : String :=
  let date := dateAfter (seconds / 86400)
  let time := seconds % 86400
  padded 4 date.year ++ "-" ++ padded 2 date.month ++ "-" ++ padded 2 date.day ++ "T" ++
    padded 2 (time / 3600) ++ ":" ++ padded 2 (time / 60 % 60) ++ ":" ++ padded 2 (time % 60) ++
    fraction nanoseconds ++ "Z"

end Rungs.Clock
