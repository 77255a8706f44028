import RegisterMap.Document.Node
import RegisterMap.Document.TomlText.Numbers
import RegisterMap.Numeral

namespace RegisterMap.TomlText

/-- As many decimal digits as told. -/
def fixedDigits (value : Nat) : Nat → Reader Nat
  | 0, cs => some (value, cs)
  | count + 1, c :: cs => do
    let digit ← digitValue? 10 c
    fixedDigits (value * 10 + digit) count cs
  | _ + 1, [] => none

/-- Two digits of a number between bounds. -/
def pair (low high : Nat) (cs : List Char) : Option (Nat × List Char) := do
  let (n, rest) ← fixedDigits 0 2 cs
  guard (low ≤ n ∧ n ≤ high)
  return (n, rest)

def afterMark (mark : Char) : List Char → Option (List Char)
  | c :: rest => if c = mark then some rest else none
  | [] => none

def isLeapYear (year : Nat) : Bool := year % 4 = 0 && (year % 100 ≠ 0 || year % 400 = 0)

def daysOfMonth (year month : Nat) : Nat :=
  if month = 2 then (if isLeapYear year then 29 else 28)
  else if month = 4 ∨ month = 6 ∨ month = 9 ∨ month = 11 then 30
  else 31

/-- A number with leading zeros, up to a width. -/
def padded (width n : Nat) : String := String.ofList (padZeros width (Nat.toDigits 10 n))

/-- A date of the calendar, as its standard text. -/
def date (cs : List Char) : Option (String × List Char) := do
  let (year, cs) ← fixedDigits 0 4 cs
  let cs ← afterMark '-' cs
  let (month, cs) ← pair 1 12 cs
  let cs ← afterMark '-' cs
  let (day, rest) ← pair 1 31 cs
  guard (day ≤ daysOfMonth year month)
  return (padded 4 year ++ "-" ++ padded 2 month ++ "-" ++ padded 2 day, rest)

/-- The part of a second. Nine digits of it count, and zeros at the end are not shown. -/
def secondPart (cs : List Char) : String × List Char :=
  match cs with
  | '.' :: more =>
    let digits := more.takeWhile Char.isDigit
    if digits.isEmpty then ("", cs)
    else
      let shown := ((digits.take 9).reverse.dropWhile (· == '0')).reverse
      (if shown.isEmpty then "" else String.ofList ('.' :: shown), more.dropWhile Char.isDigit)
  | _ => ("", cs)

/-- A time of the day. A minute may end in a leap second. -/
def time (cs : List Char) : Option (String × List Char) := do
  let (hour, cs) ← pair 0 23 cs
  let cs ← afterMark ':' cs
  let (minute, cs) ← pair 0 59 cs
  let cs ← afterMark ':' cs
  let (second, cs) ← pair 0 60 cs
  let (part, rest) := secondPart cs
  return (padded 2 hour ++ ":" ++ padded 2 minute ++ ":" ++ padded 2 second ++ part, rest)

/-- The distance to universal time, if one is written. -/
def offset (cs : List Char) : String × List Char :=
  match cs with
  | [] => ("", [])
  | c :: more =>
    if c = 'Z' ∨ c = 'z' then ("Z", more)
    else if c = '+' ∨ c = '-' then
      match distance more with
      | some ((hours, minutes), rest) =>
        let sign := if c = '+' ∨ hours * 60 + minutes = 0 then "+" else "-"
        (sign ++ padded 2 hours ++ ":" ++ padded 2 minutes, rest)
      | none => ("", cs)
    else ("", cs)
where
  distance (cs : List Char) : Option ((Nat × Nat) × List Char) := do
    let (hours, cs) ← pair 0 23 cs
    let cs ← afterMark ':' cs
    let (minutes, rest) ← pair 0 59 cs
    return ((hours, minutes), rest)

/-- What follows the mark between a date and a time. -/
def afterDelimiter : List Char → Option (List Char)
  | c :: rest => if c = 'T' ∨ c = 't' ∨ c = ' ' then some rest else none
  | [] => none

/-- A date, a time, or a date with a time and perhaps an offset. -/
def moment (cs : List Char) : Option (Node × List Char) :=
  match date cs with
  | some (day, rest) =>
    match (afterDelimiter rest).bind time with
    | some (hour, rest) =>
      let (distance, rest) := offset rest
      some (.date (day ++ "T" ++ hour ++ distance), rest)
    | none => some (.date day, rest)
  | none =>
    match time cs with
    | some (hour, rest) => some (.date hour, rest)
    | none => none

end RegisterMap.TomlText
