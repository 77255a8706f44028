import RegisterMap.Document.Node
import RegisterMap.Document.TomlText.Strings
import RegisterMap.Numeral.Binary64

namespace RegisterMap.TomlText

/-- Digits, each but the first with at most one underscore before it. The digits come back without
the underscores. -/
def digitRun (base : Nat) : Reader (List Char)
  | c :: cs => if (digitValue? base c).isSome then some (more [c] cs) else none
  | [] => none
where
  more (read : List Char) : List Char → List Char × List Char
    | '_' :: c :: rest =>
      if (digitValue? base c).isSome then more (c :: read) rest else (read.reverse, '_' :: c :: rest)
    | c :: rest => if (digitValue? base c).isSome then more (c :: read) rest else (read.reverse, c :: rest)
    | [] => (read.reverse, [])

/-- The number that digits stand for. -/
def natOf (base : Nat) (digits : List Char) : Nat :=
  digits.foldl (fun n c => n * base + (digitValue? base c).getD 0) 0

/-- The sign of a number, where one is written. -/
def signAfter : List Char → Bool × List Char
  | '+' :: cs => (false, cs)
  | '-' :: cs => (true, cs)
  | cs => (false, cs)

/-- The digits of a decimal number before its point. Zero is followed by no other digit. -/
def wholeDigits : Reader (List Char)
  | '0' :: cs => some (['0'], cs)
  | cs => digitRun 10 cs

/-- Integers are kept in 64 bits, one of them for the sign. -/
def integerNode (negative : Bool) (n : Nat) : Option Node :=
  let half := UInt64.size / 2
  if negative then (if n ≤ half then some (.int (-(n : Int))) else none)
  else if n < half then some (.int n) else none

def basedInteger (base : Nat) (cs : List Char) : Option (Node × List Char) := do
  let (digits, rest) ← digitRun base cs
  let node ← integerNode false (natOf base digits)
  return (node, rest)

/-- An integer: decimal with a sign, or in another base without one. -/
def integer : Reader Node
  | '0' :: 'x' :: cs => basedInteger 16 cs
  | '0' :: 'o' :: cs => basedInteger 8 cs
  | '0' :: 'b' :: cs => basedInteger 2 cs
  | cs => do
    let (negative, cs) := signAfter cs
    let (digits, rest) ← wholeDigits cs
    let node ← integerNode negative (natOf 10 digits)
    return (node, rest)

/-- The exponent of a number: its sign and its digits. -/
def exponent : Reader (Bool × List Char)
  | c :: cs => do
    guard (c = 'e' ∨ c = 'E')
    let (negative, cs) := signAfter cs
    let (digits, rest) ← digitRun 10 cs
    return ((negative, digits), rest)
  | [] => none

/-- The places after the point of a number. -/
def fraction : Reader (List Char)
  | '.' :: cs => digitRun 10 cs
  | _ => none

/-- A number of double precision, from its digits and the place of the last one. A negative number
may be too large for one, a positive one may not. -/
def doubleNode (negative : Bool) (digits : Nat) (place : Int) : Option Node :=
  let size : Int := (Nat.toDigits 10 digits).length + place
  let x :=
    if digits = 0 ∨ size < -400 then some Binary64.zero
    else if 400 < size then none
    else if 0 ≤ place then Binary64.ofRatio (digits * Nat.pow 10 place.toNat) 1
    else Binary64.ofRatio digits (Nat.pow 10 (-place).toNat)
  match x with
  | some x => some (.real (withSign negative x.positional))
  | none => if negative then some (.real "-inf") else none

/-- A number with a point or an exponent, or with both. -/
def double (cs : List Char) : Option (Node × List Char) := do
  let (negative, cs) := signAfter cs
  let (whole, rest) ← wholeDigits cs
  match fraction rest with
  | some (places, rest) =>
    let (shift, rest) := match exponent rest with
      | some ((below, powers), rest) => (signed below (natOf 10 powers), rest)
      | none => (0, rest)
    let node ← doubleNode negative (natOf 10 (whole ++ places)) (shift - (places.length : Int))
    return (node, rest)
  | none =>
    let ((below, powers), rest) ← exponent rest
    let node ← doubleNode negative (natOf 10 whole) (signed below (natOf 10 powers))
    return (node, rest)
where
  signed (below : Bool) (n : Nat) : Int := if below then -(n : Int) else n

/-- The words for what is no number in the proper sense. -/
def specialDouble (cs : List Char) : Option (Node × List Char) :=
  let (negative, cs) := signAfter cs
  match cs with
  | 'i' :: 'n' :: 'f' :: rest => some (.real (withSign negative "inf"), rest)
  | 'n' :: 'a' :: 'n' :: rest => some (.real "NaN", rest)
  | _ => none

end RegisterMap.TomlText
