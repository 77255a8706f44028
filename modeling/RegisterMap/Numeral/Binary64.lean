import RegisterMap.Numeral

namespace RegisterMap

/-- A nonnegative finite number of double precision, `significand * 2 ^ exponent`. The significand
is below `2 ^ 53`, and at least `2 ^ 52` unless the exponent is the least one. -/
structure Binary64 where
  significand : Nat
  exponent : Int
  deriving DecidableEq, Repr

namespace Binary64

def zero : Binary64 := ⟨0, 0⟩

/-- The least significand of full length, `2 ^ 52`. -/
def leastNormal : Nat := 1 <<< 52

/-- A ratio as numerator and denominator after a factor `2 ^ e`. -/
def scale (e : Int) (num den : Nat) : Nat × Nat :=
  if 0 ≤ e then (num <<< e.toNat, den) else (num, den <<< (-e).toNat)

/-- The quotient rounded to the nearest whole number, halves to the even one. -/
def divideToEven (num den : Nat) : Nat :=
  let q := num / den
  let r := num % den
  if den < 2 * r ∨ (2 * r = den ∧ q % 2 = 1) then q + 1 else q

/-- The nearest number to a ratio, if it is not beyond the largest one. -/
def ofRatio (num den : Nat) : Option Binary64 :=
  if num = 0 then some zero
  else
    let guess : Int := (num.log2 : Int) - (den.log2 : Int) - 53
    let (n, d) := scale (-guess) num den
    let e := max (if 2 * leastNormal ≤ n / d then guess + 1 else guess) (-1074)
    let (n, d) := scale (-e) num den
    let q := divideToEven n d
    let result : Binary64 := if q = 2 * leastNormal then ⟨leastNormal, e + 1⟩ else ⟨q, e⟩
    if result.exponent ≤ 971 then some result else none

/-- The number as a ratio. -/
def ratio (x : Binary64) : Nat × Nat := scale x.exponent x.significand 1

def mul (x y : Binary64) : Option Binary64 :=
  ofRatio (x.ratio.1 * y.ratio.1) (x.ratio.2 * y.ratio.2)

/-- The quotient by a number that is not zero. -/
def div (x y : Binary64) : Option Binary64 :=
  ofRatio (x.ratio.1 * y.ratio.2) (x.ratio.2 * y.ratio.1)

/-- The power of ten nearest to `10 ^ n`, for an exponent that double precision can hold. -/
def powerOfTen (n : Nat) : Binary64 := (ofRatio (Nat.pow 10 n) 1).getD zero

/-- The ratios that round to a nonzero number lie between these two. They are numerators over the
denominator that comes last; in the middle stands the number itself. -/
def interval (x : Binary64) : Nat × Nat × Nat × Nat :=
  let low := if x.significand = leastNormal ∧ -1074 < x.exponent then 4 * x.significand - 1
    else 4 * x.significand - 2
  let (factor, den) := scale (x.exponent - 2) 1 1
  (low * factor, 4 * x.significand * factor, (4 * x.significand + 2) * factor, den)

/-- The place of the first decimal digit of a ratio: `10 ^ (p - 1) ≤ num / den < 10 ^ p`. -/
def decimalPlace (num den : Nat) : Int :=
  if den ≤ num then (Nat.toDigits 10 (num / den)).length
  else
    let leading := (List.range 400).find? fun j => decide (den ≤ num * Nat.pow 10 j)
    1 - (leading.getD 0 : Nat)

/-- The decimal `digits * 10 ^ place` of `count` digits that rounds to the number, the nearer one
if two do. -/
def decimalOf (x : Binary64) (count : Nat) : Option (Nat × Int) :=
  let (low, mid, high, den) := x.interval
  let place := decimalPlace mid den - count
  -- numerators and denominators in units of the last digit
  let up := Nat.pow 10 (-place).toNat
  let unit := den * Nat.pow 10 place.toNat
  let inside (c : Nat) : Bool :=
    if x.significand % 2 = 0 then low * up ≤ c * unit && c * unit ≤ high * up
    else low * up < c * unit && c * unit < high * up
  let below := mid * up / unit
  let above := below + 1
  match inside below, inside above with
  | true, true =>
    if mid * up - below * unit ≤ above * unit - mid * up then some (below, place)
    else some (above, place)
  | true, false => some (below, place)
  | false, true => some (above, place)
  | false, false => none

/-- The fewest digits that read back as the number, and the place of the last one. -/
def shortest (x : Binary64) : List Char × Int :=
  let found := (List.range 17).findSome? fun n => x.decimalOf (n + 1)
  let (digits, place) := found.getD (0, 0)
  let text := Nat.toDigits 10 digits
  let kept := (text.reverse.dropWhile (· == '0')).reverse
  (kept, place + (text.length - kept.length : Nat))

private def zeros (n : Int) : List Char := List.replicate n.toNat '0'

/-- All places written out, and at least one after the point. -/
def positional (x : Binary64) : String :=
  if x.significand = 0 then "0.0"
  else
    let (digits, place) := x.shortest
    let point : Int := digits.length + place
    String.ofList <|
      if 0 ≤ place then digits ++ zeros place ++ ['.', '0']
      else if 0 < point then digits.take point.toNat ++ '.' :: digits.drop point.toNat
      else '0' :: '.' :: zeros (-point) ++ digits

/-- Written out from a hundred thousandth to below `10 ^ 16`, else with an exponent. -/
def scientific (x : Binary64) : String :=
  if x.significand = 0 then "0.0"
  else
    let (digits, place) := x.shortest
    let point : Int := digits.length + place
    if -5 < point ∧ point ≤ 16 then x.positional
    else
      let mantissa := match digits with
        | [d] => [d]
        | d :: rest => d :: '.' :: rest
        | [] => []
      String.ofList mantissa ++ "e" ++ toString (point - 1)

end Binary64

/-- A text with a minus sign before it. -/
def withSign (negative : Bool) (text : String) : String := if negative then "-" ++ text else text

end RegisterMap
