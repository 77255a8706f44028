import RegisterMap.Numeral
import RegisterMap.Text.Blank
import RegisterMap.Text.Quoted

namespace RegisterMap

/-- Why a text is no 64-bit number. -/
inductive NumeralFault where
  | empty
  | badDigit
  | tooLarge
  deriving DecidableEq, Repr

def NumeralFault.message : NumeralFault → String
  | .empty => "cannot parse integer from empty string"
  | .badDigit => "invalid digit found in string"
  | .tooLarge => "number too large to fit in target type"

/-- The value of a digit below `base`; letters of either case count from ten on. -/
def digitValue? (base : Nat) (c : Char) : Option Nat :=
  let value? :=
    if '0' ≤ c ∧ c ≤ '9' then some (c.toNat - '0'.toNat)
    else if 'a' ≤ c ∧ c ≤ 'z' then some (c.toNat - 'a'.toNat + 10)
    else if 'A' ≤ c ∧ c ≤ 'Z' then some (c.toNat - 'A'.toNat + 10)
    else none
  value?.filter (· < base)

/-- Reads digits after `value`. The first character that is no digit, or that takes the number
past 64 bits, is what the failure tells of. -/
def digitsAfter (base value : Nat) : List Char → Except NumeralFault Nat
  | [] => .ok value
  | c :: rest =>
    match digitValue? base c with
    | none => .error .badDigit
    | some digit =>
      if value * base + digit < UInt64.size then digitsAfter base (value * base + digit) rest
      else .error .tooLarge

/-- Digits with at most one plus sign before them. -/
def unsignedDigits (base : Nat) : List Char → Except NumeralFault Nat
  | [] => .error .empty
  | ['+'] => .error .badDigit
  | '+' :: digits => digitsAfter base 0 digits
  | digits => digitsAfter base 0 digits

/-- A number in decimal, in hexadecimal after `0x`, or in binary after `0b`. -/
def basedDigits : List Char → Except NumeralFault Nat
  | '0' :: 'x' :: digits => unsignedDigits 16 digits
  | '0' :: 'X' :: digits => unsignedDigits 16 digits
  | '0' :: 'b' :: digits => unsignedDigits 2 digits
  | '0' :: 'B' :: digits => unsignedDigits 2 digits
  | digits => unsignedDigits 10 digits

/-- Reads a 64-bit number. White space around it and underscores anywhere do not count, so
an underscore may even part the `0` from the `x`. -/
def readNumeral (text : String) : Except NumeralFault Nat :=
  basedDigits ((trimBlank text.toList).filter (· ≠ '_'))

/-- The message about a text that is no number. -/
def numeralMessage (text : String) (fault : NumeralFault) : String :=
  "invalid integer " ++ quoted text ++ ": " ++ fault.message

theorem digitsAfter_lt {base value : Nat} {digits : List Char} {n : Nat} (small : value < UInt64.size)
    (h : digitsAfter base value digits = .ok n) : n < UInt64.size := by
  induction digits generalizing value with
  | nil => simp only [digitsAfter, Except.ok.injEq] at h; exact h ▸ small
  | cons c rest ih =>
    simp only [digitsAfter] at h
    split at h
    · simp at h
    · split at h
      · exact ih ‹_› h
      · simp at h

theorem unsignedDigits_lt {base : Nat} {digits : List Char} {n : Nat}
    (h : unsignedDigits base digits = .ok n) : n < UInt64.size := by
  unfold unsignedDigits at h
  split at h
  · simp at h
  · simp at h
  · exact digitsAfter_lt (by decide) h
  · exact digitsAfter_lt (by decide) h

/-- What is read fits in 64 bits. -/
theorem readNumeral_lt {text : String} {n : Nat} (h : readNumeral text = .ok n) : n < UInt64.size := by
  unfold readNumeral basedDigits at h
  split at h <;> exact unsignedDigits_lt h

end RegisterMap
