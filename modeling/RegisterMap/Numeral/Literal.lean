import RegisterMap.Numeral

namespace RegisterMap

/-- A number as it is written in an artifact. -/
inductive Literal where
  | decimal (n : Nat)
  | hex (n : Nat)
  /-- Hexadecimal in groups of four digits, a single digit in decimal. -/
  | grouped (n : Nat)
  /-- Hexadecimal of four digits at least. -/
  | padded (n : Nat)
  deriving DecidableEq, Repr

namespace Literal

/-- What is meant, however it is written. -/
def value : Literal → Nat
  | decimal n | hex n | grouped n | padded n => n

def text : Literal → String
  | decimal n => RegisterMap.decimal n
  | hex n => hexLiteral n
  | grouped n => hexGrouped n
  | padded n => hexPadded 4 n

instance : ToString Literal := ⟨text⟩

end Literal

end RegisterMap
