namespace RegisterMap

/-- The digits of a number without leading zeros, small letters from ten on. -/
def hexDigits (n : Nat) : List Char := Nat.toDigits 16 n

/-- A decimal number. -/
def decimal (n : Nat) : String := Nat.repr n

/-- A plain hexadecimal literal: `0x0`, `0xff`. -/
def hexLiteral (n : Nat) : String := String.ofList ('0' :: 'x' :: hexDigits n)

/-- Zeros in front of digits, up to a least number of them. -/
def padZeros (least : Nat) (digits : List Char) : List Char :=
  List.replicate (least - digits.length) '0' ++ digits

/-- A hexadecimal literal of at least `least` digits. -/
def hexPadded (least n : Nat) : String :=
  String.ofList ('0' :: 'x' :: padZeros least (hexDigits n))

/-- Sets a mark after every fourth character, but none at the end. -/
def markFours : List Char → List Char
  | a :: b :: c :: d :: e :: rest => a :: b :: c :: d :: '_' :: markFours (e :: rest)
  | rest => rest

/-- Groups of four digits, counted from the right. -/
def groupFours (digits : List Char) : List Char := (markFours digits.reverse).reverse

/-- A literal for readers: a single digit as it is, else hexadecimal in groups of four. -/
def hexGrouped (n : Nat) : String :=
  if 9 < n then String.ofList ('0' :: 'x' :: groupFours (hexDigits n)) else decimal n

end RegisterMap
