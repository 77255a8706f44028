import RegisterMap.Document.Node
import RegisterMap.Numeral.Binary64
import RegisterMap.Numeral.Reading

namespace RegisterMap.JsonText

/-- Reads JSON text from left to right. A reader gives what follows its value, or nothing where
the text breaks its rules; the value then holds what was read until there. -/
abbrev Rest := Option (List Char)

def isSpace (c : Char) : Bool := c == ' ' || c == '\n' || c == '\t' || c == '\r'

def skipSpace (cs : List Char) : List Char := cs.dropWhile isSpace

/-- What follows a word, if the text begins with it. -/
def afterWord : List Char → List Char → Rest
  | [], cs => some cs
  | w :: word, c :: cs => if w = c then afterWord word cs else none
  | _ :: _, [] => none

/-- Four hexadecimal digits. -/
def fourHex : List Char → Option (Nat × List Char)
  | a :: b :: c :: d :: rest => do
    let a ← digitValue? 16 a
    let b ← digitValue? 16 b
    let c ← digitValue? 16 c
    let d ← digitValue? 16 d
    return (((a * 16 + b) * 16 + c) * 16 + d, rest)
  | _ => none

/-- The second half of a character beyond 16 bits; the first half may not stand alone. -/
def secondHalf (first : Nat) : List Char → Option (Char × List Char)
  | '\\' :: 'u' :: cs => do
    let (second, rest) ← fourHex cs
    if 0xdc00 ≤ second ∧ second ≤ 0xdfff then
      return (Char.ofNat (0x10000 + (first - 0xd800) * 0x400 + (second - 0xdc00)), rest)
    else none
  | _ => none

/-- The character that an escape stands for; the backslash is read. -/
def escaped : List Char → Option (Char × List Char)
  | '"' :: rest => some ('"', rest)
  | '\\' :: rest => some ('\\', rest)
  | '/' :: rest => some ('/', rest)
  | 'b' :: rest => some ('\x08', rest)
  | 'f' :: rest => some ('\x0c', rest)
  | 'n' :: rest => some ('\n', rest)
  | 'r' :: rest => some ('\r', rest)
  | 't' :: rest => some ('\t', rest)
  | 'u' :: cs => do
    let (code, rest) ← fourHex cs
    if 0xdc00 ≤ code ∧ code ≤ 0xdfff then none
    else if 0xd800 ≤ code ∧ code ≤ 0xdbff then secondHalf code rest
    else return (Char.ofNat code, rest)
  | _ => none

theorem fourHex_length {cs rest : List Char} {n : Nat} (h : fourHex cs = some (n, rest)) :
    rest.length < cs.length := by
  unfold fourHex at h
  split at h
  · simp only [bind, Option.bind_eq_some_iff, pure, Option.some.injEq, Prod.mk.injEq] at h
    obtain ⟨_, _, _, _, _, _, _, _, _, rfl⟩ := h
    simp only [List.length_cons]
    omega
  · simp at h

theorem secondHalf_length {first : Nat} {cs rest : List Char} {c : Char}
    (h : secondHalf first cs = some (c, rest)) : rest.length < cs.length := by
  unfold secondHalf at h
  split at h
  · simp only [bind, Option.bind_eq_some_iff] at h
    obtain ⟨⟨_, after⟩, read, h⟩ := h
    have := fourHex_length read
    simp only at h
    split at h
    · obtain ⟨_, rfl⟩ := Prod.mk.inj (Option.some.inj h)
      simp only [List.length_cons]
      omega
    · simp at h
  · simp at h

theorem escaped_length {cs rest : List Char} {c : Char} (h : escaped cs = some (c, rest)) :
    rest.length < cs.length := by
  unfold escaped at h
  split at h
  case h_9 =>
    simp only [bind, Option.bind_eq_some_iff] at h
    obtain ⟨⟨_, after⟩, read, h⟩ := h
    have := fourHex_length read
    simp only at h
    split at h
    · simp at h
    · split at h
      · have := secondHalf_length h
        simp only [List.length_cons]
        omega
      · cases h
        simp only [List.length_cons]
        omega
  case h_10 => simp at h
  all_goals
    cases h
    simp

/-- The characters up to the closing quote; the opening one is read. -/
def stringAfter (read : List Char) : List Char → Option (String × List Char)
  | [] => none
  | '"' :: rest => some (String.ofList read.reverse, rest)
  | '\\' :: cs =>
    match _h : escaped cs with
    | some (c, rest) => stringAfter (c :: read) rest
    | none => none
  | c :: rest => if c.toNat < 0x20 then none else stringAfter (c :: read) rest
termination_by cs => cs.length
decreasing_by
  · have := escaped_length _h
    simp only [List.length_cons]
    omega
  · simp

/-- Digits of a number as long as it fits in 64 bits, and the digits after that. -/
def wordDigits (value : Nat) : List Char → Nat × List Char
  | [] => (value, [])
  | c :: rest =>
    let next := value * 10 + (c.toNat - '0'.toNat)
    if next < UInt64.size then wordDigits next rest else (value, c :: rest)

/-- A number in double precision: the digits as one word, times a power of ten that is rounded by
itself. Far below one the power is taken in steps. -/
def doubleOf (significand : Binary64) (exponent : Int) : Option Binary64 :=
  if 0 ≤ exponent then
    if exponent ≤ 308 then significand.mul (Binary64.powerOfTen exponent.toNat)
    else if significand.significand = 0 then some .zero
    else none
  else if -308 ≤ exponent then significand.div (Binary64.powerOfTen (-exponent).toNat)
  else if significand.significand = 0 then some .zero
  else do
    let smaller ← significand.div (Binary64.powerOfTen 308)
    doubleOf smaller (exponent + 308)
termination_by (-exponent).toNat

/-- A number that is no integer, or too large for one. -/
def double (negative : Bool) (significand : Nat) (exponent : Int) : Option Node := do
  let whole ← Binary64.ofRatio significand 1
  let x ← doubleOf whole exponent
  return .real (withSign negative x.scientific)

/-- The exponent of a number: its sign and its digits. -/
def exponentAfter : List Char → Option (Option (Bool × List Char) × List Char)
  | c :: cs =>
    if c = 'e' ∨ c = 'E' then
      let (negative, cs) := match cs with
        | '+' :: cs => (false, cs)
        | '-' :: cs => (true, cs)
        | cs => (false, cs)
      let digits := cs.takeWhile Char.isDigit
      if digits.isEmpty then none else some (some (negative, digits), cs.dropWhile Char.isDigit)
    else some (none, c :: cs)
  | [] => some (none, [])

/-- The places after the point of a number. -/
def fractionAfter : List Char → Option (Option (List Char) × List Char)
  | '.' :: cs =>
    let digits := cs.takeWhile Char.isDigit
    if digits.isEmpty then none else some (some digits, cs.dropWhile Char.isDigit)
  | cs => some (none, cs)

private def natOf (digits : List Char) : Nat :=
  digits.foldl (fun n c => n * 10 + (c.toNat - '0'.toNat)) 0

/-- The value of a number from its parts. An integer has no point and no exponent, and it fits in
64 bits, with a sign in 63; anything else is a number of double precision, which may be too large
to be one. -/
def numberOf (negative : Bool) (digits : List Char) (fraction : Option (List Char))
    (exponent : Option (Bool × List Char)) : Option Node :=
  let (head, surplus) := wordDigits 0 digits
  if fraction.isNone && exponent.isNone && surplus.isEmpty &&
      (!negative || (head != 0 && decide (head ≤ UInt64.size / 2))) then
    some (.int (if negative then -(head : Int) else head))
  else
    let places := fraction.getD []
    let (significand, dropped) := wordDigits head places
    let shift : Int := (surplus.length : Int) - ((places.length - dropped.length : Nat) : Int)
    match exponent with
    | none => double negative significand shift
    | some (below, powers) =>
      if natOf powers < UInt32.size / 2 then
        double negative significand (shift + (if below then -(natOf powers : Int) else natOf powers))
      else if significand = 0 || below then some (.real (withSign negative "0.0"))
      else none

/-- A number without its sign. -/
def unsignedNumber (negative : Bool) (cs : List Char) : Option (Node × List Char) := do
  let digits := cs.takeWhile Char.isDigit
  guard (!digits.isEmpty && (digits.length == 1 || digits.head? != some '0'))
  let (fraction, rest) ← fractionAfter (cs.dropWhile Char.isDigit)
  let (exponent, rest) ← exponentAfter rest
  let node ← numberOf negative digits fraction exponent
  return (node, rest)

def number : List Char → Option (Node × List Char)
  | '-' :: cs => unsignedNumber true cs
  | cs => unsignedNumber false cs

/-- Reads a number or a word, given by what it stands for. -/
def scalar : List Char → Node × Rest
  | 'n' :: cs => word .null "ull" cs
  | 't' :: cs => word (.bool true) "rue" cs
  | 'f' :: cs => word (.bool false) "alse" cs
  | '"' :: cs =>
    match stringAfter [] cs with
    | some (s, rest) => (.text s, some rest)
    | none => (.broken, none)
  | cs =>
    match number cs with
    | some (node, rest) => (node, some rest)
    | none => (.broken, none)
where
  word (node : Node) (ending : String) (cs : List Char) : Node × Rest :=
    match afterWord ending.toList cs with
    | some rest => (node, some rest)
    | none => (.broken, none)

mutual

/-- Reads a value. Lists and records may lie in each other `depth` deep. -/
def value (fuel depth : Nat) (cs : List Char) : Node × Rest :=
  match fuel with
  | 0 => (.broken, none)
  | fuel + 1 =>
    match skipSpace cs with
    | '[' :: cs =>
      match depth with
      | 0 => (.list [] false, none)
      | depth + 1 =>
        match skipSpace cs with
        | ']' :: rest => (.list [] true, some rest)
        | cs =>
          let (found, rest) := items fuel depth cs
          (.list found rest.isSome, rest)
    | '\x7b' :: cs =>
      match depth with
      | 0 => (.record [] false, none)
      | depth + 1 =>
        match skipSpace cs with
        | '\x7d' :: rest => (.record [] true, some rest)
        | '"' :: cs =>
          let (found, rest) := entries fuel depth cs
          (.record found rest.isSome, rest)
        | cs => (.unkeyed (value fuel depth cs).1, none)
    | cs => scalar cs

/-- Reads the items of a list up to its end. -/
def items (fuel depth : Nat) (cs : List Char) : List Node × Rest :=
  match fuel with
  | 0 => ([.broken], none)
  | fuel + 1 =>
    match value fuel depth cs with
    | (node, none) => ([node], none)
    | (node, some rest) =>
      match skipSpace rest with
      | ']' :: rest => ([node], some rest)
      | ',' :: rest =>
        let (others, rest) := items fuel depth rest
        (node :: others, rest)
      | _ => ([node], none)

/-- Reads the entries of a record up to its end; the quote that opens the first key is read. -/
def entries (fuel depth : Nat) (cs : List Char) : List (String × Node) × Rest :=
  match fuel with
  | 0 => ([], none)
  | fuel + 1 =>
    match stringAfter [] cs with
    | none => ([], none)
    | some (key, rest) =>
      match skipSpace rest with
      | ':' :: rest =>
        match value fuel depth rest with
        | (node, none) => ([(key, node)], none)
        | (node, some rest) =>
          match skipSpace rest with
          | '\x7d' :: rest => ([(key, node)], some rest)
          | ',' :: rest =>
            match skipSpace rest with
            | '"' :: rest =>
              let (others, rest) := entries fuel depth rest
              ((key, node) :: others, rest)
            | _ => ([(key, node)], none)
          | _ => ([(key, node)], none)
      | _ => ([(key, .broken)], none)

end

/-- How deep lists and records may lie in each other. -/
def nesting : Nat := 127

/-- Reads a document: its value, and whether nothing but white space follows. -/
def read (text : String) : Node × Bool :=
  let cs := text.toList
  match value (2 * cs.length + 2) nesting cs with
  | (node, some rest) => (node, (skipSpace rest).isEmpty)
  | (node, none) => (node, false)

end RegisterMap.JsonText
