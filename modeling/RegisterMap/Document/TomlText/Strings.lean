import RegisterMap.Numeral.Reading

namespace RegisterMap.TomlText

/-- A reader takes a value off the front of a text, if the text begins with one. -/
abbrev Reader (α : Type) := List Char → Option (α × List Char)

def isSpace (c : Char) : Bool := c == ' ' || c == '\t'

def skipSpace (cs : List Char) : List Char := cs.dropWhile isSpace

/-- What follows the end of a line. A return counts only together with a line feed. -/
def afterNewline : List Char → Option (List Char)
  | '\n' :: rest => some rest
  | '\r' :: '\n' :: rest => some rest
  | _ => none

/-- A character that may stand in a comment: no control character other than the tab. -/
def isPlain (c : Char) : Bool := c == '\t' || (0x20 ≤ c.toNat && c.toNat ≠ 0x7f)

/-- Skips white space and ends of lines. -/
def skipLines : List Char → List Char
  | ' ' :: rest => skipLines rest
  | '\t' :: rest => skipLines rest
  | '\n' :: rest => skipLines rest
  | '\r' :: '\n' :: rest => skipLines rest
  | cs => cs

/-- As many hexadecimal digits as told. -/
def hexDigitsAfter (value : Nat) : Nat → Reader Nat
  | 0, cs => some (value, cs)
  | count + 1, c :: cs => do
    let digit ← digitValue? 16 c
    hexDigitsAfter (value * 16 + digit) count cs
  | _ + 1, [] => none

/-- The character with a code, which must not be half of a pair. -/
def charOf (code : Nat) : Option Char := if code.isValidChar then some (Char.ofNat code) else none

/-- A character by its code in as many digits as told. -/
def codeAfter (count : Nat) (cs : List Char) : Option (Char × List Char) := do
  let (code, rest) ← hexDigitsAfter 0 count cs
  let c ← charOf code
  return (c, rest)

/-- The character that an escape stands for; the backslash is read. -/
def escaped : Reader Char
  | 'b' :: rest => some ('\x08', rest)
  | 't' :: rest => some ('\t', rest)
  | 'n' :: rest => some ('\n', rest)
  | 'f' :: rest => some ('\x0c', rest)
  | 'r' :: rest => some ('\r', rest)
  | '"' :: rest => some ('"', rest)
  | '\\' :: rest => some ('\\', rest)
  | 'u' :: cs => codeAfter 4 cs
  | 'U' :: cs => codeAfter 8 cs
  | _ => none

theorem hexDigitsAfter_length {value count n : Nat} {cs rest : List Char}
    (h : hexDigitsAfter value count cs = some (n, rest)) : rest.length ≤ cs.length := by
  induction count generalizing value cs with
  | zero =>
    simp only [hexDigitsAfter, Option.some.injEq, Prod.mk.injEq] at h
    exact h.2 ▸ Nat.le_refl _
  | succ count ih =>
    cases cs with
    | nil => simp [hexDigitsAfter] at h
    | cons c cs =>
      simp only [hexDigitsAfter, bind, Option.bind_eq_some_iff] at h
      obtain ⟨_, _, h⟩ := h
      exact Nat.le_succ_of_le (ih h)

theorem codeAfter_length {count : Nat} {cs rest : List Char} {c : Char}
    (h : codeAfter count cs = some (c, rest)) : rest.length ≤ cs.length := by
  simp only [codeAfter, bind, Option.bind_eq_some_iff, pure, Option.some.injEq, Prod.mk.injEq] at h
  obtain ⟨⟨_, after⟩, read, _, _, _, rfl⟩ := h
  exact hexDigitsAfter_length read

theorem escaped_length {cs rest : List Char} {c : Char} (h : escaped cs = some (c, rest)) :
    rest.length < cs.length := by
  unfold escaped at h
  split at h
  case h_8 | h_9 => exact Nat.lt_succ_of_le (codeAfter_length h)
  case h_10 => simp at h
  all_goals
    cases h
    simp

theorem skipLines_length (cs : List Char) : (skipLines cs).length ≤ cs.length := by
  fun_induction skipLines cs with
  | case5 => exact Nat.le_refl _
  | _ => simp only [List.length_cons]; omega

theorem afterNewline_length {cs rest : List Char} (h : afterNewline cs = some rest) :
    rest.length < cs.length := by
  unfold afterNewline at h
  split at h
  · cases h
    simp
  · cases h
    simp only [List.length_cons]
    omega
  · simp at h

theorem skipSpace_length (cs : List Char) : (skipSpace cs).length ≤ cs.length :=
  (List.dropWhile_suffix _).length_le

/-- The characters of a string on one line up to its closing quote. -/
def basicAfter (read : List Char) : List Char → Option (String × List Char)
  | [] => none
  | '"' :: rest => some (String.ofList read.reverse, rest)
  | '\\' :: cs =>
    match _h : escaped cs with
    | some (c, rest) => basicAfter (c :: read) rest
    | none => none
  | c :: rest => if isPlain c then basicAfter (c :: read) rest else none
termination_by cs => cs.length
decreasing_by
  · have := escaped_length _h
    simp only [List.length_cons]
    omega
  · simp

/-- The characters of a literal string on one line. Nothing is escaped in it. -/
def literalAfter (read : List Char) : List Char → Option (String × List Char)
  | [] => none
  | '\'' :: rest => some (String.ofList read.reverse, rest)
  | c :: rest => if isPlain c then literalAfter (c :: read) rest else none

/-- Three quotes end a string of several lines. One or two before these belong to it. -/
def closing (quote : Char) (cs : List Char) : Option (List Char × List Char) :=
  let run := (cs.takeWhile (· == quote)).length
  if run < 3 then none
  else
    let inside := min (run - 3) 2
    some (List.replicate inside quote, cs.drop (inside + 3))

/-- The characters of a string of several lines. An end of line is a line feed, however it is
written, and a backslash at the end of a line joins it to the next text. -/
def longBasicAfter (read : List Char) : List Char → Option (String × List Char)
  | [] => none
  | '"' :: cs =>
    match closing '"' ('"' :: cs) with
    | some (inside, rest) => some (String.ofList (read.reverse ++ inside), rest)
    | none => longBasicAfter ('"' :: read) cs
  | '\\' :: cs =>
    match _h : escaped cs with
    | some (c, rest) => longBasicAfter (c :: read) rest
    | none =>
      match _j : afterNewline (skipSpace cs) with
      | some rest => longBasicAfter read (skipLines rest)
      | none => none
  | '\n' :: rest => longBasicAfter ('\n' :: read) rest
  | '\r' :: '\n' :: rest => longBasicAfter ('\n' :: read) rest
  | c :: rest => if isPlain c then longBasicAfter (c :: read) rest else none
termination_by cs => cs.length
decreasing_by
  · simp
  · have := escaped_length _h
    simp only [List.length_cons]
    omega
  · have := afterNewline_length _j
    have := skipSpace_length cs
    have := skipLines_length rest
    simp only [List.length_cons]
    omega
  · simp
  · simp only [List.length_cons]
    omega
  · simp

/-- The characters of a literal string of several lines. -/
def longLiteralAfter (read : List Char) : List Char → Option (String × List Char)
  | [] => none
  | '\'' :: cs =>
    match closing '\'' ('\'' :: cs) with
    | some (inside, rest) => some (String.ofList (read.reverse ++ inside), rest)
    | none => longLiteralAfter ('\'' :: read) cs
  | '\n' :: rest => longLiteralAfter ('\n' :: read) rest
  | '\r' :: '\n' :: rest => longLiteralAfter ('\n' :: read) rest
  | c :: rest => if isPlain c then longLiteralAfter (c :: read) rest else none

/-- A line feed right after the opening quotes does not count. -/
def withoutFirstNewline (cs : List Char) : List Char := (afterNewline cs).getD cs

/-- A string of any kind. -/
def stringValue : Reader String
  | '"' :: '"' :: '"' :: cs => longBasicAfter [] (withoutFirstNewline cs)
  | '"' :: cs => basicAfter [] cs
  | '\'' :: '\'' :: '\'' :: cs => longLiteralAfter [] (withoutFirstNewline cs)
  | '\'' :: cs => literalAfter [] cs
  | _ => none

end RegisterMap.TomlText
