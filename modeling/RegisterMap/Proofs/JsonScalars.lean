import RegisterMap.Document.JsonText
import RegisterMap.Json
import RegisterMap.Proofs.Literals

namespace RegisterMap.JsonText

theorem stringAfter_escaped {cs rest : List Char} {c : Char} (read : List Char)
    (code : escaped cs = some (c, rest)) :
    stringAfter read ('\\' :: cs) = stringAfter (c :: read) rest := by
  rw [stringAfter]
  split
  · rename_i found
    rw [code] at found
    cases found
    rfl
  · rename_i nothing
    rw [code] at nothing
    cases nothing

theorem fourHex_padZeros {n : Nat} (control : n < 0x20) (rest : List Char) :
    fourHex (padZeros 4 (hexDigits n) ++ rest) = some (n, rest) := by
  interval_cases n <;> rfl

theorem escaped_control {c : Char} (control : c.toNat < 0x20) (rest : List Char) :
    escaped ('u' :: (padZeros 4 (hexDigits c.toNat) ++ rest)) = some (c, rest) := by
  have low : ¬ (0xdc00 ≤ c.toNat ∧ c.toNat ≤ 0xdfff) := by omega
  have high : ¬ (0xd800 ≤ c.toNat ∧ c.toNat ≤ 0xdbff) := by omega
  have code := fourHex_padZeros control rest
  simp only [escaped, bind, code, Option.bind_some, if_neg low, if_neg high, pure, Char.ofNat_toNat]

/-- Whatever a character is written as inside a string, it is read back. -/
theorem stringAfter_escapedChar (c : Char) (read rest : List Char) :
    stringAfter read (Json.escapedChar c ++ rest) = stringAfter (c :: read) rest := by
  unfold Json.escapedChar
  split_ifs with quote backslash backspace page newline return' tab control
  · subst quote
    exact stringAfter_escaped read rfl
  · subst backslash
    exact stringAfter_escaped read rfl
  · subst backspace
    exact stringAfter_escaped read rfl
  · subst page
    exact stringAfter_escaped read rfl
  · subst newline
    exact stringAfter_escaped read rfl
  · subst return'
    exact stringAfter_escaped read rfl
  · subst tab
    exact stringAfter_escaped read rfl
  · exact stringAfter_escaped read (escaped_control control rest)
  · rw [List.singleton_append, stringAfter, if_neg control]
    · exact quote
    · exact backslash

theorem stringAfter_escape (s : String) (rest : List Char) :
    stringAfter [] ((Json.escape s).toList ++ '"' :: rest) = some (s, rest) := by
  have all (letters read : List Char) :
      stringAfter read (letters.flatMap Json.escapedChar ++ '"' :: rest) =
        some (String.ofList (read.reverse ++ letters), rest) := by
    induction letters generalizing read with
    | nil => simp [stringAfter]
    | cons c letters ih =>
      rw [List.flatMap_cons, List.append_assoc, stringAfter_escapedChar, ih]
      simp
  rw [Json.escape, String.toList_ofList, all]
  simp

theorem isDigit_of_mem_toDigits {n : Nat} {c : Char} (inside : c ∈ Nat.toDigits 10 n) :
    c.isDigit = true := by
  obtain ⟨digit, below, rfl⟩ := exists_digitChar_of_mem 10 (by decide) (by decide) n inside
  have each : ∀ digit < 10, digit.digitChar.isDigit = true := by decide
  exact each digit below

/-- Digits of a number that fits in 64 bits are read up to the last one. -/
theorem wordDigits_eq {value n : Nat} {digits : List Char}
    (decimal : ∀ c ∈ digits, ∃ digit < 10, c = digit.digitChar)
    (reads : numberAfter? 10 value digits = some n) (small : n < UInt64.size) :
    wordDigits value digits = (n, []) := by
  induction digits generalizing value with
  | nil => rw [wordDigits, Option.some.inj reads]
  | cons c rest ih =>
    obtain ⟨⟨digit, below, rfl⟩, others⟩ := List.forall_mem_cons.mp decimal
    have distance : ∀ digit < 10, digit.digitChar.toNat - '0'.toNat = digit := by decide
    rw [numberAfter?, digitValue?_digitChar (by decide) below, Option.bind_some] at reads
    have next : value * 10 + digit < UInt64.size := (le_of_numberAfter? (by decide) reads).trans_lt small
    rw [wordDigits, distance digit below, if_pos next]
    exact ih others reads

theorem decimal_head (n : Nat) :
    ∃ c rest, (decimal n).toList = c :: rest ∧ c.isDigit = true := by
  rw [decimal, Nat.repr_eq_ofList_toDigits, String.toList_ofList]
  cases digits : Nat.toDigits 10 n with
  | nil => exact absurd digits Nat.toDigits_ne_nil
  | cons c rest =>
    have inside : c ∈ Nat.toDigits 10 n := digits ▸ List.mem_cons_self ..
    exact ⟨c, rest, rfl, isDigit_of_mem_toDigits inside⟩

/-- What begins with a digit is read as a number without a sign. -/
theorem scalar_of_isDigit {c : Char} (digit : c.isDigit = true) {rest after : List Char}
    {node : Node} (read : unsignedNumber false (c :: rest) = some (node, after)) :
    scalar (c :: rest) = (node, some after) := by
  have number : number (c :: rest) = some (node, after) := by
    unfold number
    split
    · exact absurd digit (by simp_all [Char.isDigit])
    · exact read
  unfold scalar
  split
  · exact absurd digit (by simp_all [Char.isDigit])
  · exact absurd digit (by simp_all [Char.isDigit])
  · exact absurd digit (by simp_all [Char.isDigit])
  · exact absurd digit (by simp_all [Char.isDigit])
  · rw [number]

/-- Whether a number is complete where a text goes on like this. -/
def EndsNumber (rest : List Char) : Prop :=
  ∀ c ∈ rest.head?, c.isDigit = false ∧ c ≠ '.' ∧ c ≠ 'e' ∧ c ≠ 'E'

section

variable {rest : List Char} (ends : EndsNumber rest)
include ends

theorem fractionAfter_of_endsNumber : fractionAfter rest = some (none, rest) := by
  unfold fractionAfter
  split
  · exact absurd rfl (ends '.' rfl).2.1
  · rfl

theorem exponentAfter_of_endsNumber : exponentAfter rest = some (none, rest) := by
  cases rest with
  | nil => rfl
  | cons c rest =>
    obtain ⟨_, _, small, capital⟩ := ends c rfl
    simp [exponentAfter, small, capital]

theorem unsignedNumber_decimal {n : Nat} (small : n < UInt64.size) :
    unsignedNumber false ((decimal n).toList ++ rest) = some (.int n, rest) := by
  have digits : (decimal n).toList = Nat.toDigits 10 n := by
    rw [decimal, Nat.repr_eq_ofList_toDigits, String.toList_ofList]
  have all : ∀ c ∈ Nat.toDigits 10 n, c.isDigit = true := fun c => isDigit_of_mem_toDigits
  have stops : rest.takeWhile Char.isDigit = [] ∧ rest.dropWhile Char.isDigit = rest := by
    cases rest with
    | nil => exact ⟨rfl, rfl⟩
    | cons c others => simp [(ends c rfl).1]
  have taken : (Nat.toDigits 10 n ++ rest).takeWhile Char.isDigit = Nat.toDigits 10 n := by
    rw [List.takeWhile_append_of_pos all, stops.1, List.append_nil]
  have dropped : (Nat.toDigits 10 n ++ rest).dropWhile Char.isDigit = rest := by
    rw [List.dropWhile_append_of_pos all, stops.2]
  have shape : (!(Nat.toDigits 10 n).isEmpty &&
      ((Nat.toDigits 10 n).length == 1 || (Nat.toDigits 10 n).head? != some '0')) = true := by
    rcases Nat.eq_zero_or_pos n with rfl | positive
    · rfl
    · obtain ⟨c, others, letters, nonzero⟩ := toDigits_head 10 (by decide) (by decide) n positive
      simp [letters, nonzero]
  have value : numberOf false (Nat.toDigits 10 n) none none = some (.int n) := by
    have word := wordDigits_eq (fun c => exists_digitChar_of_mem 10 (by decide) (by decide) n)
      (numberAfter?_toDigits 10 (by decide) (by decide) n) small
    simp [numberOf, word]
  rw [digits, unsignedNumber, taken, dropped, shape]
  simp [fractionAfter_of_endsNumber ends, exponentAfter_of_endsNumber ends, value]

theorem scalar_decimal {n : Nat} (small : n < UInt64.size) :
    scalar ((decimal n).toList ++ rest) = (.int n, some rest) := by
  have read := unsignedNumber_decimal ends small
  obtain ⟨c, others, letters, digit⟩ := decimal_head n
  rw [letters, List.cons_append] at read ⊢
  exact scalar_of_isDigit digit read

end

end RegisterMap.JsonText
