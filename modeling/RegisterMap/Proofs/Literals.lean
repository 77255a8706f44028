import RegisterMap.Numeral.Literal
import RegisterMap.Numeral.Reading
import RegisterMap.Proofs.NameForms

namespace RegisterMap

/-- The number that digits make behind those of `value`. -/
def numberAfter? (base value : Nat) : List Char → Option Nat
  | [] => some value
  | c :: rest =>
    (digitValue? base c).bind fun digit => numberAfter? base (value * base + digit) rest

/-- Digits without the underscores between them, in a language that takes those for marks. -/
def skipMarks (marks : Bool) (digits : List Char) : List Char :=
  if marks then digits.filter (· != '_') else digits

/-- The number that a literal means to a compiler: hexadecimal behind `0x`, else decimal, where no
zero goes in front. -/
def literalNumber? (marks : Bool) : List Char → Option Nat
  | '0' :: 'x' :: digits =>
    if skipMarks marks digits = [] then none else numberAfter? 16 0 (skipMarks marks digits)
  | ['0'] => some 0
  | '0' :: _ => none
  | c :: rest => numberAfter? 10 0 (c :: skipMarks marks rest)
  | [] => none

theorem digitValue?_digitChar {base digit : Nat} (small : base ≤ 16) (below : digit < base) :
    digitValue? base digit.digitChar = some digit := by
  have all : ∀ base < 17, ∀ digit < base, digitValue? base digit.digitChar = some digit := by
    decide
  exact all base (by omega) digit below

theorem numberAfter?_append (base value : Nat) (first second : List Char) :
    numberAfter? base value (first ++ second) =
      (numberAfter? base value first).bind fun middle => numberAfter? base middle second := by
  induction first generalizing value with
  | nil => rfl
  | cons c rest ih =>
    rw [List.cons_append, numberAfter?, numberAfter?]
    cases digitValue? base c with
    | none => rfl
    | some digit => exact ih _

theorem numberAfter?_zeros (base count : Nat) (some : 0 < base) (digits : List Char) :
    numberAfter? base 0 (List.replicate count '0' ++ digits) = numberAfter? base 0 digits := by
  have zero : digitValue? base '0' = Option.some 0 := by simp [digitValue?, some]
  induction count with
  | zero => rfl
  | succ count ih =>
    rw [List.replicate_succ, List.cons_append, numberAfter?, zero, Option.bind_some, Nat.zero_mul]
    exact ih

theorem le_of_numberAfter? {base value n : Nat} {digits : List Char} (some : 0 < base)
    (reads : numberAfter? base value digits = Option.some n) : value ≤ n := by
  induction digits generalizing value with
  | nil => exact (Option.some.inj reads).le
  | cons c rest ih =>
    obtain ⟨digit, _, later⟩ := Option.bind_eq_some_iff.mp reads
    calc value ≤ value * base := Nat.le_mul_of_pos_right _ some
      _ ≤ value * base + digit := Nat.le_add_right ..
      _ ≤ n := ih later

section

variable (base : Nat) (wide : 1 < base) (small : base ≤ 16) (n : Nat)
include wide small

/-- The last digit is what division leaves, and the digits before it are those of the quotient. -/
theorem numberAfter?_toDigits : numberAfter? base 0 (Nat.toDigits base n) = some n := by
  induction n using Nat.strongRecOn with
  | _ n ih =>
    by_cases single : n < base
    · rw [Nat.toDigits_of_lt_base single, numberAfter?, digitValue?_digitChar small single]
      simp [numberAfter?]
    · have reached : base ≤ n := by omega
      have last : n % base < base := Nat.mod_lt _ (by omega)
      have less : n / base < n := Nat.div_lt_self (by omega) wide
      rw [Nat.toDigits_of_base_le wide reached, numberAfter?_append, ih _ less]
      simp [numberAfter?, digitValue?_digitChar small last, Nat.div_add_mod']

theorem exists_digitChar_of_mem {c : Char} (inside : c ∈ Nat.toDigits base n) :
    ∃ digit < base, c = digit.digitChar := by
  induction n using Nat.strongRecOn with
  | _ n ih =>
    by_cases single : n < base
    · rw [Nat.toDigits_of_lt_base single, List.mem_singleton] at inside
      exact ⟨n, single, inside⟩
    · have reached : base ≤ n := by omega
      have less : n / base < n := Nat.div_lt_self (by omega) wide
      rw [Nat.toDigits_of_base_le wide reached, List.mem_append, List.mem_singleton] at inside
      rcases inside with before | last
      · exact ih _ less before
      · exact ⟨n % base, Nat.mod_lt _ (by omega), last⟩

theorem isAlphanum_of_mem_toDigits {c : Char} (inside : c ∈ Nat.toDigits base n) :
    c.isAlphanum = true := by
  obtain ⟨digit, below, rfl⟩ := exists_digitChar_of_mem base wide small n inside
  have all : ∀ digit < 16, digit.digitChar.isAlphanum = true := by decide
  exact all digit (by omega)

/-- Only zero itself begins with a zero. -/
theorem toDigits_head (positive : 0 < n) :
    ∃ c rest, Nat.toDigits base n = c :: rest ∧ c ≠ '0' := by
  induction n using Nat.strongRecOn with
  | _ n ih =>
    by_cases single : n < base
    · have nonzero : ∀ digit < 16, 0 < digit → digit.digitChar ≠ '0' := by decide
      exact ⟨_, [], Nat.toDigits_of_lt_base single, nonzero n (by omega) positive⟩
    · have reached : base ≤ n := by omega
      have less : n / base < n := Nat.div_lt_self (by omega) wide
      obtain ⟨c, rest, digits, nonzero⟩ := ih _ less (Nat.div_pos reached (by omega))
      rw [Nat.toDigits_of_base_le wide reached, digits]
      exact ⟨c, rest ++ [_], rfl, nonzero⟩

end

theorem skipMarks_eq_self (marks : Bool) {digits : List Char} (plain : '_' ∉ digits) :
    skipMarks marks digits = digits := by
  have kept : digits.filter (· != '_') = digits := by
    refine List.filter_eq_self.mpr fun c inside => bne_iff_ne.mpr ?_
    rintro rfl
    exact plain inside
  cases marks with
  | false => rfl
  | true => exact kept

theorem underscore_not_mem_hexDigits (n : Nat) : '_' ∉ hexDigits n := fun inside =>
  absurd (isAlphanum_of_mem_toDigits 16 (by decide) (by decide) n inside) (by decide)

theorem underscore_not_mem_padZeros (least n : Nat) : '_' ∉ padZeros least (hexDigits n) :=
  fun inside => by
    rcases List.mem_append.mp inside with zero | digit
    · exact absurd (List.eq_of_mem_replicate zero) (by decide)
    · exact underscore_not_mem_hexDigits n digit

/-- Marks between groups of digits are all that grouping adds. -/
theorem skipMarks_groupFours {digits : List Char} (plain : '_' ∉ digits) :
    skipMarks true (groupFours digits) = digits := by
  have marked (l : List Char) : (markFours l).filter (· != '_') = l.filter (· != '_') := by
    fun_induction markFours l with
    | case1 a b c d e rest ih =>
      simp only [List.filter_cons, ih, bne_self_eq_false, Bool.false_eq_true, if_false]
    | case2 l => rfl
  calc skipMarks true (groupFours digits)
      = digits.filter (· != '_') := by
        rw [skipMarks, if_pos rfl, groupFours, List.filter_reverse, marked, List.filter_reverse,
          List.reverse_reverse]
    _ = digits := skipMarks_eq_self true plain

theorem literalNumber?_hex {marks : Bool} {digits : List Char} {n : Nat} (zeros : Nat)
    (written : skipMarks marks digits = List.replicate zeros '0' ++ hexDigits n) :
    literalNumber? marks ('0' :: 'x' :: digits) = some n := by
  have some : skipMarks marks digits ≠ [] := by
    rw [written]
    exact List.append_ne_nil_of_right_ne_nil _ Nat.toDigits_ne_nil
  rw [literalNumber?, if_neg some, written, numberAfter?_zeros 16 zeros (by decide)]
  exact numberAfter?_toDigits 16 (by decide) (by decide) n

theorem literalNumber?_of_ne_zero {marks : Bool} {c : Char} (nonzero : c ≠ '0') (rest : List Char) :
    literalNumber? marks (c :: rest) = numberAfter? 10 0 (c :: skipMarks marks rest) := by
  unfold literalNumber?
  split <;> simp_all

theorem literalNumber?_decimal (marks : Bool) (n : Nat) :
    literalNumber? marks (decimal n).toList = some n := by
  rw [decimal, Nat.repr_eq_ofList_toDigits, String.toList_ofList]
  rcases Nat.eq_zero_or_pos n with rfl | positive
  · rfl
  · obtain ⟨c, rest, digits, nonzero⟩ := toDigits_head 10 (by decide) (by decide) n positive
    have plain : '_' ∉ rest := fun inside => by
      have among : '_' ∈ Nat.toDigits 10 n := digits ▸ List.mem_cons_of_mem c inside
      exact Nat.underscore_not_in_toDigits among
    have read := numberAfter?_toDigits 10 (by decide) (by decide) n
    rw [digits] at read ⊢
    rw [literalNumber?_of_ne_zero nonzero, skipMarks_eq_self marks plain]
    exact read

/-- Whether a literal is written with marks between its digits. -/
def Literal.isMarked : Literal → Bool
  | .grouped _ => true
  | _ => false

/-- Every literal is read as the number that it stands for, with or without marks in its language,
unless it has marks itself. -/
theorem Literal.literalNumber?_text (l : Literal) {marks : Bool} (known : l.isMarked → marks) :
    literalNumber? marks l.text.toList = some l.value := by
  cases l with
  | decimal n => exact literalNumber?_decimal marks n
  | hex n =>
    rw [text, hexLiteral, String.toList_ofList]
    exact literalNumber?_hex 0 (skipMarks_eq_self marks (underscore_not_mem_hexDigits n))
  | padded n =>
    rw [text, hexPadded, String.toList_ofList]
    exact literalNumber?_hex (4 - (hexDigits n).length)
      (skipMarks_eq_self marks (underscore_not_mem_padZeros 4 n))
  | grouped n =>
    obtain rfl : marks = true := known rfl
    rw [text, hexGrouped]
    split
    · rw [String.toList_ofList]
      exact literalNumber?_hex 0 (skipMarks_groupFours (underscore_not_mem_hexDigits n))
    · exact literalNumber?_decimal true n

end RegisterMap
