import RegisterMap.Proofs.Literals
import RegisterMap.Proofs.TextLines

namespace RegisterMap

/-- Whether a text is one word: letters, digits and underscores. -/
def IsWord (text : String) : Prop := ∀ c ∈ text.toList, isNameChar c = true

instance {text : String} : Decidable (IsWord text) :=
  decidable_of_iff (text.toList.all isNameChar = true) (by simp [IsWord])

theorem isNameChar_of_isAlphanum {c : Char} (letter : c.isAlphanum = true) :
    isNameChar c = true := by rw [isNameChar, letter, Bool.true_or]

section

variable {first second : String}

@[simp] theorem isWord_append : IsWord (first ++ second) ↔ IsWord first ∧ IsWord second := by
  rw [IsWord, String.toList_append, List.forall_mem_append]
  rfl

/-- No word ends a line. -/
theorem IsWord.unbroken (word : IsWord first) : Unbroken first := by
  intro c inside
  have named := word c inside
  constructor <;> (rintro rfl; cases named)

end

theorem isNameChar_toUpper {c : Char} (named : isNameChar c = true) :
    isNameChar c.toUpper = true := by
  rcases Bool.or_eq_true_iff.mp named with letter | mark
  · exact isNameChar_of_isAlphanum (isAlphanum_toUpper letter)
  · rw [beq_iff_eq.mp mark]
    rfl

theorem isNameChar_toLower {c : Char} (named : isNameChar c = true) :
    isNameChar c.toLower = true := by
  rcases Bool.or_eq_true_iff.mp named with letter | mark
  · exact isNameChar_of_isAlphanum (isAlphanum_toLower letter)
  · rw [beq_iff_eq.mp mark]
    rfl

theorem isNameChar_of_mem_snakeWords {before : Option Char} {letters : List Char} {c : Char}
    (all : ∀ d ∈ letters, isNameChar d = true) (inside : c ∈ snakeWords before letters) :
    isNameChar c = true := by
  induction letters generalizing before with
  | nil => cases inside
  | cons d rest ih =>
    obtain ⟨first, others⟩ := List.forall_mem_cons.mp all
    rw [snakeWords] at inside
    split at inside
    · split at inside
      · exact ih others inside
      · rcases List.mem_cons.mp inside with rfl | later
        · rfl
        · exact ih others later
    · split at inside
      · rcases List.mem_cons.mp inside with rfl | inside
        · rfl
        · rcases List.mem_cons.mp inside with rfl | later
          · exact isNameChar_toLower first
          · exact ih others later
      · rcases List.mem_cons.mp inside with rfl | later
        · exact isNameChar_toLower first
        · exact ih others later

namespace IsWord

variable {name : String}

theorem asciiUpper (word : IsWord name) : IsWord (asciiUpper name) := by
  intro c inside
  rw [RegisterMap.asciiUpper, String.toList_map] at inside
  obtain ⟨d, among, rfl⟩ := List.mem_map.mp inside
  exact isNameChar_toUpper (word d among)

theorem asciiLower (word : IsWord name) : IsWord (asciiLower name) := by
  intro c inside
  rw [RegisterMap.asciiLower, String.toList_map] at inside
  obtain ⟨d, among, rfl⟩ := List.mem_map.mp inside
  exact isNameChar_toLower (word d among)

theorem avoiding (word : IsWord name) (keywords : List String) :
    IsWord (avoiding keywords name) := by
  intro c inside
  rcases mem_avoiding inside with among | rfl
  · exact word c among
  · rfl

theorem attributeName (word : IsWord name) : IsWord (attributeName name) := word.asciiLower.avoiding _

end IsWord

section

variable {name : String} (identifier : isIdentifier name = true)
include identifier

theorem isWord_of_isIdentifier : IsWord name := by
  obtain ⟨c, rest, letters, first, others⟩ := isIdentifier_iff.mp identifier
  rw [IsWord, letters]
  exact List.forall_mem_cons.mpr ⟨isNameChar_of_isAlphanum (isAlphanum_of_isAlpha first), others⟩

theorem isWord_camelCase : IsWord (camelCase name) := fun _ inside =>
  isNameChar_of_mem_camelCase identifier inside

theorem isWord_snakeCase : IsWord (snakeCase name) := by
  rw [snakeCase_eq_avoiding]
  refine IsWord.avoiding (fun d inside => ?_) _
  rw [String.toList_ofList, snakeStem_eq identifier] at inside
  exact isNameChar_of_mem_snakeWords (isWord_of_isIdentifier identifier)
    ((List.rdropWhile_prefix ..).subset inside)

end

theorem isWord_decimal (n : Nat) : IsWord (decimal n) := by
  intro c inside
  rw [decimal, Nat.repr_eq_ofList_toDigits, String.toList_ofList] at inside
  exact isNameChar_of_isAlphanum (isAlphanum_of_mem_toDigits 10 (by decide) (by decide) n inside)

theorem isNameChar_of_mem_hexDigits {n : Nat} {c : Char} (inside : c ∈ hexDigits n) :
    isNameChar c = true :=
  isNameChar_of_isAlphanum (isAlphanum_of_mem_toDigits 16 (by decide) (by decide) n inside)

theorem mem_markFours {digits : List Char} {c : Char} (inside : c ∈ markFours digits) :
    c ∈ digits ∨ c = '_' := by
  fun_induction markFours digits with
  | case1 a b d e f rest ih =>
    simp only [List.mem_cons] at inside ih ⊢
    tauto
  | case2 l => exact .inl inside

theorem isWord_of_hexDigits {digits : List Char} (all : ∀ c ∈ digits, isNameChar c = true) :
    IsWord (String.ofList ('0' :: 'x' :: digits)) := by
  rw [IsWord, String.toList_ofList]
  exact List.forall_mem_cons.mpr ⟨rfl, List.forall_mem_cons.mpr ⟨rfl, all⟩⟩

theorem isWord_hexPadded (least n : Nat) : IsWord (hexPadded least n) := by
  refine isWord_of_hexDigits fun c inside => ?_
  rcases List.mem_append.mp inside with zero | digit
  · rw [List.eq_of_mem_replicate zero]
    rfl
  · exact isNameChar_of_mem_hexDigits digit

/-- However a number is written, it is one word. -/
theorem isWord_literal (l : Literal) : IsWord l.text := by
  cases l with
  | decimal n => exact isWord_decimal n
  | hex n => exact isWord_of_hexDigits fun c inside => isNameChar_of_mem_hexDigits inside
  | padded n => exact isWord_hexPadded 4 n
  | grouped n =>
    rw [Literal.text, hexGrouped]
    split
    · refine isWord_of_hexDigits fun c inside => ?_
      rcases mem_markFours (List.mem_reverse.mp inside) with digit | rfl
      · exact isNameChar_of_mem_hexDigits (List.mem_reverse.mp digit)
      · rfl
    · exact isWord_decimal n

@[simp] theorem Literal.unbroken_text (l : Literal) : Unbroken l.text := (isWord_literal l).unbroken

@[simp] theorem unbroken_decimal (n : Nat) : Unbroken (decimal n) := (isWord_decimal n).unbroken

@[simp] theorem unbroken_hexLiteral (n : Nat) : Unbroken (hexLiteral n) :=
  (isWord_literal (.hex n)).unbroken

theorem toCapitals_eq_asciiUpper {name : String} (word : IsWord name) :
    toCapitals name = asciiUpper name := by
  have ascii : ∀ c ∈ name.toList, capital c = [c.toUpper] := fun c inside =>
    if_pos (isNameChar_lt (word c inside))
  refine String.toList_injective ?_
  rw [toCapitals, String.toList_ofList, List.flatMap_congr ascii, asciiUpper, String.toList_map,
    List.map_eq_flatMap]

theorem smallAfter_eq_map {before letters : List Char} (all : ∀ c ∈ letters, isNameChar c = true) :
    smallAfter before letters = letters.map Char.toLower := by
  induction letters generalizing before with
  | nil => rfl
  | cons c rest ih =>
    obtain ⟨first, others⟩ := List.forall_mem_cons.mp all
    have latin : c ≠ 'Σ' := by
      rintro rfl
      exact absurd (isNameChar_lt first) (by decide)
    rw [smallAfter, if_neg latin, small, if_pos (isNameChar_lt first), ih others]
    rfl

theorem toSmallLetters_eq_asciiLower {name : String} (word : IsWord name) :
    toSmallLetters name = asciiLower name := by
  refine String.toList_injective ?_
  rw [toSmallLetters, String.toList_ofList, smallAfter_eq_map word, asciiLower, String.toList_map]

end RegisterMap
