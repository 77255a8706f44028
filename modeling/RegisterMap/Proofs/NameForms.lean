import RegisterMap.Name.Styles
import RegisterMap.Numeral
import Mathlib

namespace RegisterMap

/-- A name whose first character is of some kind. By their first characters capital forms, small
forms and names that generated code adds by itself never meet. -/
def Opens (kind : Char → Bool) (name : String) : Prop :=
  ∃ c rest, name.toList = c :: rest ∧ kind c = true

theorem Opens.append {kind : Char → Bool} {name : String} (opens : Opens kind name)
    (rest : String) : Opens kind (name ++ rest) := by
  obtain ⟨c, others, letters, first⟩ := opens
  exact ⟨c, others ++ rest.toList, by rw [String.toList_append, letters, List.cons_append], first⟩

theorem Opens.ne {left right : Char → Bool} {a b : String} (first : Opens left a)
    (second : Opens right b) (differ : ∀ c, left c = true → right c = true → False) : a ≠ b := by
  rintro rfl
  obtain ⟨c, _, letters, ofLeft⟩ := first
  obtain ⟨d, _, letters', ofRight⟩ := second
  rw [letters] at letters'
  cases letters'
  exact differ c ofLeft ofRight

theorem Opens.upper_ne_lower {a b : String} (first : Opens Char.isUpper a)
    (second : Opens Char.isLower b) : a ≠ b :=
  first.ne second fun _ upper lower => Char.not_isLower_of_isUpper upper lower

/-- An underscore in front sets the names that generated code adds apart from those of items. -/
theorem Opens.underscore_ne {kind : Char → Bool} {a b : String} (first : Opens (· == '_') a)
    (second : Opens kind b) (letters : kind '_' = false) : a ≠ b :=
  first.ne second fun c mark ofKind => by
    rw [beq_iff_eq.mp mark, letters] at ofKind
    cases ofKind

section

variable {name : String} (identifier : isIdentifier name = true)
include identifier

theorem isAlpha_opens : Opens Char.isAlpha name := by
  obtain ⟨c, rest, letters, first, _⟩ := isIdentifier_iff.mp identifier
  exact ⟨c, rest, letters, first⟩

theorem asciiUpper_opens : Opens Char.isUpper (asciiUpper name) := by
  obtain ⟨c, rest, letters, first, _⟩ := isIdentifier_iff.mp identifier
  refine ⟨c.toUpper, rest.map Char.toUpper, ?_, by rwa [Char.isUpper_toUpper_eq_isAlpha]⟩
  rw [asciiUpper, String.toList_map, letters, List.map_cons]

theorem asciiLower_opens : Opens Char.isLower (asciiLower name) := by
  obtain ⟨c, rest, letters, first, _⟩ := isIdentifier_iff.mp identifier
  refine ⟨c.toLower, rest.map Char.toLower, ?_, by rwa [Char.isLower_toLower_eq_isAlpha]⟩
  rw [asciiLower, String.toList_map, letters, List.map_cons]

end

theorem Opens.avoiding {kind : Char → Bool} {name : String} (opens : Opens kind name)
    (keywords : List String) : Opens kind (avoiding keywords name) := by
  unfold RegisterMap.avoiding
  split
  · exact opens.append "_"
  · exact opens

theorem attributeName_opens {name : String} (identifier : isIdentifier name = true) :
    Opens Char.isLower (attributeName name) :=
  (asciiLower_opens identifier).avoiding _

theorem isAlpha_ranges {c : Char} (letter : c.isAlpha = true) :
    (65 ≤ c.toNat ∧ c.toNat ≤ 90) ∨ (97 ≤ c.toNat ∧ c.toNat ≤ 122) := by
  simp only [Char.isAlpha, Char.isUpper, Char.isLower, Bool.or_eq_true, Bool.and_eq_true,
    decide_eq_true_eq, UInt32.le_iff_toNat_le, ge_iff_le] at letter
  exact letter

theorem isDigit_range {c : Char} (digit : c.isDigit = true) : 48 ≤ c.toNat ∧ c.toNat ≤ 57 := by
  simp only [Char.isDigit, Bool.and_eq_true, decide_eq_true_eq, UInt32.le_iff_toNat_le,
    ge_iff_le] at digit
  exact digit

theorem isSeparator_eq_false_of_isAlphanum {c : Char} (letter : c.isAlphanum = true) :
    isSeparator c = false := by
  have differs (d : Char) (outside : d.isAlphanum = false) : (c == d) = false := by
    rw [beq_eq_false_iff_ne]
    rintro rfl
    rw [letter] at outside
    cases outside
  have punctuation : isPunctuation c = false := by
    rw [Char.isAlphanum, Bool.or_eq_true] at letter
    have ranges := letter.imp isAlpha_ranges isDigit_range
    rw [← Bool.not_eq_true]
    simp only [isPunctuation, Bool.or_eq_true, Bool.and_eq_true, decide_eq_true_eq]
    omega
  simp only [isSeparator, punctuation, Bool.or_false, Bool.or_eq_false_iff]
  refine ⟨⟨⟨⟨differs _ ?_, differs _ ?_⟩, differs _ ?_⟩, differs _ ?_⟩, differs _ ?_⟩ <;> decide

theorem isAlphanum_of_isAlpha {c : Char} (letter : c.isAlpha = true) : c.isAlphanum = true := by
  rw [Char.isAlphanum, letter, Bool.true_or]

theorem digitGuard_eq_nil {c : Char} (letter : c.isAlpha = true) (rest : List Char) :
    digitGuard (c :: rest) = [] := by
  have digit : c.isDigit = false := by
    rw [← Bool.not_eq_true]
    intro digit
    have ranges := isAlpha_ranges letter
    have range := isDigit_range digit
    omega
  rw [digitGuard, digit]
  rfl

theorem isNameChar_lt {c : Char} (named : isNameChar c = true) : c.toNat < 128 := by
  rw [isNameChar, Char.isAlphanum, Bool.or_eq_true, Bool.or_eq_true, beq_iff_eq] at named
  rcases named with (alpha | digit) | rfl
  · have ranges := isAlpha_ranges alpha
    omega
  · have range := isDigit_range digit
    omega
  · decide

theorem isAlphanum_toUpper {c : Char} (letter : c.isAlphanum = true) :
    c.toUpper.isAlphanum = true := by
  rw [Char.isAlphanum, Bool.or_eq_true] at letter
  rcases letter with alpha | digit
  · rw [Char.isAlphanum, Char.isAlpha_toUpper_eq_isAlpha, alpha, Bool.true_or]
  · have small : ¬ c.isLower = true := fun lower => by
      have ranges := isAlpha_ranges (c := c) (by rw [Char.isAlpha, lower, Bool.or_true])
      have range := isDigit_range digit
      omega
    rw [Char.toUpper_eq_of_not_isLower small, Char.isAlphanum, digit, Bool.or_true]

theorem isAlphanum_toLower {c : Char} (letter : c.isAlphanum = true) :
    c.toLower.isAlphanum = true := by
  rw [Char.isAlphanum, Bool.or_eq_true] at letter
  rcases letter with alpha | digit
  · rw [Char.isAlphanum, Char.isAlpha_toLower_eq_isAlpha, alpha, Bool.true_or]
  · have capital : ¬ c.isUpper = true := fun upper => by
      have ranges := isAlpha_ranges (c := c) (by rw [Char.isAlpha, upper, Bool.true_or])
      have range := isDigit_range digit
      omega
    rw [Char.toLower_eq_of_not_isUpper capital, Char.isAlphanum, digit, Bool.or_true]

/-- Words that run together have letters and digits alone. -/
theorem isAlphanum_of_mem_camelWords {opening : Bool} {letters : List Char} {c : Char}
    (all : ∀ d ∈ letters, isNameChar d = true) (inside : c ∈ camelWords opening letters) :
    c.isAlphanum = true := by
  induction letters generalizing opening with
  | nil => cases inside
  | cons d rest ih =>
    rw [List.forall_mem_cons] at all
    rw [camelWords] at inside
    split at inside
    · exact ih all.2 inside
    · rename_i word
      rcases List.mem_cons.mp inside with rfl | later
      · have letter : d.isAlphanum = true := by
          rcases Bool.or_eq_true_iff.mp all.1 with letter | underscore
          · exact letter
          · rw [beq_iff_eq.mp underscore] at word
            exact absurd (by decide) word
        split
        · exact isAlphanum_toUpper letter
        · exact isAlphanum_toLower letter
      · exact ih all.2 later

theorem isNameChar_of_mem_camelWords {opening : Bool} {letters : List Char} {c : Char}
    (all : ∀ d ∈ letters, isNameChar d = true) (inside : c ∈ camelWords opening letters) :
    isNameChar c = true := by
  rw [isNameChar, isAlphanum_of_mem_camelWords all inside, Bool.true_or]

theorem mem_avoiding {keywords : List String} {name : String} {c : Char}
    (inside : c ∈ (avoiding keywords name).toList) : c ∈ name.toList ∨ c = '_' := by
  unfold avoiding at inside
  split at inside
  · rw [String.toList_append, List.mem_append] at inside
    exact inside.imp id List.mem_singleton.mp
  · exact .inl inside

/-- A name that avoids keywords is one of some words without underscores only if it was one before,
and no keyword. -/
theorem avoiding_mem_iff {words keywords : List String} {name : String}
    (unmarked : ∀ word ∈ words, '_' ∉ word.toList) :
    avoiding keywords name ∈ words ↔ name ∈ words ∧ name ∉ keywords := by
  unfold avoiding
  split
  · rename_i keyword
    have ends : '_' ∈ (name ++ "_").toList := by simp
    constructor
    · exact fun inside => absurd ends (unmarked _ inside)
    · exact fun free => absurd keyword free.2
  · rename_i free
    exact (and_iff_left free).symm

/-- A name in snake case, apart from keywords. -/
def snakeStem (name : String) : List Char :=
  (digitGuard name.toList ++ snakeWords none name.toList).rdropWhile (· == '_')

theorem snakeCase_eq_avoiding (name : String) :
    snakeCase name = avoiding bindingKeywords (String.ofList (snakeStem name)) := rfl

section

variable {name : String} (identifier : isIdentifier name = true)
include identifier

theorem snakeStem_eq : snakeStem name = (snakeWords none name.toList).rdropWhile (· == '_') := by
  obtain ⟨c, rest, letters, first, _⟩ := isIdentifier_iff.mp identifier
  rw [snakeStem, letters, digitGuard_eq_nil first, List.nil_append]

theorem snakeCase_opens : Opens Char.isLower (snakeCase name) := by
  obtain ⟨c, rest, letters, first, _⟩ := isIdentifier_iff.mp identifier
  have lower : c.toLower.isLower = true := by rwa [Char.isLower_toLower_eq_isAlpha]
  have kept : (c.toLower == '_') = false := by
    rw [beq_eq_false_iff_ne]
    intro same
    rw [same] at lower
    cases lower
  have words : snakeWords none name.toList = c.toLower :: snakeWords (some c) rest := by
    rw [letters, snakeWords, isSeparator_eq_false_of_isAlphanum (isAlphanum_of_isAlpha first)]
    rfl
  -- The first letter is no underscore, so that it is not dropped with those at the end.
  obtain ⟨more, begins⟩ : ∃ more, snakeStem name = c.toLower :: more := by
    have part := List.rdropWhile_prefix (· == '_') (snakeWords none name.toList)
    rw [← snakeStem_eq identifier, words] at part
    cases stem : snakeStem name with
    | nil =>
      rw [snakeStem_eq identifier] at stem
      have marks := List.rdropWhile_eq_nil_iff.mp stem c.toLower (by simp [words])
      rw [kept] at marks
      cases marks
    | cons d more =>
      rw [stem] at part
      exact ⟨more, congrArg (· :: more) (List.cons_prefix_cons.mp part).1⟩
  rw [snakeCase_eq_avoiding]
  exact Opens.avoiding ⟨c.toLower, more, by rw [String.toList_ofList, begins], lower⟩ _

theorem camelCase_opens : Opens Char.isUpper (camelCase name) := by
  obtain ⟨c, rest, letters, first, _⟩ := isIdentifier_iff.mp identifier
  have upper : c.toUpper.isUpper = true := by rwa [Char.isUpper_toUpper_eq_isAlpha]
  refine Opens.avoiding ⟨c.toUpper, camelWords false rest, ?_, upper⟩ _
  rw [String.toList_ofList, letters, digitGuard_eq_nil first, List.nil_append, camelWords,
    isSeparator_eq_false_of_isAlphanum (isAlphanum_of_isAlpha first)]
  rfl

/-- Camel case has no characters but those of identifiers, so the marks that join it to a path
are never part of it. -/
theorem isNameChar_of_mem_camelCase {c : Char} (inside : c ∈ (camelCase name).toList) :
    isNameChar c = true := by
  obtain ⟨first, rest, letters, alpha, others⟩ := isIdentifier_iff.mp identifier
  have all : ∀ d ∈ first :: rest, isNameChar d = true := by
    refine List.forall_mem_cons.mpr ⟨?_, others⟩
    rw [isNameChar, isAlphanum_of_isAlpha alpha, Bool.true_or]
  rw [camelCase, letters, digitGuard_eq_nil alpha, List.nil_append] at inside
  rcases mem_avoiding inside with among | rfl
  · rw [String.toList_ofList] at among
    exact isNameChar_of_mem_camelWords all among
  · rfl

end

theorem takeWhile_mark {mark : Char} {l : List Char} (absent : mark ∉ l) (rest : List Char) :
    (l ++ mark :: rest).takeWhile (· != mark) = l := by
  have before : ∀ c ∈ l, (c != mark) = true := by
    intro c inside
    rw [bne_iff_ne]
    rintro rfl
    exact absent inside
  rw [List.takeWhile_append_of_pos before, List.takeWhile_cons_of_neg (by simp), List.append_nil]

/-- A mark that no first part contains tells where the first part ends. -/
theorem append_mark_inj (mark : Char) (more : List Char) {sep a b x y : String}
    (opening : sep.toList = mark :: more) (left : mark ∉ a.toList) (right : mark ∉ b.toList)
    (same : a ++ sep ++ x = b ++ sep ++ y) : a = b ∧ x = y := by
  have lists := congrArg String.toList same
  simp only [String.toList_append, opening, List.append_assoc, List.cons_append] at lists
  have first : a.toList = b.toList := by
    rw [← takeWhile_mark left (more ++ x.toList), lists, takeWhile_mark right]
  rw [first] at lists
  have second := List.append_cancel_left (List.cons_inj_right _ |>.mp (List.append_cancel_left lists))
  exact ⟨String.toList_injective first, String.toList_injective second⟩

theorem ne_append_mark {mark : Char} {more : List Char} {sep a b x : String}
    (opening : sep.toList = mark :: more) (absent : mark ∉ a.toList) : a ≠ b ++ sep ++ x := by
  rintro rfl
  rw [String.toList_append, String.toList_append, opening] at absent
  exact absent (by simp)

/-- Endings neither of which is the end of the other part all names. -/
theorem append_ne_of_endings {s t : String} (left : ¬ s.toList <:+ t.toList)
    (right : ¬ t.toList <:+ s.toList) (a b : String) : a ++ s ≠ b ++ t := by
  intro same
  have lists := congrArg String.toList same
  rw [String.toList_append, String.toList_append] at lists
  have first : s.toList <:+ b.toList ++ t.toList := ⟨a.toList, lists⟩
  rcases List.suffix_or_suffix_of_suffix first (List.suffix_append _ _) with within | within
  · exact left within
  · exact right within

theorem asciiLower_append (a b : String) : asciiLower (a ++ b) = asciiLower a ++ asciiLower b := by
  refine String.toList_injective ?_
  simp only [asciiLower, String.toList_map, String.toList_append, List.map_append]

theorem name_ne_view (name : String) : name ≠ name ++ "_bf" := by
  intro same
  have lengths := congrArg String.length same
  rw [String.length_append, show "_bf".length = 3 from rfl] at lengths
  omega

theorem decimal_injective : Function.Injective decimal := fun _ _ same => Nat.repr_inj.mp same

end RegisterMap
