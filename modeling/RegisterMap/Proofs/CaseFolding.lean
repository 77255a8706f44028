import RegisterMap.Proofs.ReservedWords

namespace RegisterMap

@[simp] theorem asciiLower_asciiLower (name : String) :
    asciiLower (asciiLower name) = asciiLower name := by
  rw [asciiLower, asciiLower, String.map_map]
  exact congrArg (String.map · name) (funext Char.toLower_toLower_eq_toLower)

@[simp] theorem asciiUpper_asciiLower (name : String) :
    asciiUpper (asciiLower name) = asciiUpper name := by
  rw [asciiUpper, asciiLower, String.map_map]
  exact congrArg (String.map · name) (funext Char.toUpper_toLower_eq_toUpper)

@[simp] theorem asciiLower_asciiUpper (name : String) :
    asciiLower (asciiUpper name) = asciiLower name := by
  rw [asciiUpper, asciiLower, String.map_map]
  exact congrArg (String.map · name) (funext Char.toLower_toUpper_eq_toLower)

/-- Whatever case a name was given, its small form is the same. -/
theorem NameCase.apply_lower (case : NameCase) (name : String) :
    lower.apply name = asciiLower (case.apply name) := by
  symm
  cases case with
  | asWritten => rfl
  | upper => exact asciiLower_asciiUpper name
  | lower => exact asciiLower_asciiLower name

theorem isIdentifier_asciiLower {name : String} (identifier : isIdentifier name = true) :
    isIdentifier (asciiLower name) = true := by
  obtain ⟨c, rest, letters, first, others⟩ := isIdentifier_iff.mp identifier
  refine isIdentifier_iff.mpr ⟨c.toLower, rest.map Char.toLower, ?_, ?_, ?_⟩
  · rw [asciiLower, String.toList_map, letters, List.map_cons]
  · rwa [Char.isAlpha_toLower_eq_isAlpha]
  · exact List.forall_mem_map.mpr fun d inside => isNameChar_toLower (others d inside)

@[simp] theorem attributeName_asciiLower (name : String) :
    attributeName (asciiLower name) = attributeName name := by
  rw [attributeName, asciiLower_asciiLower, attributeName]

/-- A letter in small form parts words as little as before, and is a digit as little. -/
theorem toLower_kept {kind : Char → Bool} (noLetter : ∀ c, c.isAlpha = true → kind c = false)
    (c : Char) : kind c.toLower = kind c := by
  by_cases capital : c.isUpper = true
  · have letter : c.isAlpha = true := by rw [Char.isAlpha, capital, Bool.true_or]
    rw [noLetter c letter, noLetter c.toLower (by rwa [Char.isAlpha_toLower_eq_isAlpha])]
  · rw [Char.toLower_eq_of_not_isUpper capital]

theorem isSeparator_eq_false_of_isAlpha (c : Char) (letter : c.isAlpha = true) :
    isSeparator c = false :=
  isSeparator_eq_false_of_isAlphanum (isAlphanum_of_isAlpha letter)

theorem isDigit_eq_false_of_isAlpha (c : Char) (letter : c.isAlpha = true) :
    c.isDigit = false := by
  rw [← Bool.not_eq_true]
  intro digit
  have ranges := isAlpha_ranges letter
  have range := isDigit_range digit
  omega

theorem camelWords_map_toLower (opening : Bool) (letters : List Char) :
    camelWords opening (letters.map Char.toLower) = camelWords opening letters := by
  induction letters generalizing opening with
  | nil => rfl
  | cons c rest ih =>
    simp only [List.map_cons, camelWords, toLower_kept isSeparator_eq_false_of_isAlpha, ih,
      Char.toUpper_toLower_eq_toUpper, Char.toLower_toLower_eq_toLower]

@[simp] theorem camelCase_asciiLower (name : String) :
    camelCase (asciiLower name) = camelCase name := by
  have guarded (letters : List Char) : digitGuard (letters.map Char.toLower) = digitGuard letters := by
    cases letters with
    | nil => rfl
    | cons c rest => simp only [List.map_cons, digitGuard, toLower_kept isDigit_eq_false_of_isAlpha]
  rw [camelCase, asciiLower, String.toList_map, guarded, camelWords_map_toLower, camelCase]

/-- Marks at the end open no word. -/
theorem camelWords_append_marks (opening : Bool) (letters : List Char) {marks : List Char}
    (all : ∀ c ∈ marks, c = '_') :
    camelWords opening (letters ++ marks) = camelWords opening letters := by
  induction letters generalizing opening with
  | nil =>
    rw [List.nil_append, camelWords]
    induction marks generalizing opening with
    | nil => rfl
    | cons c rest ih =>
      obtain ⟨rfl, others⟩ := List.forall_mem_cons.mp all
      rw [camelWords, if_pos (by decide)]
      exact ih others true
  | cons c rest ih => simp only [List.cons_append, camelWords, ih]

/-- Without capitals, the words that underscores part are the words of camel case. -/
theorem camelWords_snakeWords {opening : Bool} {before : Option Char} {letters : List Char}
    (small : ∀ c ∈ letters, c.isUpper = false) (parted : before = some '_' → opening = true) :
    camelWords opening (snakeWords before letters) = camelWords opening letters := by
  induction letters generalizing opening before with
  | nil => rfl
  | cons c rest ih =>
    obtain ⟨low, others⟩ := List.forall_mem_cons.mp small
    have stays : opensWord before c = false := by
      cases before <;> simp [opensWord, low]
    by_cases mark : isSeparator c = true
    · have later : camelWords true (snakeWords (some '_') rest) = camelWords true rest :=
        ih others fun _ => rfl
      rw [snakeWords, if_pos mark, camelWords, if_pos mark]
      split
      · rename_i again
        rw [parted again]
        exact later
      · rw [camelWords, if_pos (by decide)]
        exact later
    · have later : camelWords false (snakeWords (some c) rest) = camelWords false rest :=
        ih others fun same => absurd (by rw [Option.some.inj same]; decide) mark
      have lowered : c.toLower = c := Char.toLower_eq_of_not_isUpper (by simp [low])
      rw [snakeWords, if_neg mark, stays, lowered, camelWords, if_neg mark]
      simp only [Bool.false_eq_true, if_false, camelWords, if_neg mark, lowered, later]

theorem avoiding_toList (keywords : List String) (name : String) :
    ∃ marks, (avoiding keywords name).toList = name.toList ++ marks ∧ ∀ c ∈ marks, c = '_' := by
  unfold avoiding
  split
  · exact ⟨['_'], by rw [String.toList_append]; rfl, by simp⟩
  · exact ⟨[], by simp, by simp⟩

/-- The camel form of a name can be told from the snake form of its letters in small form: two names
with one small snake form have one camel form. -/
theorem camelCase_snakeCase_asciiLower {name : String} (identifier : isIdentifier name = true) :
    camelCase (snakeCase (asciiLower name)) = camelCase name := by
  have lower := isIdentifier_asciiLower identifier
  obtain ⟨c, rest, letters, first, -⟩ := isIdentifier_iff.mp lower
  have small : ∀ d ∈ c :: rest, d.isUpper = false := by
    rw [← letters, asciiLower, String.toList_map]
    exact List.forall_mem_map.mpr fun d _ => Char.isUpper_toLower_eq_false d
  -- What the snake form drops at the end, and what it puts behind a keyword, is underscores.
  obtain ⟨marks, suffixed, added⟩ := avoiding_toList bindingKeywords
    (String.ofList (snakeStem (asciiLower name)))
  have dropped : ∀ d ∈ (snakeWords none (c :: rest)).rtakeWhile (· == '_'), d = '_' :=
    fun d inside => by simpa using List.mem_rtakeWhile_imp inside
  have whole : snakeStem (asciiLower name) ++ (snakeWords none (c :: rest)).rtakeWhile (· == '_') =
      snakeWords none (c :: rest) := by
    rw [snakeStem_eq lower, letters, List.rdropWhile_append_rtakeWhile]
  have words : camelWords true (snakeCase (asciiLower name)).toList = camelWords true (c :: rest) :=
    calc camelWords true (snakeCase (asciiLower name)).toList
        = camelWords true (snakeStem (asciiLower name)) := by
          rw [snakeCase_eq_avoiding, suffixed, camelWords_append_marks _ _ added, String.toList_ofList]
      _ = camelWords true (snakeWords none (c :: rest)) := by
          rw [← camelWords_append_marks _ _ dropped, whole]
      _ = camelWords true (c :: rest) := camelWords_snakeWords small fun _ => rfl
  obtain ⟨d, others, opening, low⟩ := snakeCase_opens lower
  have letter : d.isAlpha = true := by rw [Char.isAlpha, low, Bool.or_true]
  rw [← camelCase_asciiLower name, camelCase, camelCase, words, opening, letters,
    digitGuard_eq_nil letter, digitGuard_eq_nil first]

end RegisterMap
