import RegisterMap.Proofs.CaseFolding

namespace RegisterMap

/-- Letters that snake case leaves as they are, behind a character if one is in front: there are no
capitals, and no separators but single underscores. -/
inductive Settled : Option Char → List Char → Prop
  | done {before : Option Char} : Settled before []
  | mark {before : Option Char} {rest : List Char} :
      before ≠ some '_' → Settled (some '_') rest → Settled before ('_' :: rest)
  | letter {before : Option Char} {c : Char} {rest : List Char} :
      isSeparator c = false → c.isUpper = false → Settled (some c) rest → Settled before (c :: rest)

theorem toLower_ne_underscore {c : Char} (solid : isSeparator c = false) : c.toLower ≠ '_' := by
  intro mark
  rw [← toLower_kept isSeparator_eq_false_of_isAlpha, mark] at solid
  exact absurd solid (by decide)

/-- Snake case settles letters in one go. The character in front may itself have been changed by
then, but not into an underscore. -/
theorem settled_snakeWords {before front : Option Char} (letters : List Char)
    (marked : front = some '_' → before = some '_') : Settled front (snakeWords before letters) := by
  induction letters generalizing before front with
  | nil => exact .done
  | cons c rest ih =>
    rw [snakeWords]
    split
    · split
      · exact ih fun _ => rfl
      · rename_i fresh
        exact .mark (fun again => fresh (marked again)) (ih fun _ => rfl)
    · rename_i word
      have solid : isSeparator c = false := Bool.eq_false_iff.mpr word
      have low : isSeparator c.toLower = false := by
        rwa [toLower_kept isSeparator_eq_false_of_isAlpha]
      have later : Settled (some c.toLower) (snakeWords (some c) rest) :=
        ih fun same => absurd (Option.some.inj same) (toLower_ne_underscore solid)
      have first {before : Option Char} :
          Settled before (c.toLower :: snakeWords (some c) rest) :=
        .letter low (Char.isUpper_toLower_eq_false c) later
      split
      · rename_i opens
        refine .mark (fun again => ?_) first
        rw [marked again] at opens
        exact absurd opens (by simp [opensWord])
      · exact first

namespace Settled

variable {before : Option Char} {letters : List Char}

theorem snakeWords_eq (settled : Settled before letters) : snakeWords before letters = letters := by
  induction settled with
  | done => rfl
  | mark fresh _ ih => rw [snakeWords, if_pos (by decide), if_neg fresh, ih]
  | @letter before c rest solid low _ ih =>
    have stays : opensWord before c = false := by
      cases before <;> simp [opensWord, low]
    rw [snakeWords, if_neg (ne_true_of_eq_false solid), stays, ih,
      Char.toLower_eq_of_not_isUpper (ne_true_of_eq_false low)]
    rfl

theorem of_append {more : List Char} (settled : Settled before (letters ++ more)) :
    Settled before letters := by
  induction letters generalizing before with
  | nil => exact .done
  | cons c rest ih =>
    cases settled with
    | mark fresh later => exact .mark fresh (ih later)
    | letter solid low later => exact .letter solid low (ih later)

theorem append_underscore (settled : Settled before letters) (fresh : before ≠ some '_')
    (unmarked : '_' ∉ letters) : Settled before (letters ++ ['_']) := by
  induction settled with
  | done => exact .mark fresh .done
  | mark => exact absurd (List.mem_cons_self ..) unmarked
  | @letter _ c _ solid low _ ih =>
    obtain ⟨own, others⟩ := not_or.mp (List.mem_cons.not.mp unmarked)
    exact .letter solid low (ih (fun same => own (Option.some.inj same).symm) others)

end Settled

theorem rdropWhile_snakeStem (name : String) :
    (snakeStem name).rdropWhile (· == '_') = snakeStem name :=
  List.rdropWhile_idempotent _ _

theorem digitGuard_eq_nil_iff {letters : List Char} :
    digitGuard letters = [] ↔ ∀ c ∈ letters.head?, c.isDigit = false := by
  cases letters with
  | nil => simp [digitGuard]
  | cons c rest => simp [digitGuard]

/-- Where an underscore guards a digit, words begin with this digit, so the underscore is alone. -/
theorem settled_guarded (letters : List Char) :
    Settled none (digitGuard letters ++ snakeWords none letters) := by
  have words : Settled none (snakeWords none letters) := settled_snakeWords _ fun none => nomatch none
  cases letters with
  | nil => exact words
  | cons c rest =>
    rw [digitGuard]
    split
    · rename_i digit
      have solid : isSeparator c = false := isSeparator_eq_false_of_isAlphanum (by
        rw [Char.isAlphanum, digit, Bool.or_true])
      have later : Settled (some c.toLower) (snakeWords (some c) rest) := settled_snakeWords _
        fun same => absurd (Option.some.inj same) (toLower_ne_underscore solid)
      rw [snakeWords, if_neg (ne_true_of_eq_false solid)]
      refine .mark (by simp) (.letter ?_ (Char.isUpper_toLower_eq_false c) later)
      rwa [toLower_kept isSeparator_eq_false_of_isAlpha]
    · exact words

theorem settled_snakeStem (name : String) : Settled none (snakeStem name) := by
  obtain ⟨dropped, whole⟩ := List.rdropWhile_prefix (· == '_')
    (digitGuard name.toList ++ snakeWords none name.toList)
  have guarded : Settled none (snakeStem name ++ dropped) := whole ▸ settled_guarded name.toList
  exact guarded.of_append

/-- Snake case never begins with a digit, so that nothing is put in front of it another time. -/
theorem digitGuard_snakeStem (name : String) : digitGuard (snakeStem name) = [] := by
  have guarded : digitGuard (digitGuard name.toList ++ snakeWords none name.toList) = [] := by
    cases name.toList with
    | nil => rfl
    | cons c rest =>
      by_cases digit : c.isDigit = true
      · simp [digitGuard, digit]
      · have low : c.toLower.isDigit = false := by
          rw [toLower_kept isDigit_eq_false_of_isAlpha]
          exact Bool.eq_false_iff.mpr digit
        by_cases word : isSeparator c = true <;>
          simp [digitGuard, digit, low, snakeWords, word, opensWord]
  obtain ⟨dropped, whole⟩ := List.rdropWhile_prefix (· == '_')
    (digitGuard name.toList ++ snakeWords none name.toList)
  rw [← whole] at guarded
  rw [snakeStem, digitGuard_eq_nil_iff]
  intro c first
  refine digitGuard_eq_nil_iff.mp guarded c ?_
  rw [List.head?_append, Option.mem_def.mp first]
  rfl

theorem underscore_not_mem_bindingKeywords : ∀ word ∈ bindingKeywords, '_' ∉ word.toList := by
  decide

/-- The underscore that sets a name apart from a keyword is dropped again, and put back. -/
theorem snakeStem_snakeCase (name : String) : snakeStem (snakeCase name) = snakeStem name := by
  have settled := settled_snakeStem name
  have guarded := digitGuard_snakeStem name
  rw [snakeCase_eq_avoiding, avoiding]
  split
  · rename_i keyword
    have unmarked := underscore_not_mem_bindingKeywords _ keyword
    rw [String.toList_ofList] at unmarked
    have marked : digitGuard (snakeStem name ++ ['_']) = [] := by
      cases letters : snakeStem name with
      | nil => rfl
      | cons c rest => rwa [letters] at guarded
    rw [snakeStem, String.toList_append, String.toList_ofList, show "_".toList = ['_'] from rfl,
      marked, List.nil_append, (settled.append_underscore (by simp) unmarked).snakeWords_eq]
    exact (List.rdropWhile_concat_pos _ _ _ rfl).trans (rdropWhile_snakeStem name)
  · rw [snakeStem, String.toList_ofList, guarded, List.nil_append, settled.snakeWords_eq]
    exact rdropWhile_snakeStem name

theorem snakeCase_snakeCase (name : String) : snakeCase (snakeCase name) = snakeCase name := by
  rw [snakeCase_eq_avoiding, snakeStem_snakeCase, ← snakeCase_eq_avoiding]

/-- A letter of a small word. -/
def isSmall (c : Char) : Bool := c.isLower || c.isDigit

/-- Settled letters of a name are segments with underscores between. Where the last letter is no
underscore, none is empty but the first one, and this one only in front of an underscore. -/
theorem Settled.exists_segments {before : Option Char} {letters : List Char}
    (settled : Settled before letters) (named : ∀ c ∈ letters, isNameChar c = true)
    (ends : ∀ c ∈ letters.getLast?, c ≠ '_') :
    ∃ word segments, letters = ['_'].intercalate (word :: segments) ∧
      (∀ c ∈ word, isSmall c = true) ∧ (∀ s ∈ segments, s ≠ [] ∧ ∀ c ∈ s, isSmall c = true) ∧
      (word = [] → before = some '_' → letters = []) := by
  have shorter {c : Char} {rest : List Char} (ends : ∀ d ∈ (c :: rest).getLast?, d ≠ '_') :
      ∀ d ∈ rest.getLast?, d ≠ '_' := fun d last =>
    ends d (by rw [List.getLast?_cons, Option.mem_def.mp last]; rfl)
  induction settled with
  | done => exact ⟨[], [], rfl, by simp, by simp, by simp⟩
  | @mark before rest fresh later ih =>
    obtain ⟨-, others⟩ := List.forall_mem_cons.mp named
    have nonempty : rest ≠ [] := by
      rintro rfl
      exact ends '_' rfl rfl
    obtain ⟨word, segments, rfl, small, more, filled⟩ := ih others (shorter ends)
    refine ⟨[], word :: segments, rfl, by simp, ?_, fun _ again => absurd again fresh⟩
    exact List.forall_mem_cons.mpr ⟨⟨fun empty => nonempty (filled empty rfl), small⟩, more⟩
  | @letter before c rest solid low later ih =>
    obtain ⟨first, others⟩ := List.forall_mem_cons.mp named
    obtain ⟨word, segments, rfl, small, more, -⟩ := ih others (shorter ends)
    have own : isSmall c = true := by
      rcases Bool.or_eq_true_iff.mp first with letter | mark
      · simpa [isSmall, Char.isAlphanum, Char.isAlpha, low] using letter
      · rw [beq_iff_eq.mp mark] at solid
        exact absurd solid (by decide)
    refine ⟨c :: word, segments, ?_, List.forall_mem_cons.mpr ⟨own, small⟩, more, by simp⟩
    cases segments <;> rfl

/-- A small letter, followed by small letters and digits in segments that single underscores join. -/
@[mk_iff]
structure Segmented (name : String) : Prop where
  opens : Opens Char.isLower name
  segments : ∃ segments : List (List Char), name.toList = ['_'].intercalate segments ∧
    ∀ s ∈ segments, s ≠ [] ∧ ∀ c ∈ s, isSmall c = true

/-- What the forms derived of an identifier look like. -/
structure NormalForms (name : String) : Prop where
  /-- Behind the segments stands an underscore just where they are a keyword. -/
  snake : ∃ stem, Segmented stem ∧
    (snakeCase name = stem ∧ stem ∉ bindingKeywords ∨
      snakeCase name = stem ++ "_" ∧ stem ∈ bindingKeywords)
  camel : Opens Char.isUpper (camelCase name) ∧ (∀ c ∈ (camelCase name).toList, c.isAlphanum = true) ∨
    camelCase name = "Self_"
  small : Opens Char.isAlpha (attributeName name) ∧
    ∀ c ∈ (attributeName name).toList, c.isUpper = false
  /-- None is empty, or begins like the names that generated code adds by itself. -/
  unmarked : ∀ form ∈ [snakeCase name, camelCase name, attributeName name], Opens (· != '_') form
  anyCase : camelCase (asciiUpper name) = camelCase (asciiLower name) ∧
    attributeName (asciiUpper name) = attributeName (asciiLower name)

theorem Opens.mono {kind other : Char → Bool} {name : String} (opens : Opens kind name)
    (wider : ∀ c, kind c = true → other c = true) : Opens other name := by
  obtain ⟨c, rest, letters, first⟩ := opens
  exact ⟨c, rest, letters, wider c first⟩

/-- A letter in front is no underscore. -/
theorem Opens.unmarked {kind : Char → Bool} {name : String} (opens : Opens kind name)
    (letters : kind '_' = false) : Opens (· != '_') name :=
  opens.mono fun c first => by
    rw [bne_iff_ne]
    rintro rfl
    rw [letters] at first
    cases first

theorem Segmented.of_settled {name : String} (opens : Opens Char.isLower name) (word : IsWord name)
    (settled : Settled none name.toList) (ends : ∀ c ∈ name.toList.getLast?, c ≠ '_') :
    Segmented name where
  opens := opens
  segments := by
    obtain ⟨c, rest, letters, first⟩ := opens
    obtain ⟨front, segments, whole, small, others, -⟩ := settled.exists_segments word ends
    have nonempty : front ≠ [] := by
      rintro rfl
      rw [letters] at whole
      cases segments with
      | nil => cases whole
      | cons s more =>
        obtain ⟨rfl, -⟩ := List.cons.inj whole
        cases first
    exact ⟨front :: segments, whole, List.forall_mem_cons.mpr ⟨⟨nonempty, small⟩, others⟩⟩

/-- All keywords but one are in small letters. -/
theorem isLower_of_mem_bindingKeywords {word : String} (keyword : word ∈ bindingKeywords)
    (other : word ≠ "Self") : ∀ c ∈ word.toList, c.isLower = true := by
  have small : ∀ word ∈ bindingKeywords.erase "Self", word.toList.all Char.isLower = true := by
    decide +kernel
  exact List.all_eq_true.mp (small word ((List.mem_erase_of_ne other).mpr keyword))

section

variable {name : String} (identifier : isIdentifier name = true)
include identifier

theorem segmented_snakeStem : Segmented (String.ofList (snakeStem name)) := by
  obtain ⟨marks, suffixed, all⟩ := avoiding_toList bindingKeywords (String.ofList (snakeStem name))
  rw [← snakeCase_eq_avoiding, String.toList_ofList] at suffixed
  have part : snakeStem name ⊆ (snakeCase name).toList := by
    rw [suffixed]
    exact List.subset_append_left ..
  refine .of_settled ?_ ?_ ?_ ?_
  · obtain ⟨c, rest, letters, first⟩ := snakeCase_opens identifier
    rw [letters] at suffixed
    cases stem : snakeStem name with
    | nil =>
      rw [stem, List.nil_append] at suffixed
      rw [all c (suffixed ▸ List.mem_cons_self ..)] at first
      cases first
    | cons d more =>
      rw [stem, List.cons_append] at suffixed
      obtain ⟨rfl, -⟩ := List.cons.inj suffixed
      exact ⟨c, more, String.toList_ofList, first⟩
  · rw [IsWord, String.toList_ofList]
    exact fun c inside => isWord_snakeCase identifier c (part inside)
  · rw [String.toList_ofList]
    exact settled_snakeStem name
  · rw [String.toList_ofList]
    rintro c last rfl
    obtain ⟨some, same⟩ := List.mem_getLast?_eq_getLast last
    exact List.rdropWhile_eq_self_iff.mp (rdropWhile_snakeStem name) some (beq_iff_eq.mpr same.symm)

theorem camelCase_cases :
    Opens Char.isUpper (camelCase name) ∧ (∀ c ∈ (camelCase name).toList, c.isAlphanum = true) ∨
      camelCase name = "Self_" := by
  obtain ⟨c, rest, letters, upper⟩ := camelCase_opens identifier
  obtain ⟨d, others, parts, alpha, -⟩ := isIdentifier_iff.mp identifier
  have cased : camelCase name =
      avoiding bindingKeywords (String.ofList (camelWords true name.toList)) := by
    rw [camelCase, parts, digitGuard_eq_nil alpha, List.nil_append]
  unfold avoiding at cased
  split at cased
  · rename_i keyword
    have own : String.ofList (camelWords true name.toList) = "Self" := by
      by_contra other
      have first : c ∈ (camelCase name).toList := letters ▸ List.mem_cons_self ..
      rw [cased, String.toList_append] at first
      rcases List.mem_append.mp first with inside | mark
      · exact Char.not_isLower_of_isUpper upper
          (isLower_of_mem_bindingKeywords keyword other c inside)
      · rw [List.mem_singleton.mp mark] at upper
        cases upper
    exact .inr (by rw [cased, own]; rfl)
  · refine .inl ⟨⟨c, rest, letters, upper⟩, fun c inside => ?_⟩
    rw [cased, String.toList_ofList] at inside
    exact isAlphanum_of_mem_camelWords (isWord_of_isIdentifier identifier) inside

theorem normalForms : NormalForms name where
  snake := by
    refine ⟨String.ofList (snakeStem name), segmented_snakeStem identifier, ?_⟩
    rw [snakeCase_eq_avoiding, avoiding]
    split
    · rename_i keyword
      exact .inr ⟨rfl, keyword⟩
    · rename_i free
      exact .inl ⟨rfl, free⟩
  camel := camelCase_cases identifier
  small := by
    refine ⟨(attributeName_opens identifier).mono fun c low => ?_, fun c inside => ?_⟩
    · rw [Char.isAlpha, low, Bool.or_true]
    · rcases mem_avoiding inside with among | rfl
      · rw [asciiLower, String.toList_map] at among
        obtain ⟨d, -, rfl⟩ := List.mem_map.mp among
        exact Char.isUpper_toLower_eq_false d
      · rfl
  unmarked := by
    refine List.forall_mem_cons.mpr ⟨(snakeCase_opens identifier).unmarked rfl,
      List.forall_mem_cons.mpr ⟨(camelCase_opens identifier).unmarked rfl,
        List.forall_mem_singleton.mpr ((attributeName_opens identifier).unmarked rfl)⟩⟩
  anyCase := by
    constructor
    · rw [← camelCase_asciiLower (asciiUpper name), asciiLower_asciiUpper]
    · rw [← attributeName_asciiLower (asciiUpper name), asciiLower_asciiUpper]

end

/-- Names in snake case stay as they are, whatever text they were made of. The forms of an identifier
are normal. -/
theorem name_forms_normal :
    (∀ name, snakeCase (snakeCase name) = snakeCase name) ∧
      ∀ name, isIdentifier name = true → NormalForms name :=
  ⟨snakeCase_snakeCase, fun _ => normalForms⟩

theorem self_normal : isIdentifier "Self__" = true ∧ NormalForms "Self__" := by
  have identifier : isIdentifier "Self__" = true := by decide +kernel
  exact ⟨identifier, name_forms_normal.2 _ identifier⟩

end RegisterMap
