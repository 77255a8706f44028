import RegisterMap.Proofs.Words
import Mathlib.Data.List.DropRight

namespace RegisterMap

/-- Words that Rust 2021 keeps for itself, those without a use so far among them. -/
def reservedWords : List String :=
  ["as", "async", "await", "break", "const", "continue", "crate", "dyn", "else", "enum", "extern",
    "false", "fn", "for", "if", "impl", "in", "let", "loop", "match", "mod", "move", "mut", "pub",
    "ref", "return", "self", "Self", "static", "struct", "super", "trait", "true", "type",
    "unsafe", "use", "where", "while",
    "abstract", "become", "box", "do", "final", "macro", "override", "priv", "try", "typeof",
    "unsized", "virtual", "yield"]

/-- Those that names derived for bindings are not kept apart from. -/
def unguardedWords : List String := ["extern", "false", "try"]

/-- A name that is a word in letters of either case, with underscores behind it at most. A capital
after a small letter would make two words of it. -/
def Spells (word name : String) : Prop :=
  ∃ letters tail, name.toList = letters ++ tail ∧ letters.map Char.toLower = word.toList ∧
    letters.IsChain (fun b c => b.isLower = true → c.isUpper = false) ∧ ∀ c ∈ tail, c = '_'

theorem ne_underscore_of_isLower {c : Char} (small : c.isLower = true) : c ≠ '_' := by
  rintro rfl
  cases small

/-- No letter of a name gets lost. -/
theorem toLower_mem_snakeWords {before : Option Char} {letters : List Char} {c : Char}
    (inside : c ∈ letters) (letter : isSeparator c = false) :
    c.toLower ∈ snakeWords before letters := by
  induction letters generalizing before with
  | nil => cases inside
  | cons d rest ih =>
    rw [snakeWords]
    rcases List.mem_cons.mp inside with rfl | later
    · rw [if_neg (ne_true_of_eq_false letter)]
      split <;> simp
    · have found (front : Option Char) : c.toLower ∈ snakeWords front rest := ih later
      split
      · split <;> simp [found]
      · split <;> simp [found]

/-- Only underscores come out as underscores alone. -/
theorem eq_underscore_of_snakeWords {before : Option Char} {letters : List Char}
    (named : ∀ c ∈ letters, isNameChar c = true)
    (marks : ∀ c ∈ snakeWords before letters, c = '_') : ∀ c ∈ letters, c = '_' := by
  intro c inside
  rcases Bool.or_eq_true_iff.mp (named c inside) with letter | mark
  · have solid := isSeparator_eq_false_of_isAlphanum letter
    have low := isAlphanum_toLower letter
    rw [marks _ (toLower_mem_snakeWords inside solid)] at low
    cases low
  · exact beq_iff_eq.mp mark

theorem snakeWords_underscores {before : Option Char} {tail : List Char}
    (marks : ∀ c ∈ tail, c = '_') : ∀ c ∈ snakeWords before tail, c = '_' := by
  induction tail generalizing before with
  | nil => exact List.forall_mem_nil _
  | cons c rest ih =>
    obtain ⟨rfl, others⟩ := List.forall_mem_cons.mp marks
    rw [snakeWords, if_pos (by decide)]
    split
    · exact ih others
    · exact List.forall_mem_cons.mpr ⟨rfl, ih others⟩

/-- Letters that stay one word behind a character, if one is in front. -/
def Joined (before : Option Char) (letters : List Char) : Prop :=
  (∀ b ∈ before, ∀ c ∈ letters.head?, opensWord (some b) c = false) ∧
    letters.IsChain fun b c => opensWord (some b) c = false

theorem joined_cons {before : Option Char} {c : Char} {rest : List Char} :
    Joined before (c :: rest) ↔ opensWord before c = false ∧ Joined (some c) rest := by
  have first : (∀ b ∈ before, opensWord (some b) c = false) ↔ opensWord before c = false := by
    cases before with
    | none => simp [opensWord]
    | some b => simp
  simp only [Joined, List.isChain_cons, List.head?_cons, Option.mem_def, Option.some.injEq,
    forall_eq'] at first ⊢
  rw [first]

section

variable {before : Option Char} {word : List Char} (small : ∀ c ∈ word, c.isLower = true)
include small

/-- The letters of one word come out in small form, and underscores behind them as such. -/
theorem exists_snakeWords {letters tail : List Char} (spelled : letters.map Char.toLower = word)
    (joined : Joined before letters) (marks : ∀ c ∈ tail, c = '_') :
    ∃ behind, (∀ c ∈ behind, c = '_') ∧ snakeWords before (letters ++ tail) = word ++ behind := by
  induction letters generalizing before word with
  | nil =>
    obtain rfl := spelled
    exact ⟨_, snakeWords_underscores marks, rfl⟩
  | cons c rest ih =>
    obtain rfl := spelled
    obtain ⟨low, others⟩ := List.forall_mem_cons.mp small
    obtain ⟨stays, rest'⟩ := joined_cons.mp joined
    rw [Char.isLower_toLower_eq_isAlpha] at low
    have solid := isSeparator_eq_false_of_isAlphanum (isAlphanum_of_isAlpha low)
    obtain ⟨behind, all, words⟩ := ih others rfl rest'
    refine ⟨behind, all, ?_⟩
    rw [List.cons_append, snakeWords, solid, stays, words]
    rfl

/-- Small letters with underscores behind them come from one word alone. -/
theorem exists_of_snakeWords {name behind : List Char} (named : ∀ c ∈ name, isNameChar c = true)
    (inWord : before ≠ some '_') (marks : ∀ c ∈ behind, c = '_')
    (words : snakeWords before name = word ++ behind) :
    ∃ letters tail, name = letters ++ tail ∧ letters.map Char.toLower = word ∧
      Joined before letters ∧ ∀ c ∈ tail, c = '_' := by
  induction word generalizing before name with
  | nil =>
    rw [List.nil_append] at words
    refine ⟨[], name, rfl, rfl, ?_, eq_underscore_of_snakeWords named (words ▸ marks)⟩
    simp [Joined]
  | cons c word ih =>
    obtain ⟨low, others⟩ := List.forall_mem_cons.mp small
    have letter := ne_underscore_of_isLower low
    cases name with
    | nil => cases words
    | cons d rest =>
      obtain ⟨first, rest'⟩ := List.forall_mem_cons.mp named
      rw [snakeWords, if_neg inWord] at words
      split at words
      · exact absurd (List.cons.inj words).1.symm letter
      · rename_i solid
        split at words
        · exact absurd (List.cons.inj words).1.symm letter
        · rename_i stays
          obtain ⟨rfl, others'⟩ := List.cons.inj words
          have inWord : some d ≠ some '_' := by
            rintro ⟨⟩
            exact solid (by decide)
          obtain ⟨letters, tail, rfl, rfl, joined, under⟩ := ih others rest' inWord others'
          refine ⟨d :: letters, tail, rfl, rfl, joined_cons.mpr ⟨?_, joined⟩, under⟩
          exact Bool.eq_false_iff.mpr stays

end

theorem rdropWhile_eq_iff {α : Type} {p : α → Bool} {l kept : List α}
    (solid : ∀ a ∈ kept, p a = false) :
    l.rdropWhile p = kept ↔ ∃ behind, (∀ a ∈ behind, p a = true) ∧ l = kept ++ behind := by
  constructor
  · rintro rfl
    exact ⟨l.rtakeWhile p, fun a inside => List.mem_rtakeWhile_imp inside,
      List.rdropWhile_append_rtakeWhile.symm⟩
  · rintro ⟨behind, gone, rfl⟩
    have all : ∀ a ∈ behind.reverse, p a = true := fun a inside =>
      gone a (List.mem_reverse.mp inside)
    rw [List.rdropWhile, List.reverse_append, List.dropWhile_append_of_pos all]
    refine List.rdropWhile_eq_self_iff.mpr fun some last => ?_
    rw [solid _ (List.getLast_mem some)] at last
    cases last

theorem isAlpha_of_map_toLower {letters word : List Char}
    (spelled : letters.map Char.toLower = word) (small : ∀ c ∈ word, c.isLower = true) :
    ∀ c ∈ letters, c.isAlpha = true := by
  intro c inside
  have low := small c.toLower (spelled ▸ List.mem_map_of_mem inside)
  rwa [Char.isLower_toLower_eq_isAlpha] at low

theorem joined_none_iff {letters : List Char} (alpha : ∀ c ∈ letters, c.isAlpha = true) :
    Joined none letters ↔
      letters.IsChain fun b c => b.isLower = true → c.isUpper = false := by
  rw [Joined, and_iff_right (fun b none => by cases none)]
  refine List.IsChain.iff_of_mem_imp fun b c inside _ => ?_
  have digit : b.isDigit = false := by
    rw [← Bool.not_eq_true]
    intro digit
    have ranges := isAlpha_ranges (alpha b inside)
    have range := isDigit_range digit
    omega
  cases small : b.isLower <;> simp [opensWord, small, digit]

/-- Snake case gives a word in small letters, before it minds keywords, for the spellings of this
word and for no other name. -/
theorem snakeStem_eq_iff {name word : String} (identifier : isIdentifier name = true)
    (small : ∀ c ∈ word.toList, c.isLower = true) :
    snakeStem name = word.toList ↔ Spells word name := by
  have named := isWord_of_isIdentifier identifier
  have solid : ∀ c ∈ word.toList, (c == '_') = false := fun c inside =>
    beq_eq_false_iff_ne.mpr (ne_underscore_of_isLower (small c inside))
  rw [snakeStem_eq identifier, rdropWhile_eq_iff solid]
  simp only [beq_iff_eq]
  constructor
  · rintro ⟨behind, marks, words⟩
    obtain ⟨letters, tail, parts, spelled, joined, under⟩ :=
      exists_of_snakeWords small named (by decide) marks words
    have alpha := isAlpha_of_map_toLower spelled small
    exact ⟨letters, tail, parts, spelled, (joined_none_iff alpha).mp joined, under⟩
  · rintro ⟨letters, tail, parts, spelled, chain, under⟩
    have alpha := isAlpha_of_map_toLower spelled small
    rw [parts]
    exact exists_snakeWords small spelled ((joined_none_iff alpha).mpr chain) under

theorem underscore_not_mem_reservedWords :
    ∀ word ∈ reservedWords, '_' ∉ word.toList := by decide

theorem mem_unguardedWords_iff {word : String} :
    word ∈ unguardedWords ↔ word ∈ reservedWords ∧ word ∉ bindingKeywords := by
  constructor
  · have all : ∀ word ∈ unguardedWords, word ∈ reservedWords ∧ word ∉ bindingKeywords := by
      decide
    exact all word
  · rintro ⟨reserved, free⟩
    have all : ∀ word ∈ reservedWords, word ∈ bindingKeywords ∨ word ∈ unguardedWords := by
      decide
    exact (all word reserved).resolve_left free

theorem isLower_of_mem_unguardedWords :
    ∀ word ∈ unguardedWords, ∀ c ∈ word.toList, c.isLower = true := by simp [unguardedWords]

theorem camelCase_not_mem_reservedWords {name : String} (identifier : isIdentifier name = true) :
    camelCase name ∉ reservedWords := by
  intro reserved
  obtain ⟨c, rest, letters, upper⟩ := camelCase_opens identifier
  have free := (avoiding_mem_iff underscore_not_mem_reservedWords).mp reserved
  have same : camelCase name = _ := if_neg free.2
  rw [← same] at free
  have small := isLower_of_mem_unguardedWords _ (mem_unguardedWords_iff.mpr free) c
  rw [letters] at small
  exact Char.not_isLower_of_isUpper upper (small (List.mem_cons_self ..))

/-- The members of bindings are called like reserved words where names are spellings of the three
unguarded ones; types, fields and values never are. -/
theorem names_reserved_iff {name : String} (identifier : isIdentifier name = true) :
    (snakeCase name ∈ reservedWords ↔ ∃ word ∈ unguardedWords, Spells word name) ∧
      camelCase name ∉ reservedWords := by
  refine ⟨?_, camelCase_not_mem_reservedWords identifier⟩
  rw [snakeCase_eq_avoiding, avoiding_mem_iff underscore_not_mem_reservedWords, ← mem_unguardedWords_iff]
  constructor
  · intro free
    have spelled := snakeStem_eq_iff identifier (isLower_of_mem_unguardedWords _ free)
    exact ⟨_, free, spelled.mp String.toList_ofList.symm⟩
  · rintro ⟨word, free, spells⟩
    have spelled := snakeStem_eq_iff identifier (isLower_of_mem_unguardedWords word free)
    rwa [spelled.mpr spells, String.ofList_toList]

theorem extern_reserved :
    isIdentifier "EXTern__" = true ∧ snakeCase "EXTern__" ∈ reservedWords ∧
      camelCase "EXTern__" ∉ reservedWords := by
  have identifier : isIdentifier "EXTern__" = true := by decide +kernel
  have spells : Spells "extern" "EXTern__" :=
    ⟨"EXTern".toList, ['_', '_'], by decide +kernel, by decide +kernel, by decide +kernel, by simp⟩
  obtain ⟨member, types⟩ := names_reserved_iff identifier
  exact ⟨identifier, member.mpr ⟨"extern", by decide, spells⟩, types⟩

/-- A register that is called like a reserved word can give its member this very name. -/
theorem extern_not_apart : ¬ ∀ name, isIdentifier name = true →
    snakeCase name ∉ reservedWords ∧ camelCase name ∉ reservedWords := by
  intro apart
  have member : snakeCase "EXTERN" = "extern" := by decide +kernel
  obtain ⟨differs, _⟩ := apart "EXTERN" (by decide +kernel)
  rw [member] at differs
  exact differs (by decide)

end RegisterMap
