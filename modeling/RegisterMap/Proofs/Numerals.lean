import RegisterMap.Proofs.Words

namespace RegisterMap

namespace Numeral

/-- The digits of all bases up to sixteen, each at the place of its value. -/
def digitOrder : List Char :=
  ['0', '1', '2', '3', '4', '5', '6', '7', '8', '9', 'a', 'b', 'c', 'd', 'e', 'f']

/-- A digit below `base`, as a letter in either case. -/
def IsDigit (base : Nat) (c : Char) : Prop := c.toLower ∈ digitOrder.take base

instance {base : Nat} {c : Char} : Decidable (IsDigit base c) :=
  inferInstanceAs (Decidable (c.toLower ∈ digitOrder.take base))

def digitValue (c : Char) : Nat := digitOrder.idxOf c.toLower

/-- What digits mean by their places, the last of them counting ones. -/
def positional (base : Nat) (digits : List Char) : Nat :=
  Nat.ofDigits base (digits.map digitValue).reverse

/-- One or more digits, with or without a plus sign before them. -/
inductive Unsigned (base : Nat) : List Char → Nat → Prop
  | plain {digits} : digits ≠ [] → (∀ c ∈ digits, IsDigit base c) →
      Unsigned base digits (positional base digits)
  | plus {digits} : digits ≠ [] → (∀ c ∈ digits, IsDigit base c) →
      Unsigned base ('+' :: digits) (positional base digits)

/-- The notations of a number. -/
inductive Based : List Char → Nat → Prop
  | hex {mark digits n} : mark = 'x' ∨ mark = 'X' → Unsigned 16 digits n →
      Based ('0' :: mark :: digits) n
  | binary {mark digits n} : mark = 'b' ∨ mark = 'B' → Unsigned 2 digits n →
      Based ('0' :: mark :: digits) n
  | decimal {digits n} : Unsigned 10 digits n → Based digits n

/-- What is left of a text without the white space around it. -/
structure IsCore (text core : List Char) : Prop where
  around : ∃ before after, text = before ++ core ++ after ∧
    (∀ c ∈ before, isBlank c = true) ∧ ∀ c ∈ after, isBlank c = true
  first : ∀ c ∈ core.head?, isBlank c = false
  last : ∀ c ∈ core.getLast?, isBlank c = false

/-- Whether a text is a notation of a number of 64 bits. White space around it does not count,
nor do underscores, wherever they stand. -/
def Denotes (text : String) (n : Nat) : Prop :=
  ∃ core, IsCore text.toList core ∧ Based (core.filter (· ≠ '_')) n ∧ n < 2 ^ 64

/-- A text and what it becomes by underscores put in anywhere. -/
inductive Marked : List Char → List Char → Prop
  | nil : Marked [] []
  | same {c text marked} : Marked text marked → Marked (c :: text) (c :: marked)
  | mark {text marked} : Marked text marked → Marked text ('_' :: marked)

/-- Digits with a mark before each group of four, counted from the right. -/
inductive Grouped : List Char → List Char → Prop
  | short {digits} : digits.length ≤ 4 → Grouped digits digits
  | group {digits grouped four} : digits ≠ [] → four.length = 4 → Grouped digits grouped →
      Grouped (digits ++ four) (grouped ++ '_' :: four)

theorem isDigit_iff (base : Nat) (c : Char) :
    IsDigit base c ↔ IsDigit 16 c ∧ digitValue c < base := by
  have whole : digitOrder.take 16 = digitOrder := rfl
  rw [IsDigit, IsDigit, whole, digitValue]
  constructor
  · intro inside
    have among := List.mem_of_mem_take inside
    exact ⟨among, (List.mem_take_iff_idxOf_lt among).mp inside⟩
  · rintro ⟨among, low⟩
    exact (List.mem_take_iff_idxOf_lt among).mpr low

theorem digitValue?_sixteen (c : Char) :
    digitValue? 16 c = if IsDigit 16 c then some (digitValue c) else none := by
  have ascii : ∀ n < 128, digitValue? 16 (.ofNat n) =
      if IsDigit 16 (.ofNat n) then some (digitValue (.ofNat n)) else none := by decide +kernel
  by_cases low : c.toNat < 128
  · have known := ascii c.toNat low
    rwa [Char.ofNat_toNat] at known
  · have kept : c.toLower = c := by
      refine Char.toLower_eq_of_not_isUpper fun upper => ?_
      have ranges := isAlpha_ranges (c := c) (by rw [Char.isAlpha, upper, Bool.true_or])
      omega
    have outside : ¬ IsDigit 16 c := fun inside => by
      have all : ∀ d ∈ digitOrder, d.toNat < 128 := by simp [digitOrder]
      rw [IsDigit, kept] at inside
      exact low (all c (List.mem_of_mem_take inside))
    have above (d e : Char) (small : e.toNat < 128) : ¬ (d ≤ c ∧ c ≤ e) := fun between =>
      low (Nat.lt_of_le_of_lt (Char.le_def.mp between.2) small)
    rw [if_neg outside, digitValue?, if_neg (above _ _ (by decide)), if_neg (above _ _ (by decide)),
      if_neg (above _ _ (by decide))]
    rfl

/-- A digit of a smaller base is one of sixteen whose value is below that base. -/
theorem digitValue?_eq {base : Nat} (small : base ≤ 16) (c : Char) :
    digitValue? base c = if IsDigit base c then some (digitValue c) else none := by
  have narrow : digitValue? base c = (digitValue? 16 c).filter (· < base) := by
    simp only [digitValue?, Option.filter_filter]
    congr 1
    funext value
    rw [← Bool.decide_and]
    exact decide_eq_decide.mpr (by omega)
  rw [narrow, digitValue?_sixteen]
  by_cases digit : IsDigit 16 c
  · simp [isDigit_iff base c, digit, Option.filter_some]
  · rw [if_neg digit, if_neg fun inside => digit ((isDigit_iff base c).mp inside).1]
    rfl

@[simp] theorem positional_nil (base : Nat) : positional base [] = 0 := rfl

theorem positional_cons (base : Nat) (c : Char) (rest : List Char) :
    positional base (c :: rest) = digitValue c * base ^ rest.length + positional base rest := by
  rw [positional, List.map_cons, List.reverse_cons, Nat.ofDigits_append, Nat.ofDigits_singleton,
    List.length_reverse, List.length_map, Nat.mul_comm, Nat.add_comm]
  rfl

/-- Reading from the left, each digit moves all before it up by one place. -/
theorem numberAfter?_eq_some_iff {base : Nat} (small : base ≤ 16) {value n : Nat}
    {digits : List Char} :
    numberAfter? base value digits = some n ↔
      (∀ c ∈ digits, IsDigit base c) ∧ value * base ^ digits.length + positional base digits = n := by
  induction digits generalizing value with
  | nil => simp [numberAfter?]
  | cons c rest ih =>
    have places : (value * base + digitValue c) * base ^ rest.length + positional base rest =
        value * base ^ (c :: rest).length + positional base (c :: rest) := by
      rw [positional_cons, List.length_cons, pow_succ]
      ring
    rw [numberAfter?, digitValue?_eq small, List.forall_mem_cons, and_assoc, ← places]
    split
    · rename_i digit
      rw [Option.bind_some, ih]
      exact (and_iff_right digit).symm
    · rename_i other
      simp [other]

/-- The reader stops as soon as the number is past 64 bits. It could not have come back below. -/
theorem digitsAfter_eq_ok_iff {base value n : Nat} (wide : 0 < base) {digits : List Char}
    (start : value < UInt64.size) :
    digitsAfter base value digits = .ok n ↔
      numberAfter? base value digits = some n ∧ n < UInt64.size := by
  induction digits generalizing value with
  | nil =>
    simp only [digitsAfter, numberAfter?, Except.ok.injEq, Option.some.injEq]
    constructor
    · rintro rfl
      exact ⟨rfl, start⟩
    · exact And.left
  | cons c rest ih =>
    rw [digitsAfter, numberAfter?]
    cases digitValue? base c with
    | none => simp
    | some digit =>
      simp only [Option.bind_some]
      split
      · rename_i fits
        exact ih fits
      · rename_i large
        simp only [reduceCtorEq, false_iff, not_and]
        intro reads below
        have grown := le_of_numberAfter? wide reads
        omega

theorem Unsigned.of_numberAfter? {base n : Nat} (small : base ≤ 16) {digits : List Char}
    (nonempty : digits ≠ []) (reads : numberAfter? base 0 digits = some n) :
    Unsigned base digits n := by
  obtain ⟨all, value⟩ := (numberAfter?_eq_some_iff small).mp reads
  rw [Nat.zero_mul, Nat.zero_add] at value
  exact value ▸ .plain nonempty all

section

variable {base n : Nat} (wide : 0 < base) (small : base ≤ 16)
include wide small

theorem digitsAfter_zero_eq_ok_iff {digits : List Char} :
    digitsAfter base 0 digits = .ok n ↔
      ((∀ c ∈ digits, IsDigit base c) ∧ positional base digits = n) ∧ n < 2 ^ 64 := by
  rw [digitsAfter_eq_ok_iff wide (by decide), numberAfter?_eq_some_iff small, Nat.zero_mul,
    Nat.zero_add]
  rfl

omit wide in
theorem not_isDigit_plus : ¬ IsDigit base '+' := by
  have all : ∀ base < 17, ¬ IsDigit base '+' := by decide
  exact all base (by omega)

theorem unsignedDigits_eq_ok_iff {text : List Char} :
    unsignedDigits base text = .ok n ↔ Unsigned base text n ∧ n < 2 ^ 64 := by
  unfold unsignedDigits
  split
  · simp only [reduceCtorEq, false_iff, not_and]
    intro empty
    cases empty
    contradiction
  · simp only [reduceCtorEq, false_iff, not_and]
    intro sign
    cases sign with
    | plain _ all => exact absurd (all '+' (List.mem_singleton_self _)) (not_isDigit_plus small)
    | plus nonempty _ => exact absurd rfl nonempty
  · rename_i digits some
    rw [digitsAfter_zero_eq_ok_iff wide small]
    refine and_congr_left fun _ => ⟨?_, fun unsigned => ?_⟩
    · rintro ⟨all, rfl⟩
      exact .plus (fun none => some (none ▸ rfl)) all
    · cases unsigned with
      | plain _ all => exact absurd (all '+' (List.mem_cons_self ..)) (not_isDigit_plus small)
      | plus _ all => exact ⟨all, rfl⟩
  · rename_i digits nonempty _ unsigned
    rw [digitsAfter_zero_eq_ok_iff wide small]
    refine and_congr_left fun _ => ⟨?_, fun unsigned => ?_⟩
    · rintro ⟨all, rfl⟩
      exact .plain nonempty all
    · cases unsigned with
      | plain _ all => exact ⟨all, rfl⟩
      | plus _ _ => exact absurd rfl (unsigned _)

end

/-- No decimal number has a letter behind its first digit. -/
theorem not_unsigned_decimal {mark : Char} (other : ¬ IsDigit 10 mark) {digits : List Char}
    {n : Nat} : ¬ Unsigned 10 ('0' :: mark :: digits) n := fun unsigned => by
  cases unsigned with
  | plain _ all => exact other (all mark (by simp))

theorem based_marked_iff {mark : Char} (other : ¬ IsDigit 10 mark) {digits : List Char} {n : Nat} :
    Based ('0' :: mark :: digits) n ↔
      (mark = 'x' ∨ mark = 'X') ∧ Unsigned 16 digits n ∨
        (mark = 'b' ∨ mark = 'B') ∧ Unsigned 2 digits n := by
  constructor
  · intro based
    cases based with
    | hex marked unsigned => exact .inl ⟨marked, unsigned⟩
    | binary marked unsigned => exact .inr ⟨marked, unsigned⟩
    | decimal unsigned => exact absurd unsigned (not_unsigned_decimal other)
  · rintro (⟨marked, unsigned⟩ | ⟨marked, unsigned⟩)
    · exact .hex marked unsigned
    · exact .binary marked unsigned

theorem basedDigits_eq_ok_iff {text : List Char} {n : Nat} :
    basedDigits text = .ok n ↔ Based text n ∧ n < 2 ^ 64 := by
  unfold basedDigits
  split
  case h_5 hex capitalHex binary capitalBinary =>
    rw [unsignedDigits_eq_ok_iff (by decide) (by decide)]
    refine and_congr_left fun _ => ⟨.decimal, fun based => ?_⟩
    cases based with
    | hex marked _ =>
      rcases marked with rfl | rfl
      · exact absurd rfl (hex _)
      · exact absurd rfl (capitalHex _)
    | binary marked _ =>
      rcases marked with rfl | rfl
      · exact absurd rfl (binary _)
      · exact absurd rfl (capitalBinary _)
    | decimal unsigned => exact unsigned
  all_goals
    rw [unsignedDigits_eq_ok_iff (by decide) (by decide), based_marked_iff (by decide)]
    simp

theorem eq_false_of_head?_dropWhile {α : Type} {p : α → Bool} {l : List α} {a : α}
    (head : (l.dropWhile p).head? = some a) : p a = false := by
  have stops := List.head?_dropWhile_not p l
  rwa [head] at stops

theorem dropWhile_eq_self_of_head? {α : Type} {p : α → Bool} {l : List α}
    (kept : ∀ a ∈ l.head?, p a = false) : l.dropWhile p = l := by
  cases l with
  | nil => rfl
  | cons a rest => rw [List.dropWhile_cons_of_neg (by simp [kept a rfl])]

theorem isCore_trimBlank (text : List Char) : IsCore text (trimBlank text) where
  around := by
    refine ⟨text.takeWhile isBlank, ((text.dropWhile isBlank).reverse.takeWhile isBlank).reverse,
      ?_, ?_, ?_⟩
    · rw [List.append_assoc, trimBlank, ← List.reverse_append,
        List.takeWhile_append_dropWhile, List.reverse_reverse, List.takeWhile_append_dropWhile]
    · exact fun c inside => List.mem_takeWhile_imp inside
    · exact fun c inside => List.mem_takeWhile_imp (List.mem_reverse.mp inside)
  first := by
    intro c head
    obtain ⟨after, whole⟩ := List.rdropWhile_prefix isBlank (text.dropWhile isBlank)
    refine eq_false_of_head?_dropWhile (l := text) ?_
    rw [← whole, List.head?_append, show (List.rdropWhile ..).head? = some c from head, Option.some_or]
  last := by
    intro c last
    rw [trimBlank, List.getLast?_reverse] at last
    exact eq_false_of_head?_dropWhile last

/-- There is one core of a text, and trimming finds it. -/
theorem IsCore.trimBlank_eq {text core : List Char} (isCore : IsCore text core) :
    trimBlank text = core := by
  obtain ⟨before, after, rfl, blankBefore, blankAfter⟩ := isCore.around
  have ended : (core ++ after).rdropWhile isBlank = core := by
    have turned : ∀ c ∈ core.reverse.head?, isBlank c = false := by
      rw [List.head?_reverse]
      exact isCore.last
    rw [List.rdropWhile, List.reverse_append, List.dropWhile_append_of_pos
      fun c inside => blankAfter c (List.mem_reverse.mp inside),
      dropWhile_eq_self_of_head? turned, List.reverse_reverse]
  rw [trimBlank, List.append_assoc, List.dropWhile_append_of_pos blankBefore]
  cases core with
  | nil =>
    rw [List.nil_append, ← List.append_nil after, List.dropWhile_append_of_pos blankAfter]
    rfl
  | cons c rest =>
    rw [dropWhile_eq_self_of_head? (l := c :: rest ++ after) isCore.first]
    exact ended

theorem isCore_iff {text core : List Char} : IsCore text core ↔ trimBlank text = core :=
  ⟨IsCore.trimBlank_eq, fun trimmed => trimmed ▸ isCore_trimBlank text⟩

theorem readNumeral_eq_ok_iff {text : String} {n : Nat} :
    readNumeral text = .ok n ↔ Denotes text n := by
  simp only [readNumeral, basedDigits_eq_ok_iff, Denotes, isCore_iff, exists_eq_left']

theorem Marked.filter_eq {text marked : List Char} (marks : Marked text marked) :
    marked.filter (· ≠ '_') = text.filter (· ≠ '_') := by
  induction marks with
  | nil => rfl
  | same _ ih => rw [List.filter_cons, List.filter_cons, ih]
  | mark _ ih => rw [List.filter_cons_of_neg (by simp), ih]

theorem Marked.mem {text marked : List Char} (marks : Marked text marked) {c : Char}
    (inside : c ∈ marked) : c ∈ text ∨ c = '_' := by
  induction marks with
  | nil => exact .inl inside
  | same _ ih =>
    rcases List.mem_cons.mp inside with rfl | later
    · exact .inl (List.mem_cons_self ..)
    · exact (ih later).imp_left (List.mem_cons_of_mem _)
  | mark _ ih =>
    rcases List.mem_cons.mp inside with rfl | later
    · exact .inr rfl
    · exact ih later

theorem isBlank_eq_false_of_isNameChar {c : Char} (named : isNameChar c = true) :
    isBlank c = false := by
  have low := isNameChar_lt named
  have high : 48 ≤ c.toNat := by
    rw [isNameChar, Char.isAlphanum, Bool.or_eq_true, Bool.or_eq_true, beq_iff_eq] at named
    rcases named with (alpha | digit) | rfl
    · have ranges := isAlpha_ranges alpha
      omega
    · exact (isDigit_range digit).1
    · decide
  rw [← Bool.not_eq_true]
  simp only [isBlank, Bool.or_eq_true, Bool.and_eq_true, decide_eq_true_eq, beq_iff_eq]
  omega

theorem isCore_self {text : List Char} (named : ∀ c ∈ text, isNameChar c = true) :
    IsCore text text where
  around := ⟨[], [], by simp⟩
  first c head := isBlank_eq_false_of_isNameChar (named c (List.mem_of_head? head))
  last c last := isBlank_eq_false_of_isNameChar (named c (List.mem_of_getLast? last))

theorem filter_eq_skipMarks (digits : List Char) :
    digits.filter (· ≠ '_') = skipMarks true digits := by
  rw [skipMarks, if_pos rfl]
  exact List.filter_congr fun c _ => by rw [Bool.eq_iff_iff, decide_eq_true_eq, bne_iff_ne]

theorem based_hexadecimal {digits : List Char} {n : Nat} (zeros : Nat)
    (written : skipMarks true digits = List.replicate zeros '0' ++ hexDigits n) :
    Based (('0' :: 'x' :: digits).filter (· ≠ '_')) n := by
  have opening : ('0' :: 'x' :: digits).filter (· ≠ '_') = '0' :: 'x' :: skipMarks true digits := by
    rw [filter_eq_skipMarks]
    rfl
  rw [opening, written]
  refine .hex (.inl rfl) (.of_numberAfter? le_rfl ?_ ?_)
  · exact List.append_ne_nil_of_right_ne_nil _ Nat.toDigits_ne_nil
  · rw [numberAfter?_zeros 16 zeros (by decide)]
    exact numberAfter?_toDigits 16 (by decide) (by decide) n

theorem based_decimal (n : Nat) : Based ((decimal n).toList.filter (· ≠ '_')) n := by
  rw [decimal, Nat.repr_eq_ofList_toDigits, String.toList_ofList, filter_eq_skipMarks,
    skipMarks_eq_self true Nat.underscore_not_in_toDigits]
  exact .decimal (.of_numberAfter? (by decide) Nat.toDigits_ne_nil
    (numberAfter?_toDigits 10 (by decide) (by decide) n))

theorem based_text (l : Literal) : Based (l.text.toList.filter (· ≠ '_')) l.value := by
  cases l with
  | decimal n => exact based_decimal n
  | hex n =>
    rw [Literal.text, hexLiteral, String.toList_ofList]
    exact based_hexadecimal 0 (skipMarks_eq_self true (underscore_not_mem_hexDigits n))
  | padded n =>
    rw [Literal.text, hexPadded, String.toList_ofList]
    exact based_hexadecimal (4 - (hexDigits n).length)
      (skipMarks_eq_self true (underscore_not_mem_padZeros 4 n))
  | grouped n =>
    rw [Literal.text, hexGrouped]
    split
    · rw [String.toList_ofList]
      exact based_hexadecimal 0 (skipMarks_groupFours (underscore_not_mem_hexDigits n))
    · exact based_decimal n

/-- However a number is written, with underscores put in anywhere, it is denoted. -/
theorem denotes_marked (l : Literal) (small : l.value < 2 ^ 64) {text : String}
    (marks : Marked l.text.toList text.toList) : Denotes text l.value := by
  have named : ∀ c ∈ text.toList, isNameChar c = true := fun c inside => by
    rcases marks.mem inside with letter | rfl
    · exact isWord_literal l c letter
    · rfl
  refine ⟨text.toList, isCore_self named, ?_, small⟩
  rw [marks.filter_eq]
  exact based_text l

theorem grouped_groupFours (digits : List Char) : Grouped digits (groupFours digits) := by
  have turned (l : List Char) : Grouped l.reverse (markFours l).reverse := by
    fun_induction markFours l with
    | case1 a b c d e rest ih =>
      have behind : Grouped ((e :: rest).reverse ++ [d, c, b, a])
          ((markFours (e :: rest)).reverse ++ '_' :: [d, c, b, a]) := .group (by simp) rfl ih
      simpa using behind
    | case2 l short =>
      rcases l with _ | ⟨a, _ | ⟨b, _ | ⟨c, _ | ⟨d, _ | ⟨e, rest⟩⟩⟩⟩⟩
      case cons.cons.cons.cons.cons => exact (short a b c d e rest rfl).elim
      all_goals exact .short (by simp)
  have again := turned digits.reverse
  rwa [List.reverse_reverse] at again

/-- The reader of numbers takes a text exactly when it is a notation, in hexadecimal, binary or
decimal, of a number of 64 bits, and then it reads that number. So it reads back whatever a
number is written as in an artifact, underscores or not. -/
theorem readNumeral_notations :
    (∀ text n, readNumeral text = .ok n ↔ Denotes text n) ∧
      (∀ l : Literal, l.value < 2 ^ 64 → ∀ text : String, Marked l.text.toList text.toList →
        readNumeral text = .ok l.value) ∧
      ∀ n, if n < 10 then hexGrouped n = decimal n else
        ∃ grouped, Grouped (hexDigits n) grouped ∧
          hexGrouped n = String.ofList ('0' :: 'x' :: grouped) := by
  refine ⟨fun text n => readNumeral_eq_ok_iff, fun l small text marks => ?_, fun n => ?_⟩
  · exact readNumeral_eq_ok_iff.mpr (denotes_marked l small marks)
  · rw [hexGrouped]
    by_cases single : n < 10
    · rw [if_pos single, if_neg (by omega)]
    · rw [if_neg single, if_pos (by omega)]
      exact ⟨_, grouped_groupFours _, rfl⟩

theorem readNumeral_notations_word :
    (Literal.grouped 0x40000000).value < 2 ^ 64 ∧
      (Literal.grouped 0x40000000).text = "0x4000_0000" ∧
      Marked "0x4000_0000".toList "0_x4000__0000".toList ∧
      readNumeral "0_x4000__0000" = .ok 0x40000000 := by
  have text : (Literal.grouped 0x40000000).text = "0x4000_0000" := by decide +kernel
  have marks : Marked "0x4000_0000".toList "0_x4000__0000".toList :=
    .same (.mark (.same (.same (.same (.same (.same (.mark (.same (.same (.same (.same (.same
      .nil))))))))))))
  exact ⟨by decide, text, marks, readNumeral_notations.2.1 (.grouped 0x40000000) (by decide) _
    (text ▸ marks)⟩

end Numeral

end RegisterMap
