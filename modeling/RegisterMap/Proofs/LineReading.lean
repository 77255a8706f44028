import RegisterMap.Proofs.Words

namespace RegisterMap

/-- The words of a line behind the marks that introduce them, if the line has these marks one
after the other with nothing but a word between. -/
def wordsBehind : List String → List Char → Option (List String)
  | [], _ => some []
  | mark :: marks, line =>
    (line.dropPrefix? mark.toList).bind fun rest =>
      (wordsBehind marks (rest.dropWhile isNameChar)).map
        (String.ofList (rest.takeWhile isNameChar) :: ·)

/-- A form of lines: marks in front of words, and what these words say. -/
structure Form (α : Type) where
  marks : List String
  meaning : List String → Option α

/-- Lines that give a number a name, in a language that has underscores in numbers or not. -/
def Form.naming {α : Type} (marks : Bool) (opening link : String) (make : String → Nat → α) :
    Form α where
  marks := [opening, link]
  meaning
    | [name, literal] => (literalNumber? marks literal.toList).map (make name)
    | _ => none

/-- What a line says, in the first of some forms that it has. -/
def said {α : Type} (forms : List (Form α)) (line : List Char) : Option α :=
  forms.findSome? fun form => (wordsBehind form.marks line).bind form.meaning

/-- What the lines of a file say one after the other. Lines of no form are passed over. -/
def readings {α : Type} (forms : List (Form α)) (content : String) : List α :=
  (textLines content).filterMap (said forms)

section

variable {α : Type} {forms : List (Form α)}

theorem said_of_some {form : Form α} {line : List Char} {a : α}
    (has : (wordsBehind form.marks line).bind form.meaning = some a) :
    said (form :: forms) line = some a := by
  rw [said, List.findSome?_cons, has]

theorem said_of_bind {form : Form α} {line : List Char}
    (nothing : (wordsBehind form.marks line).bind form.meaning = none) :
    said (form :: forms) line = said forms line := by
  rw [said, List.findSome?_cons, nothing]
  rfl

theorem said_of_none {form : Form α} {line : List Char}
    (other : wordsBehind form.marks line = none) :
    said (form :: forms) line = said forms line := by
  refine said_of_bind ?_
  rw [other]
  rfl

end

/-- Code that no line of any form begins with. -/
def Silent {α : Type} (forms : List (Form α)) (code : String) : Prop :=
  ∀ rest, said forms (code.toList ++ rest) = none

theorem Silent.appends {α : Type} {forms : List (Form α)} {code : String}
    (silent : Silent forms code) (more : List String) :
    Silent forms (more.foldl (· ++ ·) code) := by
  induction more generalizing code with
  | nil => exact silent
  | cons text more ih =>
    refine ih fun rest => ?_
    rw [String.toList_append, List.append_assoc]
    exact silent _

/-- What lines are read as, where none of them has a break inside. -/
structure Reads {α : Type} (forms : List (Form α)) (lines : List Line) (told : List α) : Prop where
  unbroken : ∀ l ∈ lines, Unbroken l.text
  told : lines.filterMap (fun l => said forms l.text.toList) = told

namespace Reads

variable {α β : Type} {forms : List (Form α)}

theorem silent {lines : List Line} (unbroken : ∀ l ∈ lines, Unbroken l.text)
    (none : ∀ l ∈ lines, said forms l.text.toList = none) : Reads forms lines [] :=
  ⟨unbroken, List.filterMap_eq_nil_iff.mpr none⟩

theorem line {l : Line} {a : α} (unbroken : Unbroken l.text)
    (some : said forms l.text.toList = some a) : Reads forms [l] [a] :=
  ⟨List.forall_mem_singleton.mpr unbroken, List.filterMap_cons_some some⟩

theorem plain {code : String} (silent : Silent forms code) (unbroken : Unbroken code) :
    Reads forms [.plain code] [] := by
  have alone := silent []
  rw [List.append_nil] at alone
  refine .silent (List.forall_mem_singleton.mpr ?_) (List.forall_mem_singleton.mpr ?_)
  · rwa [Line.text_plain]
  · rwa [Line.text_plain]

theorem append {first second : List Line} {a b : List α} (left : Reads forms first a)
    (right : Reads forms second b) : Reads forms (first ++ second) (a ++ b) where
  unbroken := List.forall_mem_append.mpr ⟨left.unbroken, right.unbroken⟩
  told := by rw [List.filterMap_append, left.told, right.told]

theorem append_silent {first second : List Line} {a : List α} (left : Reads forms first a)
    (right : Reads forms second []) : Reads forms (first ++ second) a := by
  rw [← List.append_nil a]
  exact left.append right

theorem cons {l : Line} {lines : List Line} {a b : List α} (first : Reads forms [l] a)
    (rest : Reads forms lines b) : Reads forms (l :: lines) (a ++ b) := first.append rest

/-- Below a line that says nothing. -/
theorem below {l : Line} {lines : List Line} {a : List α} (first : Reads forms [l] [])
    (rest : Reads forms lines a) : Reads forms (l :: lines) a := first.append rest

theorem flatMap {members : List β} {lines : β → List Line} {told : β → List α}
    (each : ∀ b ∈ members, Reads forms (lines b) (told b)) :
    Reads forms (members.flatMap lines) (members.flatMap told) where
  unbroken := List.forall_mem_flatMap.mpr fun b inside => (each b inside).unbroken
  told := by
    rw [List.filterMap_flatMap]
    exact List.flatMap_congr fun b inside => (each b inside).told

theorem map {members : List β} {line : β → Line} {told : β → α}
    (each : ∀ b ∈ members, Reads forms [line b] [told b]) :
    Reads forms (members.map line) (members.map told) := by
  rw [List.map_eq_flatMap, List.map_eq_flatMap]
  exact flatMap each

/-- A file is read as its lines are. -/
theorem readings_file {lines : List Line} {told : List α} (read : Reads forms lines told)
    (nothing : said forms [] = none) : readings forms (Line.file lines) = told := by
  rw [readings, Line.textLines_file_of_unbroken read.unbroken, List.filterMap_append,
    List.filterMap_map, List.filterMap_cons_none nothing, List.filterMap_nil, List.append_nil]
  exact read.told

end Reads

theorem dropPrefix?_append (mark rest : List Char) : (mark ++ rest).dropPrefix? mark = some rest :=
  List.dropPrefix?_append_of_beq rest BEq.rfl

/-- A word is read as it is, if no more of it can follow. -/
theorem wordsBehind_word {mark word : String} {rest : List Char} (named : IsWord word)
    (ends : ∀ c ∈ rest.head?, isNameChar c = false) (marks : List String) :
    wordsBehind (mark :: marks) (mark.toList ++ (word.toList ++ rest)) =
      (wordsBehind marks rest).map (word :: ·) := by
  have stops : rest.takeWhile isNameChar = [] ∧ rest.dropWhile isNameChar = rest := by
    cases rest with
    | nil => exact ⟨rfl, rfl⟩
    | cons c others =>
      have other := ends c rfl
      simp [other]
  rw [wordsBehind, dropPrefix?_append, Option.bind_some, List.takeWhile_append_of_pos named,
    List.dropWhile_append_of_pos named, stops.1, stops.2, List.append_nil, String.ofList_toList]

theorem wordsBehind_cons {mark word rest : String} (named : IsWord word)
    (ends : ∀ c ∈ rest.toList.head?, isNameChar c = false) (marks : List String) :
    wordsBehind (mark :: marks) (mark ++ (word ++ rest)).toList =
      (wordsBehind marks rest.toList).map (word :: ·) := by
  rw [String.toList_append, String.toList_append, wordsBehind_word named ends]

/-- Behind the last mark any word will do. -/
theorem wordsBehind_last (mark rest : String) :
    ∃ word, wordsBehind [mark] (mark ++ rest).toList = some [word] := by
  rw [String.toList_append, wordsBehind, dropPrefix?_append]
  exact ⟨_, rfl⟩

/-- A name between blanks is no sign of equality. -/
theorem wordsBehind_equals {name : String} (named : IsWord name) {c : Char} (other : c ≠ '=')
    (rest : List Char) (marks : List String) :
    wordsBehind (" = " :: marks) (' ' :: (name.toList ++ c :: rest)) = none := by
  have differ : (name.toList ++ c :: rest).dropPrefix? ['=', ' '] = none := by
    cases letters : name.toList with
    | nil => simp [List.dropPrefix?, other]
    | cons d others =>
      have letter : d ≠ '=' := by
        rintro rfl
        exact absurd (named '=' (letters ▸ List.mem_cons_self ..)) (by decide)
      simp [List.dropPrefix?, letter]
  change ((name.toList ++ c :: rest).dropPrefix? ['=', ' ']).bind _ = none
  rw [differ]
  rfl

/-- A line that gives a number a name is understood so, whatever stands behind the number. -/
theorem Form.naming_said {α : Type} {marks : Bool} {opening link : String} {make : String → Nat → α}
    {name rest : String} {number : Literal} (named : IsWord name)
    (links : ∀ c ∈ link.toList.head?, isNameChar c = false) (nonempty : link ≠ "")
    (ends : ∀ c ∈ rest.toList.head?, isNameChar c = false) (known : number.isMarked → marks) :
    (wordsBehind (naming marks opening link make).marks
        (opening ++ (name ++ (link ++ (number.text ++ rest)))).toList).bind
      (naming marks opening link make).meaning = some (make name number.value) := by
  have follows : ∀ c ∈ (link ++ (number.text ++ rest)).toList.head?, isNameChar c = false := by
    intro c first
    refine links c ?_
    cases letters : link.toList with
    | nil => exact absurd (String.toList_eq_nil_iff.mp letters) nonempty
    | cons d others => simpa [letters] using first
  rw [naming, wordsBehind_cons named follows, wordsBehind_cons (isWord_literal _) ends]
  simp [wordsBehind, number.literalNumber?_text known]

end RegisterMap
