import RegisterMap.Proofs.AccessorNumbers

namespace RegisterMap.Accessors

/-- Words that no name of Python may be. -/
def keywords : List String :=
  ["False", "None", "True", "and", "as", "assert", "async", "await", "break", "class", "continue",
    "def", "del", "elif", "else", "except", "finally", "for", "from", "global", "if", "import",
    "in", "is", "lambda", "nonlocal", "not", "or", "pass", "raise", "return", "try", "while",
    "with", "yield"]

/-- What the lines of a module do to the names of its classes. -/
inductive Statement where
  /-- A class begins, and with it a scope of its own. -/
  | opens (name : String)
  /-- What is defined next is handed to what the name stands for: `@name`. -/
  | decorates (name : String)
  /-- What is defined next becomes the setter of a property: `@name.setter`. -/
  | updates (name : String)
  /-- A method, which the name stands for from here on. -/
  | defines (name : String)
  deriving DecidableEq, Repr

/-- Lines that are statements of a class. Those inside a method stand further to the right. -/
def statementForms : List (Form Statement) :=
  [⟨["class "], fun words => words.head?.map .opens⟩,
    ⟨["    @", ".setter"], fun words => words.head?.map .updates⟩,
    ⟨["    @"], fun words => words.head?.map .decorates⟩,
    ⟨["    def "], fun words => words.head?.map .defines⟩]

/-- The statements that a reader of accessors finds. -/
def statementsIn (content : String) : List Statement := readings statementForms content

/-- Whether a class gives the name `property` to a method and decorates a later method with it,
which then is no longer the decorator that all classes start with. -/
def Rebinds (statements : List Statement) : Prop :=
  ∃ before between behind,
    statements = before ++ .defines "property" :: (between ++ .decorates "property" :: behind) ∧
      ∀ name, .opens name ∉ between

theorem said_of_silent {code : String} (silent : Silent statementForms code) :
    said statementForms code.toList = none := by
  have alone := silent []
  rwa [List.append_nil] at alone

/-- The statements that lines make, none of them over more than one line. -/
def statementsOf (lines : List Line) : List Statement :=
  lines.filterMap fun l => said statementForms l.text.toList

theorem statementsOf_append (first second : List Line) :
    statementsOf (first ++ second) = statementsOf first ++ statementsOf second :=
  List.filterMap_append

theorem statementsOf_flatMap {α : Type} {members : List α} {lines : α → List Line}
    {told : α → List Statement} (each : ∀ a ∈ members, statementsOf (lines a) = told a) :
    statementsOf (members.flatMap lines) = members.flatMap told := by
  rw [statementsOf, List.filterMap_flatMap]
  exact List.flatMap_congr each

theorem said_opens {name : String} (named : IsWord name) :
    said statementForms ("class " ++ name ++ ":").toList = some (.opens name) := by
  have ends : ∀ c ∈ ":".toList.head?, isNameChar c = false := by
    simp [isNameChar]
  refine said_of_some ?_
  rw [String.append_assoc, wordsBehind_cons named ends]
  rfl

theorem said_updates {name : String} (named : IsWord name) :
    said statementForms ("    @" ++ name ++ ".setter").toList = some (.updates name) := by
  have ends : ∀ c ∈ ".setter".toList.head?, isNameChar c = false := by
    simp [isNameChar]
  rw [String.append_assoc]
  refine (said_of_none ?_).trans (said_of_some ?_)
  · rw [String.toList_append]
    rfl
  · rw [wordsBehind_cons named ends]
    rfl

theorem said_defines {name tail : String} (named : IsWord name)
    (ends : ∀ c ∈ tail.toList.head?, isNameChar c = false) :
    said statementForms ("    def " ++ name ++ tail).toList = some (.defines name) := by
  rw [String.append_assoc]
  refine (said_of_none ?_).trans ((said_of_none ?_).trans ((said_of_none ?_).trans
    (said_of_some ?_)))
  · rw [String.toList_append]
    rfl
  · rw [String.toList_append]
    rfl
  · rw [String.toList_append]
    rfl
  · rw [wordsBehind_cons named ends]
    rfl

theorem statementsOf_cons {code : String} {s : Statement}
    (some : said statementForms code.toList = some s) (lines : List Line) :
    statementsOf (.plain code :: lines) = s :: statementsOf lines := by
  rw [← Line.text_plain code] at some
  exact List.filterMap_cons_some some

theorem statementsOf_cons_none {l : Line} (none : said statementForms l.text.toList = none)
    (lines : List Line) : statementsOf (l :: lines) = statementsOf lines :=
  List.filterMap_cons_none none

theorem statementsOf_blank (lines : List Line) :
    statementsOf (.blank :: lines) = statementsOf lines := statementsOf_cons_none rfl lines

/-- Where a line has another character than a mark, the mark does not introduce it. -/
theorem wordsBehind_of_ne {mark : String} {opening more : List Char} {c d : Char}
    (letters : mark.toList = opening ++ d :: more) (differ : c ≠ d) (rest : List Char)
    (marks : List String) : wordsBehind (mark :: marks) (opening ++ c :: rest) = none := by
  have stops : (opening ++ c :: rest).dropPrefix? (opening ++ d :: more) = none := by
    clear letters
    induction opening with
    | nil => simp [List.dropPrefix?, differ]
    | cons a opening ih => simp [List.dropPrefix?, ih]
  rw [wordsBehind, letters, stops]
  rfl

/-- A constant is no statement: the first letter of its name is a capital. -/
theorem said_constant {c : Constant} (opens : Opens Char.isUpper c.name) :
    said statementForms c.line.text.toList = none := by
  obtain ⟨first, rest, letters, upper⟩ := opens
  have parts : c.line.text.toList =
      "    ".toList ++ first :: (rest ++ (" = " ++ c.value.text).toList) := by
    rw [Constant.line, Line.text_plain, String.append_assoc, String.append_assoc,
      String.toList_append, String.toList_append, letters, List.cons_append]
  have other {d : Char} (low : d.isUpper = false) : first ≠ d := by
    rintro rfl
    rw [upper] at low
    cases low
  have mark : first ≠ '@' := other (by decide)
  have small : first ≠ 'd' := other (by decide)
  have margin : "    @".toList = "    ".toList ++ '@' :: [] ∧
      "    def ".toList = "    ".toList ++ 'd' :: "ef ".toList := by decide
  rw [parts]
  refine (said_of_none rfl).trans ((said_of_none ?_).trans ((said_of_none ?_).trans
    ((said_of_none ?_).trans rfl)))
  · exact wordsBehind_of_ne margin.1 mark _ _
  · exact wordsBehind_of_ne margin.1 mark _ _
  · exact wordsBehind_of_ne margin.2 small _ _

/-- Whether a line stands as far to the right as what is inside a method of a class. -/
def Inner (l : Line) : Prop := "        ".toList <+: l.before.toList

instance {l : Line} : Decidable (Inner l) := inferInstanceAs (Decidable (_ <+: _))

theorem Inner.append {code : String} (inner : Inner (.plain code)) (more : String) :
    Inner (.plain (code ++ more)) := by
  have parts : (code ++ more).toList = code.toList ++ more.toList := String.toList_append
  exact inner.trans (parts ▸ List.prefix_append ..)

theorem statementsOf_inner {lines : List Line} (inner : ∀ l ∈ lines, Inner l) :
    statementsOf lines = [] := by
  refine List.filterMap_eq_nil_iff.mpr fun l inside => ?_
  obtain ⟨rest, same⟩ := inner l inside
  rw [Line.text, String.toList_append, String.toList_append, ← same]
  rfl

theorem inner_docLine (description : String) (access : Access) :
    Inner (docLine "        " description access) := by
  unfold docLine
  split
  · have opening : Inner (.plain ("        " ++ "\"\"\"(")) := by decide
    exact (opening.append _).append _
  · exact (show Inner (.plain ("        " ++ "\"\"\"")) by decide)

namespace Place

theorem inner_readLines (place : Place) : ∀ l ∈ place.readLines, Inner l := by
  cases place with
  | word register =>
    have reading : Inner "        return self._if.read(self." := by decide
    exact List.forall_mem_singleton.mpr ((reading.append _).append _)
  | bits register field =>
    have reading : Inner "        rdata = self._rmap._if.read(self._rmap." := by decide
    have result : Inner "        return (rdata >> " := by decide
    refine List.forall_mem_cons.mpr ⟨(reading.append _).append _, List.forall_mem_singleton.mpr ?_⟩
    exact (((result.append _).append _).append _).append _

theorem inner_writeLines (place : Place) : ∀ l ∈ place.writeLines, Inner l := by
  cases place with
  | word register =>
    have writing : Inner "        self._if.write(self." := by decide
    exact List.forall_mem_singleton.mpr ((writing.append _).append _)
  | bits register field =>
    have reading : Inner "        rdata = self._rmap._if.read(" := by decide
    have clearing : Inner "        rdata = rdata & (~(" := by decide
    have setting : Inner "        rdata = rdata | ((val & " := by decide
    have writing : Inner "        self._rmap._if.write(" := by decide
    refine List.forall_mem_cons.mpr ⟨(reading.append _).append _, List.forall_mem_cons.mpr ⟨?_,
      List.forall_mem_cons.mpr ⟨?_, List.forall_mem_singleton.mpr ((writing.append _).append _)⟩⟩⟩
    · exact (((clearing.append _).append _).append _).append _
    · exact (((setting.append _).append _).append _).append _

theorem inner_refusal (shown mode : String) : Inner (refusal shown mode) := by
  have raising : Inner "        raise PermissionError(\"" := by decide
  exact (((raising.append _).append _).append _).append _

end Place

namespace Property

variable (p : Property)

theorem inner_readLines : ∀ l ∈ p.readLines, Inner l := by
  unfold readLines
  split
  · exact p.place.inner_readLines
  · exact List.forall_mem_singleton.mpr (Place.inner_refusal ..)

theorem inner_writeLines : ∀ l ∈ p.writeLines, Inner l := by
  unfold writeLines
  split
  · exact p.place.inner_writeLines
  · exact List.forall_mem_singleton.mpr (Place.inner_refusal ..)

/-- A property defines one name twice, the second time for writing. -/
def statements : List Statement :=
  [.decorates "property", .defines p.name, .updates p.name, .defines p.name]

end Property

theorem said_property :
    said statementForms "    @property".toList = some (.decorates "property") := by
  decide

theorem statementsOf_property {p : Property} (named : IsWord p.name) :
    statementsOf p.lines = p.statements := by
  have getter : said statementForms ("    def " ++ p.name ++ "(self):").toList =
      some (.defines p.name) := said_defines named (by simp [isNameChar])
  have setter : said statementForms ("    def " ++ p.name ++ "(self, val):").toList =
      some (.defines p.name) := said_defines named (by simp [isNameChar])
  have reading : statementsOf ["    @property", .plain ("    def " ++ p.name ++ "(self):")] =
      [.decorates "property", .defines p.name] := by
    rw [statementsOf_cons said_property, statementsOf_cons getter]
    rfl
  have doc : statementsOf [docLine "        " p.description p.access] = [] :=
    statementsOf_inner (List.forall_mem_singleton.mpr (inner_docLine ..))
  have writing : statementsOf [.blank, .plain ("    @" ++ p.name ++ ".setter"),
      .plain ("    def " ++ p.name ++ "(self, val):")] = [.updates p.name, .defines p.name] := by
    rw [statementsOf_blank, statementsOf_cons (said_updates named),
      statementsOf_cons setter]
    rfl
  rw [Property.lines]
  simp only [statementsOf_append]
  rw [reading, doc, writing, statementsOf_inner p.inner_readLines,
    statementsOf_inner p.inner_writeLines]
  rfl

def FieldClass.statements (c : FieldClass) : List Statement :=
  .opens c.name :: .defines "__init__" :: c.properties.flatMap Property.statements

/-- The properties of a register, for its word and for its fields. -/
def RegisterProperty.statements (p : RegisterProperty) : List Statement :=
  p.word.statements ++ [.decorates "property", .defines (p.word.name ++ "_bf")]

theorem statementsOf_fieldClass {c : FieldClass} (named : IsWord c.name)
    (properties : ∀ p ∈ c.properties, IsWord p.name) : statementsOf c.lines = c.statements := by
  have creation : said statementForms "    def __init__(self, rmap):".toList =
      some (.defines "__init__") := by decide
  have inner : Inner "        self._rmap = rmap" := by decide
  have opening : statementsOf [.plain ("class " ++ c.name ++ ":"), "    def __init__(self, rmap):",
      "        self._rmap = rmap"] = [.opens c.name, .defines "__init__"] := by
    rw [statementsOf_cons (said_opens named), statementsOf_cons creation,
      statementsOf_inner (List.forall_mem_singleton.mpr inner)]
  have members : statementsOf (c.properties.flatMap fun p => Line.blank :: p.lines) =
      c.properties.flatMap Property.statements := by
    refine statementsOf_flatMap fun p inside => ?_
    rw [statementsOf_blank, statementsOf_property (properties p inside)]
  rw [FieldClass.lines, statementsOf_append, opening, members]
  rfl

theorem statementsOf_registerProperty {p : RegisterProperty} (named : IsWord p.word.name) :
    statementsOf p.lines = p.statements := by
  have getter : said statementForms ("    def " ++ (p.word.name ++ "_bf") ++ "(self):").toList =
      some (.defines (p.word.name ++ "_bf")) :=
    said_defines (isWord_append.mpr ⟨named, by decide⟩) (by simp [isNameChar])
  have inner : Inner (.plain ("        return " ++ p.fieldClass ++ "(self)")) :=
    ((show Inner "        return " by decide).append _).append _
  have name : "    def " ++ (p.word.name ++ "_bf") ++ "(self):" =
      "    def " ++ p.word.name ++ "_bf(self):" := by
    rw [show "_bf(self):" = "_bf" ++ "(self):" by decide]
    simp only [String.append_assoc]
  rw [name] at getter
  rw [RegisterProperty.lines, List.cons_append, statementsOf_blank, statementsOf_append,
    statementsOf_property named, statementsOf_blank, statementsOf_cons said_property,
    statementsOf_cons getter, statementsOf_inner (List.forall_mem_singleton.mpr inner)]
  rfl

/-- Constants and the comments on them are no statements. -/
theorem statementsOf_constants {group : Constants}
    (opens : ∀ c ∈ group.constants, Opens Char.isUpper c.name) : statementsOf group.lines = [] := by
  have remark (rest : List Char) : said statementForms ("    # ".toList ++ rest) = none := rfl
  have constants : statementsOf (group.constants.map Constant.line) = [] :=
    List.filterMap_eq_nil_iff.mpr
      (List.forall_mem_map.mpr fun c inside => said_constant (opens c inside))
  rw [Constants.lines, statementsOf_blank, statementsOf_cons_none ?_, constants]
  split
  · rw [Line.text_plain, String.toList_append]
    exact remark _
  · simp only [Line.text, String.toList_append, List.append_assoc]
    exact remark _

/-- The statements of all classes, that of the map being the last one. -/
def statements (a : Accessors) : List Statement :=
  a.fieldClasses.flatMap FieldClass.statements ++
    .opens "RegMap" :: .defines "__init__" :: a.registers.flatMap RegisterProperty.statements

theorem constants_open {r : Register} (identifier : isIdentifier r.name = true) :
    ∀ c ∈ (registerConstants r).constants, Opens Char.isUpper c.name := by
  have upper := asciiUpper_opens identifier
  refine List.forall_mem_append.mpr ⟨?_, List.forall_mem_flatMap.mpr fun f _ => ?_⟩
  · simp [upper.append]
  · have constant := (upper.append "_").append (asciiUpper f.name)
    refine List.forall_mem_append.mpr
      ⟨by simp [constant.append], List.forall_mem_map.mpr fun v _ => ?_⟩
    exact (constant.append "_").append _

section

variable {m : AddressMap} (identifiers : Identifiers m.registers)
include identifiers

theorem statementsOf_fieldClasses :
    statementsOf ((ofMap m).fieldClasses.flatMap fun c => Line.blank :: c.lines ++ [Line.blank]) =
      (ofMap m).fieldClasses.flatMap FieldClass.statements := by
  refine statementsOf_flatMap fun c inside => ?_
  have own : statementsOf c.lines = c.statements := by
    obtain ⟨r, among, rfl⟩ := List.mem_map.mp inside
    have type := isWord_camelCase (identifiers.register r among)
    refine statementsOf_fieldClass (isWord_append.mpr ⟨by decide, type⟩) ?_
    refine List.forall_mem_map.mpr fun f within => ?_
    exact (isWord_of_isIdentifier (identifiers.field r among f within)).attributeName
  rw [List.cons_append, statementsOf_blank, statementsOf_append, own, statementsOf_blank]
  exact List.append_nil _

theorem statementsOf_mapConstants :
    statementsOf ((ofMap m).constants.flatMap Constants.lines) = [] := by
  have none : statementsOf ((ofMap m).constants.flatMap Constants.lines) =
      (ofMap m).constants.flatMap fun _ => [] := by
    refine statementsOf_flatMap fun group inside => ?_
    obtain ⟨r, among, rfl⟩ := List.mem_map.mp inside
    exact statementsOf_constants (constants_open (identifiers.register r among))
  rwa [flatMap_nil] at none

theorem statementsOf_registers : statementsOf ((ofMap m).registers.flatMap RegisterProperty.lines) =
    (ofMap m).registers.flatMap RegisterProperty.statements := by
  refine statementsOf_flatMap fun p inside => ?_
  obtain ⟨r, among, rfl⟩ := List.mem_map.mp inside
  have named := isWord_of_isIdentifier (identifiers.register r among)
  exact statementsOf_registerProperty named.attributeName

theorem statementsOf_mapClass : statementsOf (ofMap m).mapClass =
    .opens "RegMap" :: .defines "__init__" ::
      (ofMap m).registers.flatMap RegisterProperty.statements := by
  have heading : said statementForms "class RegMap:".toList = some (.opens "RegMap") := by
    decide
  have doc : said statementForms (Line.plain
      ("    \"\"\"Register map " ++ (ofMap m).name ++ "\"\"\"")).text.toList = none := by
    rw [Line.text_plain]
    exact said_of_silent (Silent.appends (fun rest => by rfl) [_, _])
  have base : said statementForms
      (Line.plain ("    BASE_ADDR = " ++ (ofMap m).base.text)).text.toList = none := by
    rw [Line.text_plain]
    exact said_of_silent (Silent.appends (fun rest => by rfl) [_])
  have opening : statementsOf ["class RegMap:",
      .plain ("    \"\"\"Register map " ++ (ofMap m).name ++ "\"\"\""), .blank,
      .plain ("    BASE_ADDR = " ++ (ofMap m).base.text)] = [.opens "RegMap"] := by
    rw [statementsOf_cons heading, statementsOf_cons_none doc, statementsOf_blank,
      statementsOf_cons_none base]
    rfl
  have creation : statementsOf [.blank, "    def __init__(self, interface):",
      "        self._if = interface"] = [.defines "__init__"] := by decide
  rw [mapClass, statementsOf_append, statementsOf_append, statementsOf_append, opening,
    statementsOf_mapConstants identifiers, creation, statementsOf_registers identifiers]
  rfl

theorem statementsOf_lines : statementsOf (ofMap m).lines = (ofMap m).statements := by
  have subject : said statementForms
      (Line.plain ("Register map " ++ (ofMap m).name ++ ".")).text.toList = none := by
    rw [Line.text_plain]
    exact said_of_silent (Silent.appends (fun rest => by rfl) [_, _])
  have opening : statementsOf ["#!/usr/bin/env python3", "# -*- coding: utf-8 -*-", .blank,
      .plain ("\"\"\" Created with " ++ generatorName), .blank] = [] := by decide
  have title : statementsOf [.plain ("Register map " ++ (ofMap m).name ++ "."), "\"\"\"", .blank] =
      [] := by
    rw [statementsOf_cons_none subject]
    decide
  have head := (statementsOf_append _ _).trans (congrArg₂ (· ++ ·) opening title)
  have classes := statementsOf_fieldClasses identifiers
  have map := statementsOf_mapClass identifiers
  unfold lines
  rw [statementsOf_append, statementsOf_append, classes, statementsOf_blank, map]
  exact congrArg (· ++ _ ++ _) head

end

theorem statementsIn_artifact {m : AddressMap} (whole : m.Unbroken) (path : Path) :
    statementsIn (artifact path m).content = (ofMap m).statements := by
  have nothing : said statementForms [] = none := by decide
  have read : Reads statementForms (ofMap m).lines (ofMap m).statements :=
    ⟨(reads_lines whole).unbroken, statementsOf_lines whole.identifiers⟩
  rw [statementsIn, content_artifact, read.readings_file nothing]

theorem underscore_not_mem_keywords : ∀ word ∈ keywords, '_' ∉ word.toList := by decide

/-- Keywords are in small letters but for three, and those in small letters are avoided. -/
theorem attributeName_not_mem_keywords {name : String} (identifier : isIdentifier name = true) :
    attributeName name ∉ keywords := by
  intro keyword
  have free := (avoiding_mem_iff underscore_not_mem_keywords).mp keyword
  obtain ⟨c, rest, letters, small⟩ := asciiLower_opens identifier
  have others : ∀ word ∈ keywords,
      word ∈ attributeKeywords ∨ (word.toList.head?.any Char.isUpper) = true := by decide
  rcases others _ free.1 with avoided | capital
  · exact free.2 avoided
  · rw [letters] at capital
    exact Char.not_isLower_of_isUpper capital small

theorem append_not_mem_keywords (name : String) : name ++ "_bf" ∉ keywords := by
  intro keyword
  exact underscore_not_mem_keywords _ keyword (by simp)

/-- A statement that gives no method a keyword for a name. -/
def Statement.Allowed : Statement → Prop
  | defines name => name ∉ keywords
  | _ => True

theorem allowed_property {p : Property} (allowed : p.name ∉ keywords) :
    ∀ s ∈ p.statements, s.Allowed := by
  simp [Property.statements, Statement.Allowed, allowed]

theorem allowed_statements {m : AddressMap} (identifiers : Identifiers m.registers) :
    ∀ s ∈ (ofMap m).statements, s.Allowed := by
  have creation : (Statement.defines "__init__").Allowed :=
    show "__init__" ∉ keywords by decide
  refine List.forall_mem_append.mpr ⟨List.forall_mem_flatMap.mpr ?_, List.forall_mem_cons.mpr
    ⟨trivial, List.forall_mem_cons.mpr ⟨creation, List.forall_mem_flatMap.mpr ?_⟩⟩⟩
  · refine List.forall_mem_map.mpr fun r inside => List.forall_mem_cons.mpr
      ⟨trivial, List.forall_mem_cons.mpr ⟨creation, List.forall_mem_flatMap.mpr ?_⟩⟩
    refine List.forall_mem_map.mpr fun f within => allowed_property ?_
    exact attributeName_not_mem_keywords (identifiers.field r inside f within)
  · refine List.forall_mem_map.mpr fun r inside => List.forall_mem_append.mpr
      ⟨allowed_property ?_, List.forall_mem_cons.mpr ⟨trivial, List.forall_mem_singleton.mpr ?_⟩⟩
    · exact attributeName_not_mem_keywords (identifiers.register r inside)
    · exact append_not_mem_keywords _

/-- Whether a method of the class that is open here is decorated with `property` further on. -/
def Decorates (statements : List Statement) : Prop :=
  ∃ between behind, statements = between ++ .decorates "property" :: behind ∧
    ∀ name, .opens name ∉ between

@[simp] theorem not_decorates_nil : ¬ Decorates [] := by
  rintro ⟨between, behind, parts, -⟩
  simp at parts

theorem decorates_cons {s : Statement} {rest : List Statement} :
    Decorates (s :: rest) ↔
      s = .decorates "property" ∨ (∀ name, s ≠ .opens name) ∧ Decorates rest := by
  constructor
  · rintro ⟨between, behind, parts, inside⟩
    cases between with
    | nil => exact Or.inl (List.cons.inj parts).1
    | cons t between =>
      obtain ⟨rfl, same⟩ := List.cons.inj parts
      simp only [List.mem_cons, not_or] at inside
      exact Or.inr ⟨fun name other => (inside name).1 other.symm,
        between, behind, same, fun name => (inside name).2⟩
  · rintro (rfl | ⟨other, between, behind, rfl, inside⟩)
    · exact ⟨[], rest, rfl, fun name => List.not_mem_nil⟩
    · refine ⟨s :: between, behind, rfl, fun name among => ?_⟩
      rcases List.mem_cons.mp among with same | later
      · exact other name same.symm
      · exact inside name later

@[simp] theorem not_rebinds_nil : ¬ Rebinds [] := by
  rintro ⟨before, between, behind, parts, -⟩
  simp at parts

theorem rebinds_cons {s : Statement} {rest : List Statement} :
    Rebinds (s :: rest) ↔ s = .defines "property" ∧ Decorates rest ∨ Rebinds rest := by
  constructor
  · rintro ⟨before, between, behind, parts, inside⟩
    cases before with
    | nil =>
      obtain ⟨rfl, same⟩ := List.cons.inj parts
      exact Or.inl ⟨rfl, between, behind, same, inside⟩
    | cons t before =>
      obtain ⟨-, same⟩ := List.cons.inj parts
      exact Or.inr ⟨before, between, behind, same, inside⟩
  · rintro (⟨rfl, between, behind, rfl, inside⟩ | ⟨before, between, behind, rfl, inside⟩)
    · exact ⟨[], between, behind, rfl, inside⟩
    · exact ⟨s :: before, between, behind, rfl, inside⟩

section

variable {rest : List Statement}

theorem decorates_property (p : Property) : Decorates (p.statements ++ rest) := by
  simp [Property.statements, decorates_cons]

/-- A property is harmful by its own name alone, and only if more decorators follow. -/
theorem rebinds_property {p : Property} : Rebinds (p.statements ++ rest) ↔
    p.name = "property" ∧ Decorates rest ∨ Rebinds rest := by
  simp [Property.statements, rebinds_cons, decorates_cons, ← or_assoc]

/-- In a class for fields, `property` may be the name of the last property and of no other. -/
theorem rebinds_properties {properties : List Property} (closed : ¬ Decorates rest) :
    Rebinds (properties.flatMap Property.statements ++ rest) ↔
      "property" ∈ (properties.map Property.name).dropLast ∨ Rebinds rest := by
  induction properties with
  | nil => simp
  | cons p others ih =>
    rw [List.flatMap_cons, List.append_assoc, rebinds_property, ih, ← or_assoc]
    refine or_congr_left ?_
    cases others with
    | nil => simp [closed]
    | cons q others =>
      have follows : Decorates ((q :: others).flatMap Property.statements ++ rest) := by
        rw [List.flatMap_cons, List.append_assoc]
        exact decorates_property q
      simp only [and_iff_left follows, List.map_cons, List.dropLast_cons_cons, List.mem_cons,
        eq_comm]

theorem rebinds_fieldClasses {classes : List FieldClass} (closed : ¬ Decorates rest) :
    Rebinds (classes.flatMap FieldClass.statements ++ rest) ↔
      (∃ c ∈ classes, "property" ∈ (c.properties.map Property.name).dropLast) ∨ Rebinds rest := by
  induction classes with
  | nil => simp
  | cons c others ih =>
    have next : ¬ Decorates (others.flatMap FieldClass.statements ++ rest) := by
      cases others with
      | nil => exact closed
      | cons d others => simp [FieldClass.statements, decorates_cons]
    rw [List.flatMap_cons, List.append_assoc]
    simp [FieldClass.statements, rebinds_cons, rebinds_properties next, ih, or_assoc]

/-- A view named after its register is no `property`. -/
theorem view_ne_property (name : String) : name ++ "_bf" ≠ "property" := by
  intro same
  have marked : '_' ∈ (name ++ "_bf").toList := by simp
  rw [same] at marked
  exact absurd marked (by decide)

/-- In the class of a map no register may have the name, for a view follows each of them. -/
theorem rebinds_registers {registers : List RegisterProperty} :
    Rebinds (registers.flatMap RegisterProperty.statements) ↔
      ∃ p ∈ registers, p.word.name = "property" := by
  induction registers with
  | nil => simp
  | cons p others ih =>
    rw [List.flatMap_cons, RegisterProperty.statements, List.append_assoc, rebinds_property]
    simp [decorates_cons, rebinds_cons, view_ne_property, ih]

end

theorem attributeName_eq_property_iff {name : String} :
    attributeName name = "property" ↔ asciiLower name = "property" := by
  have unmarked : ∀ word ∈ ["property"], '_' ∉ word.toList := by decide
  have members : attributeName name ∈ ["property"] ↔ _ := avoiding_mem_iff unmarked
  rw [List.mem_singleton, List.mem_singleton] at members
  refine members.trans (and_iff_left_of_imp fun same => ?_)
  rw [same]
  decide

theorem rebinds_statements_iff (m : AddressMap) : Rebinds (ofMap m).statements ↔
    (∃ r ∈ m.registers, ∃ f ∈ r.fields.dropLast, asciiLower f.name = "property") ∨
      ∃ r ∈ m.registers, asciiLower r.name = "property" := by
  have closed : ¬ Decorates (.opens "RegMap" :: .defines "__init__" ::
      (ofMap m).registers.flatMap RegisterProperty.statements) := by simp [decorates_cons]
  have map : Rebinds (.opens "RegMap" :: .defines "__init__" ::
      (ofMap m).registers.flatMap RegisterProperty.statements) ↔
        ∃ r ∈ m.registers, asciiLower r.name = "property" := by
    simp [rebinds_cons, rebinds_registers, ofMap, Property.ofRegister,
      attributeName_eq_property_iff]
  have member (r : Register) :
      "property" ∈ ((r.fields.map (Property.ofField r.name)).map Property.name).dropLast ↔
        ∃ f ∈ r.fields.dropLast, asciiLower f.name = "property" := by
    rw [List.map_map, ← List.map_dropLast, List.mem_map]
    simp only [Function.comp_apply, Property.ofField, attributeName_eq_property_iff]
  rw [statements, rebinds_fieldClasses closed, map]
  refine or_congr_left ⟨?_, ?_⟩
  · rintro ⟨c, among, named⟩
    obtain ⟨r, inside, rfl⟩ := List.mem_map.mp among
    exact ⟨r, inside, (member r).mp named⟩
  · rintro ⟨r, inside, field⟩
    exact ⟨_, List.mem_map_of_mem inside, (member r).mpr field⟩

/-- Classes for a compiled map never call a method like a keyword. They take the decorator
`property` from methods that need it where a register is called so, or a field in front of
another one, and nowhere else. -/
theorem compile_classes {config : Config} {d : Description} {m : AddressMap}
    (compiled : compile config d = .ok m) (path : Path) :
    (∀ name, .defines name ∈ statementsIn (artifact path m).content → name ∉ keywords) ∧
      (Rebinds (statementsIn (artifact path m).content) ↔
        (∃ r ∈ m.registers, ∃ f ∈ r.fields.dropLast, asciiLower f.name = "property") ∨
          ∃ r ∈ m.registers, asciiLower r.name = "property") := by
  obtain ⟨word, sound, rfl⟩ := compile_eq_ok_iff.mp compiled
  rw [statementsIn_artifact sound.unbroken]
  exact ⟨fun name defined => allowed_statements sound.identifiers _ defined,
    rebinds_statements_iff _⟩

/-- A register whose last field takes the name of the decorator, after the last use of it. -/
def lot : Description where
  name := "lot"
  registers :=
    [{ name := "AREA", address := 0,
       fields := [{ name := "IF" }, { name := "PROPERTY", width := 4, lsb := 8 }] }]

theorem lot_compile_classes :
    compile {} lot = .ok (lot.mapOf {} .w32) ∧
      (∀ name, .defines name ∈ statementsIn (artifact ⟨"lot.py"⟩ (lot.mapOf {} .w32)).content →
        name ∉ keywords) ∧
      .defines "property" ∈ statementsIn (artifact ⟨"lot.py"⟩ (lot.mapOf {} .w32)).content ∧
      ¬ Rebinds (statementsIn (artifact ⟨"lot.py"⟩ (lot.mapOf {} .w32)).content) := by
  have sound : lot.Sound {} .w32 := by decide +kernel
  have compiled := compile_eq_ok_iff.mpr ⟨.w32, sound, rfl⟩
  obtain ⟨free, rebinds⟩ := compile_classes compiled ⟨"lot.py"⟩
  refine ⟨compiled, free, ?_, rebinds.not.mpr (by decide +kernel)⟩
  rw [statementsIn_artifact sound.unbroken]
  decide +kernel

/-- A description with one register that is called like the decorator. -/
def estate : Description where
  name := "estate"
  registers := [{ name := "PROPERTY", address := 0, fields := [{ name := "F" }] }]

/-- After the property for the register, the one for its fields has no decorator. -/
theorem estate_rebinds : ¬ ∀ (config : Config) (d : Description) (m : AddressMap) (path : Path),
    compile config d = .ok m →
      (∀ name, .defines name ∈ statementsIn (artifact path m).content → name ∉ keywords) ∧
        ¬ Rebinds (statementsIn (artifact path m).content) := by
  intro apart
  have sound : estate.Sound {} .w32 := by decide +kernel
  have compiled := compile_eq_ok_iff.mpr ⟨.w32, sound, rfl⟩
  obtain ⟨-, keeps⟩ := apart {} estate _ ⟨"estate.py"⟩ compiled
  rw [statementsIn_artifact sound.unbroken, rebinds_statements_iff] at keeps
  exact keeps (by decide +kernel)

end RegisterMap.Accessors
