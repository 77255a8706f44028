import RegisterMap.Accessors.Text
import RegisterMap.Proofs.Descriptions
import RegisterMap.Proofs.LineReading
import RegisterMap.Proofs.NumberTable
import RegisterMap.Proofs.Scopes

namespace RegisterMap.Accessors

/-- Lines of a class that give a number a name. -/
def forms : List (Form (String × Nat)) := [.naming false "    " " = " fun name n => (name, n)]

/-- The constants that a reader of accessors finds. -/
def constantsIn (content : String) : List (String × Nat) := readings forms content

theorem content_artifact (path : Path) (m : AddressMap) :
    (artifact path m).content = Line.file (ofMap m).lines := by rw [artifact]

theorem unbroken_escape {description : String} (single : Unbroken description) :
    Unbroken (escape description) := by
  refine unbroken_flatMap fun c inside => ?_
  have own : ∀ d ∈ [c], d ≠ '\n' ∧ d ≠ '\r' := List.forall_mem_singleton.mpr (single c inside)
  split
  · exact List.forall_mem_cons.mpr ⟨by decide, own⟩
  · exact own

/-- A definition is no constant: behind its first word stands a name. -/
theorem silent_def {name tail : String} (named : IsWord name) {first : Char} {more : List Char}
    (starts : tail.toList = first :: more) (other : first ≠ '=') :
    Silent forms ("    def " ++ name ++ tail) := by
  intro rest
  have parts : ("    def " ++ name ++ tail).toList ++ rest =
      "    ".toList ++ ("def".toList ++ ' ' :: (name.toList ++ first :: (more ++ rest))) := by
    simp [starts]
  have word : IsWord "def" := by decide
  rw [parts]
  refine (said_of_none ?_).trans rfl
  simp only [Form.naming]
  rw [wordsBehind_word word (by simp [isNameChar]), wordsBehind_equals named other]
  rfl

/-- The names in a place are words. -/
def Place.Named : Place → Prop
  | .word register => IsWord register
  | .bits register field => IsWord register ∧ IsWord field

namespace Place

variable {place : Place} (named : place.Named)
include named

theorem reads_readLines : Reads forms place.readLines [] := by
  cases place with
  | word register =>
    have own := named.unbroken
    exact .plain (Silent.appends (fun rest => by rfl) [_, _]) (by simp +decide [own])
  | bits register field =>
    have own := named.1.unbroken
    have part := named.2.unbroken
    have first : Reads forms
        [.plain ("        rdata = self._rmap._if.read(self._rmap." ++ register ++ "_ADDR)")] [] :=
      .plain (Silent.appends (fun rest => by rfl) [_, _]) (by simp +decide [own])
    refine first.below ?_
    exact .plain (Silent.appends (fun rest => by rfl) [_, _, _, _]) (by simp +decide [own, part])

theorem reads_writeLines : Reads forms place.writeLines [] := by
  cases place with
  | word register =>
    have own := named.unbroken
    exact .plain (Silent.appends (fun rest => by rfl) [_, _]) (by simp +decide [own])
  | bits register field =>
    have own := named.1.unbroken
    have part := named.2.unbroken
    have address : Unbroken ("self._rmap." ++ register ++ "_ADDR") := by simp +decide [own]
    have constant : Unbroken ("self._rmap." ++ register ++ "_" ++ field) := by
      simp +decide [own, part]
    refine Reads.below ?_ (Reads.below ?_ (Reads.below ?_ ?_))
    · exact .plain (Silent.appends (fun rest => by rfl) [_, _]) (by simp +decide [address])
    · exact .plain (Silent.appends (fun rest => by rfl) [_, _, _, _]) (by simp +decide [constant])
    · exact .plain (Silent.appends (fun rest => by rfl) [_, _, _, _]) (by simp +decide [constant])
    · exact .plain (Silent.appends (fun rest => by rfl) [_, _]) (by simp +decide [address])

theorem reads_refusal {mode : String} (whole : Unbroken mode) :
    Reads forms [refusal place.shown mode] [] := by
  have shown : Unbroken place.shown := by
    cases place with
    | word register => exact named.unbroken
    | bits register field => simp +decide [Place.shown, named.1.unbroken, named.2.unbroken]
  exact .plain (Silent.appends (fun rest => by rfl) [_, _, _, _]) (by simp +decide [shown, whole])

end Place

theorem reads_docLine {description : String} (single : Unbroken description) (access : Access) :
    Reads forms [docLine "        " description access] [] := by
  have mode : Unbroken access.long := by cases access <;> decide
  have escaped := unbroken_escape single
  unfold docLine
  split
  · have opening : Silent forms ("        " ++ "\"\"\"(") := fun rest => by rfl
    exact .plain (opening.appends [_, _]) (by simp +decide [mode])
  · refine .silent (List.forall_mem_singleton.mpr ?_) (List.forall_mem_singleton.mpr ?_)
    · simp +decide [Line.text, mode, escaped]
    · simp only [Line.text, String.toList_append, List.append_assoc]
      rfl

namespace Property

variable {p : Property} (named : IsWord p.name) (place : p.place.Named)
  (single : Unbroken p.description)
include named place single

theorem reads_lines : Reads forms p.lines [] := by
  have heading : Reads forms ["    @property"] [] := .silent (by decide) (by decide)
  have getter : Reads forms [.plain ("    def " ++ p.name ++ "(self):")] [] :=
    .plain (silent_def named rfl (by decide)) (by simp +decide [named.unbroken])
  have decorator : Reads forms [.plain ("    @" ++ p.name ++ ".setter")] [] :=
    .plain (Silent.appends (fun rest => by rfl) [_, _]) (by simp +decide [named.unbroken])
  have setter : Reads forms [.plain ("    def " ++ p.name ++ "(self, val):")] [] :=
    .plain (silent_def named rfl (by decide)) (by simp +decide [named.unbroken])
  have reading : Reads forms p.readLines [] := by
    unfold readLines
    split
    · exact Place.reads_readLines place
    · exact Place.reads_refusal place (by decide)
  have writing : Reads forms p.writeLines [] := by
    unfold writeLines
    split
    · exact Place.reads_writeLines place
    · exact Place.reads_refusal place (by decide)
  have blank : Reads forms [Line.blank] [] := .silent (by decide) (by decide)
  exact ((((heading.below getter).append (reads_docLine single p.access)).append reading).append
    (blank.below (decorator.below setter))).append writing

end Property

theorem reads_blank : Reads forms [Line.blank] [] := .silent (by decide) (by decide)

theorem FieldClass.reads_lines {c : FieldClass} (named : Unbroken c.name)
    (properties : ∀ p ∈ c.properties, Reads forms p.lines []) : Reads forms c.lines [] := by
  have first : Reads forms [.plain ("class " ++ c.name ++ ":")] [] :=
    .plain (Silent.appends (fun rest => by rfl) [_, _]) (by simp +decide [named])
  have creation : Reads forms ["    def __init__(self, rmap):", "        self._rmap = rmap"] [] :=
    .silent (by decide) (by decide)
  have members : Reads forms (c.properties.flatMap fun p => Line.blank :: p.lines)
      (c.properties.flatMap fun _ => []) :=
    .flatMap fun p inside => reads_blank.below (properties p inside)
  rw [flatMap_nil] at members
  exact (first.below creation).append members

theorem Constant.reads_line {c : Constant} (named : IsWord c.name)
    (unmarked : c.value.isMarked = false) :
    Reads forms [c.line] [(c.name, c.value.value)] := by
  have parts : c.line.text = "    " ++ (c.name ++ (" = " ++ (c.value.text ++ ""))) := by
    simp [Constant.line, String.append_assoc]
  refine .line ?_ (said_of_some ?_)
  · simp +decide [parts, named.unbroken]
  · rw [parts]
    exact Form.naming_said named (by simp [isNameChar]) (by decide) (by simp) (by simp [unmarked])

theorem Constants.reads_lines {group : Constants} (register : Unbroken group.register)
    (single : Unbroken group.description)
    (named : ∀ c ∈ group.constants, IsWord c.name ∧ c.value.isMarked = false) :
    Reads forms group.lines (group.constants.map fun c => (c.name, c.value.value)) := by
  have constants : Reads forms (group.constants.map Constant.line)
      (group.constants.map fun c => (c.name, c.value.value)) :=
    .map fun c inside => Constant.reads_line (named c inside).1 (named c inside).2
  refine reads_blank.below (Reads.below ?_ constants)
  split
  · exact .plain (Silent.appends (fun rest => by rfl) [_]) (by simp +decide [register])
  · refine .silent (List.forall_mem_singleton.mpr ?_) (List.forall_mem_singleton.mpr ?_)
    · simp +decide [Line.text, register, single]
    · simp only [Line.text, String.toList_append, List.append_assoc]
      rfl

theorem RegisterProperty.reads_lines {p : RegisterProperty} (named : IsWord p.word.name)
    (type : Unbroken p.fieldClass) (word : Reads forms p.word.lines []) :
    Reads forms p.lines [] := by
  have heading : Reads forms [.blank, "    @property"] [] := .silent (by decide) (by decide)
  have getter : Reads forms [.plain ("    def " ++ p.word.name ++ "_bf(self):")] [] :=
    .plain (silent_def named rfl (by decide)) (by simp +decide [named.unbroken])
  have result : Reads forms [.plain ("        return " ++ p.fieldClass ++ "(self)")] [] :=
    .plain (Silent.appends (fun rest => by rfl) [_, _]) (by simp +decide [type])
  exact (reads_blank.below word).append (heading.append (getter.below result))

theorem constants_told (r : Register) :
    (registerConstants r).constants.map (fun c => (c.name, c.value.value)) = r.accessNumbers := by
  have field (f : Field) : (fieldConstants r.name f).map (fun c => (c.name, c.value.value)) =
      f.accessNumbers r := by
    simp [fieldConstants, Field.accessNumbers, Field.valueNumbers, Field.capitals,
      Function.comp_def, Literal.value]
  rw [registerConstants, List.map_append, List.map_flatMap, Register.accessNumbers]
  exact congrArg _ (List.flatMap_congr fun f _ => field f)

section

variable {m : AddressMap} (whole : m.Unbroken)
include whole

theorem reads_fieldClasses : Reads forms
    ((ofMap m).fieldClasses.flatMap fun c => Line.blank :: c.lines ++ [Line.blank]) [] := by
  have all : Reads forms ((ofMap m).fieldClasses.flatMap fun c => Line.blank :: c.lines ++ [Line.blank])
      ((ofMap m).fieldClasses.flatMap fun _ => []) := by
    refine .flatMap fun c inside => ?_
    obtain ⟨r, among, rfl⟩ := List.mem_map.mp inside
    have register := isWord_of_isIdentifier (whole.identifiers.register r among)
    refine (reads_blank.below (FieldClass.reads_lines ?_ fun p part => ?_)).append reads_blank
    · simp +decide [fieldClassName, (isWord_camelCase (whole.identifiers.register r among)).unbroken]
    · obtain ⟨f, within, rfl⟩ := List.mem_map.mp part
      have field := isWord_of_isIdentifier (whole.identifiers.field r among f within)
      exact Property.reads_lines field.attributeName ⟨register.asciiUpper, field.asciiUpper⟩
        (whole.field among within)
  rwa [flatMap_nil] at all

theorem reads_constants : Reads forms ((ofMap m).constants.flatMap Constants.lines)
    (m.registers.flatMap Register.accessNumbers) := by
  rw [ofMap, List.flatMap_map]
  refine .flatMap fun r inside => ?_
  have register := isWord_of_isIdentifier (whole.identifiers.register r inside)
  rw [← constants_told r]
  refine Constants.reads_lines register.unbroken (whole.register inside) ?_
  refine List.forall_mem_append.mpr ⟨?_, List.forall_mem_flatMap.mpr fun f within => ?_⟩
  · simp +decide [register.asciiUpper, Literal.isMarked]
  · have field := isWord_of_isIdentifier (whole.identifiers.field r inside f within)
    refine List.forall_mem_append.mpr ⟨?_, List.forall_mem_map.mpr fun v of => ?_⟩
    · simp +decide [register.asciiUpper, field.asciiUpper, Literal.isMarked]
    · have value := isWord_of_isIdentifier (whole.identifiers.value r inside f within v of)
      simp +decide [register.asciiUpper, field.asciiUpper, value.asciiUpper, Literal.isMarked]

theorem reads_registers : Reads forms ((ofMap m).registers.flatMap RegisterProperty.lines) [] := by
  have all : Reads forms ((ofMap m).registers.flatMap RegisterProperty.lines)
      ((ofMap m).registers.flatMap fun _ => []) := by
    refine .flatMap fun p inside => ?_
    obtain ⟨r, among, rfl⟩ := List.mem_map.mp inside
    have register := isWord_of_isIdentifier (whole.identifiers.register r among)
    refine RegisterProperty.reads_lines register.attributeName ?_ ?_
    · simp +decide [fieldClassName, (isWord_camelCase (whole.identifiers.register r among)).unbroken]
    · exact Property.reads_lines register.attributeName register.asciiUpper (whole.register among)
  rwa [flatMap_nil] at all

theorem reads_lines : Reads forms (ofMap m).lines
    (("BASE_ADDR", m.base) :: m.registers.flatMap Register.accessNumbers) := by
  have name := (isWord_of_isIdentifier whole.name).unbroken
  have shebang : Reads forms ["#!/usr/bin/env python3", "# -*- coding: utf-8 -*-", .blank,
      "\"\"\" Created with " ++ generatorName, .blank] [] := .silent (by decide) (by decide)
  have subject : Reads forms [.plain ("Register map " ++ m.name ++ ".")] [] :=
    .plain (Silent.appends (fun rest => by rfl) [_, _]) (by simp +decide [name])
  have opened : Reads forms ["\"\"\"", .blank] [] := .silent (by decide) (by decide)
  have heading : Reads forms ["class RegMap:"] [] := .silent (by decide) (by decide)
  have doc : Reads forms [.plain ("    \"\"\"Register map " ++ m.name ++ "\"\"\"")] [] :=
    .plain (Silent.appends (fun rest => by rfl) [_, _]) (by simp +decide [name])
  have word : IsWord "BASE_ADDR" := by decide
  have base : Reads forms [(Constant.mk "BASE_ADDR" (.padded m.base)).line]
      [("BASE_ADDR", m.base)] := Constant.reads_line word rfl
  have creation : Reads forms [.blank, "    def __init__(self, interface):",
      "        self._if = interface"] [] := .silent (by decide) (by decide)
  have map : Reads forms (ofMap m).mapClass
      (("BASE_ADDR", m.base) :: m.registers.flatMap Register.accessNumbers) := by
    have opening := heading.below (doc.below (reads_blank.below base))
    exact ((opening.append (reads_constants whole)).append_silent creation).append_silent
      (reads_registers whole)
  exact ((shebang.append (subject.below opened)).append (reads_fieldClasses whole)).append
    (reads_blank.below map)

theorem constantsIn_artifact (path : Path) : constantsIn (artifact path m).content =
    ("BASE_ADDR", m.base) :: m.registers.flatMap Register.accessNumbers := by
  have nothing : said forms [] = none := by decide
  rw [constantsIn, content_artifact, (reads_lines whole).readings_file nothing]

end

end RegisterMap.Accessors
