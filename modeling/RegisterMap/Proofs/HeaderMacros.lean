import RegisterMap.Proofs.HeaderScope
import RegisterMap.Proofs.HeaderStructs

namespace RegisterMap

/-- The macros of an item: all its constants, but a value is an enumerator. -/
def Item.macros : Item → List String
  | .value .. => []
  | i => i.constants Header.suffixes

theorem Item.macros_ending {i : Item} {n : String} (named : n ∈ i.macros) :
    ∃ stem, ∃ ending ∈ "_ADDR" :: "_RESET" :: Header.suffixes, n = stem ++ ending := by
  cases i with
  | base => exact ⟨"BASE", "_ADDR", by decide, List.mem_singleton.mp named⟩
  | register r =>
    rcases List.mem_cons.mp named with address | reset
    · exact ⟨_, "_ADDR", by decide, address⟩
    · exact ⟨_, "_RESET", by decide, List.mem_singleton.mp reset⟩
  | field r f =>
    obtain ⟨suffix, member, rfl⟩ := List.mem_map.mp named
    exact ⟨_, suffix, List.mem_cons_of_mem _ (List.mem_cons_of_mem _ member), rfl⟩
  | value r f v => cases named

namespace Header

/-- The macros of a declaration. -/
def Declaration.macros : Declaration → List String
  | .define name _ | .overlay name _ _ => [name]
  | _ => []

/-- All macros of a header that takes its lead from its map. -/
def macros (path : Path) (m : AddressMap) : List String :=
  [guardName path, "__I", "__O", "__IO"] ++
    (declarations (.of m.name) m).flatMap Declaration.macros

theorem fieldDeclarations_macros (lead : Lead) (r : Register) (f : Field) :
    (fieldDeclarations lead r f).flatMap Declaration.macros =
      (Item.field r f).macros.map fun n => lead.capital ++ "_" ++ n := by
  by_cases typed : f.values = [] <;>
    simp [typed, fieldDeclarations, Declaration.macros, Item.macros, Item.constants, suffixes,
      Lead.constant, String.intercalate_cons_cons, String.append_assoc]

theorem declarations_macros (lead : Lead) (m : AddressMap) :
    (declarations lead m).flatMap Declaration.macros =
      (items m.registers).flatMap (fun i => i.macros.map fun n => lead.capital ++ "_" ++ n) ++
        [lead.capital] := by
  simp only [declarations, registerDeclarations, List.flatMap_append, List.flatMap_assoc,
    fieldDeclarations_macros, items_flatMap]
  simp [Declaration.macros, Item.macros, Item.constants, Lead.constant,
    String.intercalate_cons_cons, String.append_assoc, flatMap_nil]

/-- The macros that are made for a map: the map itself and the constants of its items. -/
def mapMacros (m : AddressMap) : List String :=
  (Lead.of m.name).capital :: (items m.registers).flatMap fun i =>
    i.macros.map fun n => (Lead.of m.name).capital ++ "_" ++ n

def macroForms : List (Form String) := [⟨["#define "], List.head?⟩]

/-- The macros that the lines of a header define. -/
def macrosIn (content : String) : List String := readings macroForms content

/-- The macro that a line defines. -/
def defined? (l : Line) : Option String := said macroForms l.text.toList

theorem defined?_of_text {l : Line} {name rest : String} (named : IsWord name)
    (ends : ∀ c ∈ rest.toList.head?, isNameChar c = false)
    (text : l.text = "#define " ++ (name ++ rest)) : defined? l = some name := by
  rw [defined?, text]
  refine said_of_some ?_
  rw [wordsBehind_cons named ends]
  rfl

/-- Lines that begin otherwise define nothing. -/
theorem defined?_of_head {l : Line} (other : l.text.toList.head? ≠ some '#') : defined? l = none := by
  refine said_of_none ?_
  cases letters : l.text.toList with
  | nil => rfl
  | cons c rest =>
    have differ : (c == '#') = false := beq_eq_false_iff_ne.mpr fun same =>
      other (by rw [letters, same, List.head?_cons])
    change ((c :: rest).dropPrefix? ('#' :: "define ".toList)).bind _ = none
    rw [List.dropPrefix?, differ]
    rfl

/-- The lines between the braces of a type and the braces themselves define nothing. -/
theorem filterMap_defined?_block {opening name : String} {members : List Line}
    (start : opening.toList.head? = some 't')
    (inner : ∀ l ∈ members, l.text.toList.head? = some ' ') :
    (block opening members name).filterMap defined? = [] := by
  refine List.filterMap_eq_nil_iff.mpr (List.forall_mem_cons.mpr ⟨defined?_of_head (by simp [start]),
    List.forall_mem_append.mpr ⟨fun l inside => defined?_of_head ?_, ?_⟩⟩)
  · rw [inner l inside]
    decide
  · exact List.forall_mem_singleton.mpr (defined?_of_head (by simp))

theorem BitMember.head_line (part : BitMember) (word : Word) :
    (part.line word).text.toList.head? = some ' ' := by
  cases part with
  | field name width description =>
    obtain ⟨rest, text⟩ := text_withComment
      ("    " ++ storage word ++ " " ++ name ++ " : " ++ decimal width ++ ";") " // " description
    simp [line, text]
  | padding width => simp [line]

theorem MapMember.head_lines (part : MapMember) (word : Word) :
    ∀ l ∈ part.lines word, l.text.toList.head? = some ' ' := by
  cases part with
  | reserved index words => exact List.forall_mem_singleton.mpr (by simp)
  | register access name bits description =>
    obtain ⟨rest, text⟩ := text_withComment
      ("        " ++ qualifier access ++ " " ++ storage word ++ " " ++ name ++ ";") " // " description
    simp [lines, text]

theorem Enumerator.head_line (e : Enumerator) : e.line.text.toList.head? = some ' ' := by
  obtain ⟨rest, text⟩ := text_withComment ("    " ++ e.name ++ " = " ++ hexLiteral e.value ++ ",")
    " //" e.description
  simp [line, text]

/-- The lines of a declaration define its macros. -/
theorem Declaration.filterMap_defined?_lines {d : Declaration} (worded : d.Worded) (word : Word) :
    (d.lines word).filterMap defined? = d.macros := by
  cases d with
  | remark subject description =>
    obtain ⟨rest, text⟩ := text_withComment ("// " ++ subject) " - " description
    exact List.filterMap_cons_none (defined?_of_head (by simp [text]))
  | define name value =>
    refine List.filterMap_cons_some (@defined?_of_text _ name (" " ++ value.text) worded ?_ ?_)
    · simp [isNameChar]
    · simp [String.append_assoc]
  | bits name members =>
    exact filterMap_defined?_block rfl (List.forall_mem_map.mpr fun part _ => part.head_line word)
  | values name enumerators =>
    exact filterMap_defined?_block rfl (List.forall_mem_map.mpr fun e _ => e.head_line)
  | map name members =>
    exact filterMap_defined?_block rfl
      (List.forall_mem_flatMap.mpr fun part _ => part.head_lines word)
  | overlay name type base =>
    refine List.filterMap_cons_some
      (@defined?_of_text _ name (" ((" ++ type ++ "*)(" ++ base ++ "))") worded ?_ ?_)
    · simp [isNameChar]
    · simp [String.append_assoc]
  | space => rfl

theorem filterMap_defined?_opening {guard : String} (named : IsWord guard) :
    (opening guard).filterMap defined? = [guard, "__I", "__O", "__IO"] := by
  have heading : defined? ("// Created with " ++ generatorName) = none := by decide
  have asked : defined? ("#ifndef " ++ guard) = none := by
    rw [defined?, Line.text_plain, String.toList_append]
    rfl
  have own : defined? ("#define " ++ guard) = some guard :=
    @defined?_of_text _ guard "" named (by simp) (by simp)
  have rest : ((opening "").drop 3).filterMap defined? = ["__I", "__O", "__IO"] := by decide
  rw [opening, List.filterMap_cons_none heading, List.filterMap_cons_none asked,
    List.filterMap_cons_some own]
  exact congrArg (guard :: ·) rest

theorem filterMap_defined?_ending (guard : String) : (ending guard).filterMap defined? = [] := by
  have fixed : ∀ l ∈ (ending "").take 4, defined? l = none := by decide
  refine List.filterMap_eq_nil_iff.mpr (List.forall_mem_append.mpr
    ⟨fixed, List.forall_mem_singleton.mpr ?_⟩)
  rw [defined?, Line.text_plain, String.append_assoc, String.toList_append]
  rfl

/-- The macros of a header are read from its lines. -/
theorem macrosIn_artifact {m : AddressMap} (whole : m.Unbroken) (path : Path) :
    macrosIn (artifact path none m).content = macros path m := by
  have given : ∀ name ∈ (none : Option String), IsWord name := nofun
  have declared : ((declarations (.of m.name) m).flatMap (Declaration.lines m.word)).filterMap
      defined? = (declarations (.of m.name) m).flatMap Declaration.macros := by
    rw [List.filterMap_flatMap]
    exact List.flatMap_congr fun d among => Declaration.filterMap_defined?_lines
      (worded_declarations (plain_lead whole given) whole d among) m.word
  have nothing : said macroForms [] = none := by decide
  have all : (lines (.of m.name) (guardName path) m).filterMap defined? = macros path m := by
    rw [lines, List.filterMap_append, List.filterMap_append, declared,
      filterMap_defined?_opening (isWord_guardName path), filterMap_defined?_ending, List.append_nil]
    rfl
  rw [macrosIn, readings, textLines_artifact whole path given, List.filterMap_append,
    List.filterMap_map, List.filterMap_cons_none nothing, List.filterMap_nil, List.append_nil]
  exact all

/-- The other macros of a header begin with an underscore, which no identifier does. -/
theorem mem_macros_iff {path : Path} {m : AddressMap} {n : String} (opens : Opens Char.isAlpha n) :
    n ∈ macros path m ↔ n ∈ mapMacros m := by
  have fixed : n ∉ [guardName path, "__I", "__O", "__IO"] := by
    have underscore : ∀ k ∈ [guardName path, "__I", "__O", "__IO"], Opens (· == '_') k := by
      have marked (rest : String) : Opens (· == '_') ("__" ++ rest) :=
        .append ⟨'_', ['_'], by decide, rfl⟩ rest
      have guard : Opens (· == '_') (guardName path) := by
        rw [guardName, String.append_assoc]
        exact marked _
      simp only [List.forall_mem_cons]
      exact ⟨guard, marked "I", marked "O", marked "IO", by simp⟩
    intro named
    exact (underscore n named).underscore_ne opens rfl rfl
  rw [macros, List.mem_append, or_iff_right fixed, declarations_macros, mapMacros, List.mem_append,
    List.mem_singleton, List.mem_cons, or_comm]

/-- The lead in capitals has no small letters. -/
theorem isLower_of_mem_toCapitals {name : String} (identifier : isIdentifier name = true) {c : Char}
    (inside : c ∈ (toCapitals name).toList) : c.isLower = false := by
  obtain ⟨first, rest, letters, alpha, others⟩ := isIdentifier_iff.mp identifier
  rw [toCapitals, String.toList_ofList, letters] at inside
  obtain ⟨d, among, ofD⟩ := List.mem_flatMap.mp inside
  have ascii : capital d = [d.toUpper] := by
    rcases List.mem_cons.mp among with rfl | later
    · exact capital_of_isAlpha alpha
    · exact if_pos (isNameChar_lt (others d later))
  rw [ascii, List.mem_singleton] at ofD
  rw [ofD, Char.isLower_toUpper_eq_false]

/-- The bit view of a register ends in small letters and macros do not. -/
theorem view_not_mem_mapMacros {m : AddressMap} (lead : isIdentifier m.name = true)
    (name : String) : name ++ "_bf" ∉ mapMacros m := by
  intro named
  rcases List.mem_cons.mp named with map | item
  · have small := isLower_of_mem_toCapitals lead (c := 'f') (by
      rw [← show name ++ "_bf" = toCapitals m.name from map, String.toList_append]
      exact List.mem_append_right _ (by decide))
    cases small
  · obtain ⟨i, _, ofItem⟩ := List.mem_flatMap.mp item
    obtain ⟨k, constant, same⟩ := List.mem_map.mp ofItem
    obtain ⟨stem, ending, fixed, rfl⟩ := Item.macros_ending constant
    have unlike : ∀ s ∈ "_ADDR" :: "_RESET" :: suffixes,
        ¬ s.toList <:+ "_bf".toList ∧ ¬ "_bf".toList <:+ s.toList := by decide
    rw [← String.append_assoc] at same
    exact append_ne_of_endings (unlike ending fixed).1 (unlike ending fixed).2 _ name same

end Header

end RegisterMap
