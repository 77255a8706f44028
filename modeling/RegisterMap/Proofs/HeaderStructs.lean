import RegisterMap.Proofs.BitTiling
import RegisterMap.Proofs.HeaderNumbers

namespace RegisterMap.Header

/-- What a line inside a structure says. -/
inductive Piece where
  | bits (name : Option String) (width : Nat)
  | array (type name : String) (count : Nat)
  | unionOpens
  | alternative (type name : String)
  | unionCloses
  /-- The end of the structure, with the name of its type. -/
  | closes (name : String)
  deriving DecidableEq, Repr

def pieceForms : List (Form Piece) :=
  [⟨["\x7d ", ";"], fun words => words.head?.map .closes⟩,
    ⟨["    union \x7b"], fun _ => some .unionOpens⟩,
    ⟨["    \x7d;"], fun _ => some .unionCloses⟩,
    { marks := ["        ", " ", " ", ";"]
      meaning
        | [_, type, name, _] => some (.alternative type name)
        | _ => none },
    { marks := ["    __IO ", " ", "[", "];"]
      meaning
        | [type, name, count, _] => (literalNumber? false count.toList).map (.array type name)
        | _ => none },
    { marks := ["    ", " ", " : ", ";"]
      meaning
        | [_, name, width, _] => (literalNumber? false width.toList).map (.bits (some name))
        | _ => none },
    { marks := ["    ", " : ", ";"]
      meaning
        | [_, width, _] => (literalNumber? false width.toList).map (.bits none)
        | _ => none }]

/-- A member of a structure as it is read. The alternatives of a union have a type and a name each. -/
inductive Component where
  | bits (name : Option String) (width : Nat)
  | array (type name : String) (count : Nat)
  | union (alternatives : List (String × String))
  deriving DecidableEq, Repr

namespace Component

/-- The types and names that a union offers. -/
def alternatives : Component → List (String × String)
  | .union alternatives => alternatives
  | _ => []

/-- The bits that a member takes. The alternatives of a union share one word. -/
def size (word : Word) : Component → Nat
  | .bits _ width => width
  | .array _ _ count => count * word.bits
  | .union _ => word.bits

/-- The names of a member. A union has no name itself, so that its alternatives are members of the
structure around it. -/
def names : Component → List String
  | .bits name _ => name.toList
  | .array _ name _ => [name]
  | .union alternatives => alternatives.map Prod.snd

end Component

/-- Where a reader of a header is, with what it has read of the structure around it. -/
inductive Place where
  | outside
  | inside (members : List Component)
  | union (members : List Component) (alternatives : List (String × String))

/-- A line leads a reader to the next place, maybe past the end of a structure. A structure is lost with
the first line in it that can be no part of one. -/
def Place.step : Place → List Char → List (String × List Component) × Place
  | .outside, line => ([], if line = "typedef struct \x7b".toList then .inside [] else .outside)
  | .inside members, line =>
    match said pieceForms line with
    | some (.bits name width) => ([], .inside (members ++ [.bits name width]))
    | some (.array type name count) => ([], .inside (members ++ [.array type name count]))
    | some .unionOpens => ([], .union members [])
    | some (.closes name) => ([(name, members)], .outside)
    | _ => ([], .outside)
  | .union members alternatives, line =>
    match said pieceForms line with
    | some (.alternative type name) => ([], .union members (alternatives ++ [(type, name)]))
    | some .unionCloses => ([], .inside (members ++ [.union alternatives]))
    | _ => ([], .outside)

/-- The structures that a reader finds from a place on, each with its members. -/
def structuresFrom (place : Place) : List (List Char) → List (String × List Component)
  | [] => []
  | line :: rest => (place.step line).1 ++ structuresFrom (place.step line).2 rest

/-- The structures of a header by the names of their types. -/
def structuresIn (content : String) : List (String × List Component) :=
  structuresFrom .outside (textLines content)

/-- Lines that lead a reader from one place to another, past the ends of some structures. -/
def Passes (start : Place) (lines : List Line) (found : List (String × List Component))
    (stop : Place) : Prop :=
  ∀ rest, structuresFrom start (lines.map (fun l => l.text.toList) ++ rest) =
    found ++ structuresFrom stop rest

namespace Passes

variable {β : Type} {start middle stop : Place} {first second : List Line}
  {found others : List (String × List Component)}

theorem line {l : Line} (step : start.step l.text.toList = (found, stop)) :
    Passes start [l] found stop := by
  intro rest
  rw [List.map_singleton, List.singleton_append, structuresFrom, step]

theorem append (left : Passes start first found middle) (right : Passes middle second others stop) :
    Passes start (first ++ second) (found ++ others) stop := by
  intro rest
  rw [List.map_append, List.append_assoc, left, right, List.append_assoc]

/-- Outside of all structures only one line matters. -/
theorem outside (other : ∀ l ∈ first, l.text ≠ "typedef struct \x7b") :
    Passes .outside first [] .outside := by
  induction first with
  | nil => exact fun rest => rfl
  | cons l lines ih =>
    obtain ⟨own, others⟩ := List.forall_mem_cons.mp other
    have stays : Place.outside.step l.text.toList = ([], .outside) := by
      rw [Place.step, if_neg fun same => own (String.toList_injective same)]
    exact (line stays).append (ih others)

theorem flatMap {members : List β} {lines : β → List Line}
    {found : β → List (String × List Component)}
    (each : ∀ b ∈ members, Passes .outside (lines b) (found b) .outside) :
    Passes .outside (members.flatMap lines) (members.flatMap found) .outside := by
  induction members with
  | nil => exact fun rest => rfl
  | cons b others ih =>
    obtain ⟨own, later⟩ := List.forall_mem_cons.mp each
    exact own.append (ih later)

/-- Lines of members, one member after the other. -/
theorem members {parts : List β} {lines : β → List Line} {component : β → Component}
    (each : ∀ b ∈ parts, ∀ before,
      Passes (.inside before) (lines b) [] (.inside (before ++ [component b])))
    (before : List Component) :
    Passes (.inside before) (parts.flatMap lines) [] (.inside (before ++ parts.map component)) := by
  induction parts generalizing before with
  | nil =>
    intro rest
    rw [List.map_nil, List.append_nil]
    rfl
  | cons b others ih =>
    obtain ⟨own, later⟩ := List.forall_mem_cons.mp each
    have all := (own before).append (ih later (before ++ [component b]))
    rwa [List.append_assoc] at all

end Passes

theorem text_withComment (code mark description : String) :
    ∃ rest, (withComment code mark description).text = code ++ rest := by
  unfold withComment
  split
  · exact ⟨"", by rw [Line.text_plain, String.append_empty]⟩
  · exact ⟨mark ++ commentText description, by simp [Line.text, String.append_assoc]⟩

section

variable {name line : String} (named : IsWord name)
include named

theorem said_closes : said pieceForms ("\x7d " ++ name ++ ";").toList = some (.closes name) := by
  refine said_of_some ?_
  rw [String.append_assoc, wordsBehind_cons named (by simp [isNameChar])]
  rfl

theorem said_alternative {type rest : String} (access : Access) (typed : IsWord type)
    (text : line =
      "        " ++ (qualifier access ++ (" " ++ (type ++ (" " ++ (name ++ (";" ++ rest))))))) :
    said pieceForms line.toList = some (.alternative type name) := by
  have mode : IsWord (qualifier access) := by cases access <;> decide
  have other : said pieceForms line.toList = said (pieceForms.drop 3) line.toList := by
    rw [text, String.toList_append]
    rfl
  obtain ⟨behind, last⟩ := wordsBehind_last ";" rest
  rw [other, text]
  refine said_of_some ?_
  rw [wordsBehind_cons mode (by simp [isNameChar]), wordsBehind_cons typed (by simp [isNameChar]),
    wordsBehind_cons named (by simp [isNameChar]), last]
  rfl

theorem said_array {type : String} {count : Nat} (typed : IsWord type)
    (text : line = "    __IO " ++ (type ++ (" " ++ (name ++ ("[" ++ (decimal count ++ "];")))))) :
    said pieceForms line.toList = some (.array type name count) := by
  have other : said pieceForms line.toList = said (pieceForms.drop 4) line.toList := by
    rw [text, String.toList_append]
    rfl
  rw [other, text]
  refine said_of_some ?_
  rw [wordsBehind_cons typed (by simp [isNameChar]), wordsBehind_cons named (by simp [isNameChar]),
    wordsBehind_cons (isWord_decimal count) (by simp [isNameChar])]
  exact congrArg (Option.map _) (literalNumber?_decimal false count)

omit named in
/-- A bit field begins with its type, which no other line does. -/
theorem said_type {word : Word} {rest : String} (text : line = "    " ++ (storage word ++ rest)) :
    said pieceForms line.toList = said (pieceForms.drop 5) line.toList := by
  rw [text, storage, String.append_assoc, String.append_assoc, String.toList_append,
    String.toList_append]
  rfl

theorem said_bits {word : Word} {width : Nat} {rest : String}
    (text : line =
      "    " ++ (storage word ++ (" " ++ (name ++ (" : " ++ (decimal width ++ (";" ++ rest))))))) :
    said pieceForms line.toList = some (.bits (some name) width) := by
  obtain ⟨behind, last⟩ := wordsBehind_last ";" rest
  rw [said_type text, text]
  refine said_of_some ?_
  rw [wordsBehind_cons (isWord_storage word) (by simp [isNameChar]),
    wordsBehind_cons named (by simp [isNameChar]),
    wordsBehind_cons (isWord_decimal width) (by simp [isNameChar]), last]
  exact congrArg (Option.map _) (literalNumber?_decimal false width)

end

theorem said_padding {word : Word} {width : Nat} {line rest : String}
    (text : line = "    " ++ (storage word ++ (" : " ++ (decimal width ++ (";" ++ rest))))) :
    said pieceForms line.toList = some (.bits none width) := by
  have unnamed : wordsBehind ["    ", " ", " : ", ";"] line.toList = none := by
    rw [text, wordsBehind_cons (isWord_storage word) (by simp [isNameChar]), String.toList_append]
    rfl
  obtain ⟨behind, last⟩ := wordsBehind_last ";" rest
  refine (said_type text).trans ((said_of_none unnamed).trans (said_of_some ?_))
  rw [text]
  rw [wordsBehind_cons (isWord_storage word) (by simp [isNameChar]),
    wordsBehind_cons (isWord_decimal width) (by simp [isNameChar]), last]
  exact congrArg (Option.map _) (literalNumber?_decimal false width)

/-- What a member of a structure is read as. -/
def BitMember.component : BitMember → Component
  | .field name width _ => .bits (some name) width
  | .padding width => .bits none width

def MapMember.component (word : Word) : MapMember → Component
  | .reserved index words => .array (storage word) ("RESERVED" ++ decimal index) words
  | .register _ name bits _ => .union [(storage word, name), (bits, name ++ "_bf")]

/-- A member that is named by words. -/
def BitMember.Worded : BitMember → Prop
  | .field name _ _ => IsWord name
  | .padding _ => True

def MapMember.Worded : MapMember → Prop
  | .reserved .. => True
  | .register _ name bits _ => IsWord name ∧ IsWord bits

theorem BitMember.passes {part : BitMember} (worded : part.Worded) (word : Word)
    (before : List Component) :
    Passes (.inside before) [part.line word] [] (.inside (before ++ [part.component])) := by
  cases part with
  | field name width description =>
    obtain ⟨behind, text⟩ := text_withComment
      ("    " ++ storage word ++ " " ++ name ++ " : " ++ decimal width ++ ";") " // " description
    simp only [String.append_assoc] at text
    refine .line ?_
    simp only [line, String.append_assoc]
    rw [Place.step, said_bits worded text]
    rfl
  | padding width =>
    have text : "    " ++ storage word ++ " : " ++ decimal width ++ "; // reserved" =
        "    " ++ (storage word ++ (" : " ++ (decimal width ++ (";" ++ " // reserved")))) := by
      simp [String.append_assoc]
    refine .line ?_
    rw [line, Line.text_plain, Place.step, said_padding text]
    rfl

theorem MapMember.passes {part : MapMember} (worded : part.Worded) (word : Word)
    (before : List Component) :
    Passes (.inside before) (part.lines word) [] (.inside (before ++ [part.component word])) := by
  cases part with
  | reserved index words =>
    have named : IsWord ("RESERVED" ++ decimal index) := by simp +decide [isWord_decimal]
    have text : "    __IO " ++ storage word ++ " RESERVED" ++ decimal index ++ "[" ++ decimal words ++
        "];" = "    __IO " ++ (storage word ++ (" " ++ ("RESERVED" ++ decimal index ++
          ("[" ++ (decimal words ++ "];"))))) := by
      rw [show " RESERVED" = " " ++ "RESERVED" by rfl]
      simp only [String.append_assoc]
    refine .line ?_
    rw [Line.text_plain, Place.step, said_array named (isWord_storage word) text]
    rfl
  | register access name bits description =>
    obtain ⟨named, typed⟩ := worded
    have viewed : IsWord (name ++ "_bf") := by simp +decide [named]
    obtain ⟨behind, first⟩ := text_withComment
      ("        " ++ qualifier access ++ " " ++ storage word ++ " " ++ name ++ ";") " // " description
    have second : "        " ++ qualifier access ++ " " ++ bits ++ " " ++ name ++
        "_bf; // Bit access for " ++ name ++ " register" = "        " ++ (qualifier access ++ (" " ++
          (bits ++ (" " ++ (name ++ "_bf" ++ (";" ++ (" // Bit access for " ++ name ++ " register")))))))
        := by
      rw [show "_bf; // Bit access for " = "_bf" ++ (";" ++ " // Bit access for ") by rfl]
      simp only [String.append_assoc]
    simp only [String.append_assoc] at first
    have opens : Passes (.inside before) ["    union \x7b"] [] (.union before []) := .line rfl
    have own : Passes (.union before [])
        [withComment ("        " ++ qualifier access ++ " " ++ storage word ++ " " ++ name ++ ";")
          " // " description] [] (.union before [(storage word, name)]) := by
      refine .line ?_
      simp only [String.append_assoc]
      rw [Place.step, said_alternative named access (isWord_storage word) first]
      rfl
    have view : Passes (.union before [(storage word, name)])
        [.plain ("        " ++ qualifier access ++ " " ++ bits ++ " " ++ name ++
          "_bf; // Bit access for " ++ name ++ " register")] []
        (.union before [(storage word, name), (bits, name ++ "_bf")]) := by
      refine .line ?_
      rw [Line.text_plain, Place.step, said_alternative viewed access typed second]
      rfl
    have closes : Passes (.union before [(storage word, name), (bits, name ++ "_bf")])
        ["    \x7d;"] [] (.inside (before ++ [.union [(storage word, name), (bits, name ++ "_bf")]])) :=
      .line rfl
    exact opens.append (own.append (view.append closes))

/-- The names that a declaration gives are words. -/
def Declaration.Worded : Declaration → Prop
  | .define name _ | .overlay name _ _ => IsWord name
  | .bits name members => IsWord name ∧ ∀ part ∈ members, part.Worded
  | .map name members => IsWord name ∧ ∀ part ∈ members, part.Worded
  | _ => True

/-- The structure that a declaration is read as. -/
def Declaration.structures (word : Word) : Declaration → List (String × List Component)
  | .bits name members => [(name, members.map BitMember.component)]
  | .map name members => [(name, members.map (MapMember.component word))]
  | _ => []

theorem Passes.block {name : String} (named : IsWord name) {lines : List Line}
    {members : List Component} (inner : Passes (.inside []) lines [] (.inside members)) :
    Passes .outside (block "typedef struct" lines name) [(name, members)] .outside := by
  have first : Passes .outside [.plain ("typedef struct" ++ " \x7b")] [] (.inside []) := .line rfl
  have last : Passes (.inside members) [.plain ("\x7d " ++ name ++ ";")] [(name, members)] .outside := by
    refine .line ?_
    rw [Line.text_plain, Place.step, said_closes named]
  exact first.append (inner.append last)

/-- Lines that begin otherwise open no structure. -/
theorem ne_opening {text : String} (other : text.toList.head? ≠ some 't') :
    text ≠ "typedef struct \x7b" := by
  rintro rfl
  exact other rfl

theorem Declaration.passes {d : Declaration} (worded : d.Worded) (word : Word) :
    Passes .outside (d.lines word) (d.structures word) .outside := by
  cases d with
  | remark subject description =>
    obtain ⟨rest, text⟩ := text_withComment ("// " ++ subject) " - " description
    refine .outside (List.forall_mem_singleton.mpr (ne_opening ?_))
    simp [text]
  | define name value => exact .outside (List.forall_mem_singleton.mpr (ne_opening (by simp)))
  | bits name members =>
    have inner := @Passes.members _ members (fun part => [part.line word]) BitMember.component
      (fun part inside => BitMember.passes (worded.2 part inside) word) []
    rw [← List.map_eq_flatMap] at inner
    exact inner.block worded.1
  | values name enumerators =>
    refine .outside (List.forall_mem_cons.mpr ⟨by decide, List.forall_mem_append.mpr ⟨?_, ?_⟩⟩)
    · refine List.forall_mem_map.mpr fun e _ => ne_opening ?_
      obtain ⟨rest, text⟩ := text_withComment ("    " ++ e.name ++ " = " ++ hexLiteral e.value ++ ",")
        " //" e.description
      simp [Enumerator.line, text]
    · exact List.forall_mem_singleton.mpr (ne_opening (by simp))
  | map name members =>
    have inner := Passes.members (fun part inside => MapMember.passes (worded.2 part inside) word) []
    exact inner.block worded.1
  | overlay name type base => exact .outside (List.forall_mem_singleton.mpr (ne_opening (by simp)))
  | space => exact .outside (List.forall_mem_singleton.mpr (by decide))

section

variable {lead : Lead} (plain : lead.Plain) {m : AddressMap} (whole : m.Unbroken)
include plain whole

theorem worded_registerDeclarations {r : Register} (inside : r ∈ m.registers) (word : Word) :
    ∀ d ∈ registerDeclarations lead word r, d.Worded := by
  have register := isWord_of_isIdentifier (whole.identifiers.register r inside)
  have upper := register.asciiUpper
  have lower := register.asciiLower
  have type : IsWord (lead.typeName [asciiLower r.name]) :=
    Lead.isWord_typeName plain (List.forall_mem_singleton.mpr lower)
  intro d among
  simp only [registerDeclarations, List.mem_append, List.mem_cons, List.not_mem_nil, or_false,
    List.mem_flatMap] at among
  rcases among with (rfl | rfl | rfl | rfl | rfl) | ⟨f, within, among⟩
  · trivial
  · exact Lead.isWord_constant plain (by simp +decide [upper])
  · exact Lead.isWord_constant plain (by simp +decide [upper])
  · refine ⟨type, List.forall_mem_map.mpr fun run among => ?_⟩
    cases run with
    | field f =>
      have within := r.fieldsByLsb_perm.mem_iff.mp (BitRun.mem_of_field_mem_cover among)
      exact isWord_of_isIdentifier (whole.identifiers.field r inside f within)
    | padding width => trivial
  · trivial
  · have field := (isWord_of_isIdentifier (whole.identifiers.field r inside f within)).asciiUpper
    simp only [fieldDeclarations, List.cons_append, List.nil_append, List.mem_cons, List.mem_append,
      List.not_mem_nil, or_false] at among
    rcases among with rfl | rfl | rfl | rfl | rfl | values | rfl
    · trivial
    · exact Lead.isWord_constant plain (by simp +decide [upper, field])
    · exact Lead.isWord_constant plain (by simp +decide [upper, field])
    · exact Lead.isWord_constant plain (by simp +decide [upper, field])
    · exact Lead.isWord_constant plain (by simp +decide [upper, field])
    · split at values
      · cases values
      · rw [List.mem_singleton.mp values]
        trivial
    · trivial

theorem worded_mapMembers {index : Nat} {slots : List Slot}
    (among : ∀ r ∈ slots.filterMap Slot.register?, r ∈ m.registers) :
    ∀ part ∈ mapMembers lead index slots, part.Worded := by
  induction slots generalizing index with
  | nil => exact List.forall_mem_nil _
  | cons slot rest ih => cases slot with
    | reserved s => exact List.forall_mem_cons.mpr ⟨trivial, ih among⟩
    | register r =>
      obtain ⟨own, others⟩ := List.forall_mem_cons.mp among
      have register := isWord_of_isIdentifier (whole.identifiers.register r own)
      have type : IsWord (lead.typeName [asciiLower r.name]) :=
        Lead.isWord_typeName plain (List.forall_mem_singleton.mpr register.asciiLower)
      exact List.forall_mem_cons.mpr ⟨⟨register, type⟩, ih others⟩

theorem worded_declarations : ∀ d ∈ declarations lead m, d.Worded := by
  have type : IsWord (lead.typeName []) := Lead.isWord_typeName plain nofun
  intro d among
  simp only [declarations, List.mem_append, List.mem_cons, List.not_mem_nil, or_false,
    List.mem_flatMap] at among
  rcases among with ((rfl | rfl) | ⟨r, inside, among⟩) | rfl | rfl | rfl | rfl | rfl | rfl
  · exact Lead.isWord_constant plain (by simp +decide)
  · trivial
  · exact worded_registerDeclarations plain whole inside m.word d among
  · trivial
  · trivial
  · refine ⟨type, worded_mapMembers plain whole ?_⟩
    rw [AddressMap.slots, register?_mergeSlots]
    exact fun r inside => inside
  · trivial
  · exact plain.capital
  · trivial

end

/-- The bit fields of a register as they are read. -/
def bitComponents (word : Word) (r : Register) : List Component :=
  (r.bitRuns word).map fun run => (BitMember.ofRun run).component

/-- The members of the structure of a map as they are read. -/
def mapComponents (lead : Lead) (m : AddressMap) : List Component :=
  (mapMembers lead 0 m.slots).map (MapMember.component m.word)

theorem union_mem_mapComponents (lead : Lead) {m : AddressMap} {r : Register}
    (inside : r ∈ m.registers) :
    .union [(storage m.word, r.name), (lead.typeName [asciiLower r.name], r.name ++ "_bf")] ∈
      mapComponents lead m := by
  have slot : .register r ∈ m.slots := by
    rw [← register?_mergeSlots m.reserved m.registers] at inside
    obtain ⟨s, among, found⟩ := List.mem_filterMap.mp inside
    cases s with
    | register t => exact Option.some.inj found ▸ among
    | reserved s => cases found
  have member {slots : List Slot} (among : .register r ∈ slots) (index : Nat) :
      .register r.access r.name (lead.typeName [asciiLower r.name]) r.description ∈
        mapMembers lead index slots := by
    induction slots generalizing index with
    | nil => cases among
    | cons s rest ih =>
      rcases List.mem_cons.mp among with rfl | later
      · exact List.mem_cons_self ..
      · cases s <;> exact List.mem_cons_of_mem _ (ih later _)
  exact List.mem_map_of_mem (member slot 0)

theorem structures_registerDeclarations (lead : Lead) (word : Word) (r : Register) :
    (registerDeclarations lead word r).flatMap (Declaration.structures word) =
      [(lead.typeName [asciiLower r.name], bitComponents word r)] := by
  have fields : (r.fields.flatMap (fieldDeclarations lead r)).flatMap
      (Declaration.structures word) = [] := by
    rw [List.flatMap_assoc]
    refine List.flatMap_eq_nil_iff.mpr fun f _ => ?_
    by_cases typed : f.values = [] <;> simp [fieldDeclarations, Declaration.structures, typed]
  rw [registerDeclarations, List.flatMap_append, fields]
  simp [Declaration.structures, bitComponents, Function.comp_def]

theorem structures_declarations (lead : Lead) (m : AddressMap) :
    (declarations lead m).flatMap (Declaration.structures m.word) =
      (m.registers.map fun r => (lead.typeName [asciiLower r.name], bitComponents m.word r)) ++
        [(lead.typeName [], mapComponents lead m)] := by
  simp only [declarations, List.flatMap_append, List.flatMap_assoc,
    structures_registerDeclarations, ← List.map_eq_flatMap]
  simp [Declaration.structures, mapComponents]

section

variable {m : AddressMap} (whole : m.Unbroken) (path : Path) {lead : Option String}
  (given : ∀ name ∈ lead, IsWord name)
include whole given

/-- The structures of a header are the bit fields of all registers and the members of its map. -/
theorem structuresIn_artifact : structuresIn (artifact path lead m).content =
    (m.registers.map fun r =>
      ((Lead.of (lead.getD m.name)).typeName [asciiLower r.name], bitComponents m.word r)) ++
      [((Lead.of (lead.getD m.name)).typeName [], mapComponents (.of (lead.getD m.name)) m)] := by
  have plain := plain_lead whole given
  have first : Passes .outside (opening (guardName path)) [] .outside := by
    have fixed : ∀ l ∈ (opening "").drop 3, l.text ≠ "typedef struct \x7b" := by decide
    refine .outside (List.forall_mem_cons.mpr ⟨by decide, List.forall_mem_cons.mpr
      ⟨ne_opening (by simp), List.forall_mem_cons.mpr ⟨ne_opening (by simp), fixed⟩⟩⟩)
  have last : Passes .outside (ending (guardName path)) [] .outside := by
    have fixed : ∀ l ∈ (ending "").take 4, l.text ≠ "typedef struct \x7b" := by decide
    exact .outside (List.forall_mem_append.mpr
      ⟨fixed, List.forall_mem_singleton.mpr (ne_opening (by simp))⟩)
  have declared := Passes.flatMap fun d among =>
    Declaration.passes (worded_declarations plain whole d among) m.word
  have all := (first.append declared).append last [[]]
  rw [structuresIn, textLines_artifact whole path given, lines, all, structures_declarations,
    List.nil_append, List.append_nil]
  exact List.append_nil _

end

end RegisterMap.Header
