import RegisterMap.Bindings.Text
import RegisterMap.Proofs.BindingScope
import RegisterMap.Proofs.Descriptions
import RegisterMap.Proofs.LineReading

namespace RegisterMap.Bindings

/-- What begins at an offset of a map: a register, padding or the end. -/
inductive Row where
  | register (offset : Nat) (name : String)
  | reserved (offset : Nat) (name : String)
  | stop (offset : Nat)
  deriving DecidableEq, Repr

/-- What a line of bindings says that has a number in it, or that stands over such lines. -/
inductive Statement where
  /-- A constant outside of all modules. -/
  | outer (name type : String) (n : Nat)
  | constant (name type : String) (n : Nat)
  | register (name : String)
  | field (name : String)
  | value (name : String) (n : Nat)
  | row (row : Row)
  deriving DecidableEq, Repr

/-- Lines that declare a constant at some margin. -/
def constantForm (margin : String) (make : String → String → Nat → Statement) : Form Statement where
  marks := [margin ++ "pub const ", ": ", " = "]
  meaning
    | [name, type, literal] => (literalNumber? true literal.toList).map (make name type)
    | _ => none

/-- Lines that say what begins at an offset. -/
def rowForm (opening closing : String) (make : Nat → String → Row) : Form Statement where
  marks := ["            (", opening, closing]
  meaning
    | [offset, name, _] => (literalNumber? true offset.toList).map fun n => .row (make n name)
    | _ => none

def forms : List (Form Statement) :=
  [constantForm "" .outer, constantForm "    " .constant,
    ⟨["        pub ", " ["], fun words => words.head?.map .register⟩,
    ⟨["            ", " OFFSET("], fun words => words.head?.map .field⟩,
    .naming true "                " " = " .value,
    rowForm " => pub " ": " .register, rowForm " => " ")," .reserved,
    rowForm " => @END" ")," fun n _ => .stop n]

/-- A name with its type and its number, from outside of all modules. -/
def Statement.outer? : Statement → Option (String × String × Nat)
  | outer name type n => some (name, type, n)
  | _ => none

def Statement.constant? : Statement → Option (String × String × Nat)
  | constant name type n => some (name, type, n)
  | _ => none

def Statement.row? : Statement → Option Row
  | row r => some r
  | _ => none

/-- Values under the last register and the last field that were named before them. -/
def valuesUnder (register field : String) : List Statement → List (String × Nat)
  | [] => []
  | .register name :: rest => valuesUnder name field rest
  | .field name :: rest => valuesUnder register name rest
  | .value name n :: rest =>
    (register ++ "::" ++ field ++ "::" ++ name, n) :: valuesUnder register field rest
  | _ :: rest => valuesUnder register field rest

def outerIn (content : String) : List (String × String × Nat) :=
  (readings forms content).filterMap Statement.outer?

def constantsIn (content : String) : List (String × String × Nat) :=
  (readings forms content).filterMap Statement.constant?

def valuesIn (content : String) : List (String × Nat) := valuesUnder "" "" (readings forms content)

def rowsIn (content : String) : List Row := (readings forms content).filterMap Statement.row?

def Constant.statement (c : Constant) (make : String → String → Nat → Statement) : Statement :=
  make c.name c.type.name c.value.value

def BitsField.statements (f : BitsField) : List Statement :=
  .field f.name :: f.values.map fun v => .value v.name v.value.value

def BitsType.statements (t : BitsType) : List Statement :=
  .register t.name :: t.fields.flatMap BitsField.statements

def Entry.row (e : Entry) : Row :=
  match e.content with
  | .reserved index => .reserved e.offset ("_reserved" ++ decimal index)
  | .register name _ _ => .register e.offset name

/-- The rows of the structure of a map, unless it would be empty. -/
def rows (b : Bindings) : List Row :=
  if b.entries.isEmpty then [] else b.entries.map Entry.row ++ [.stop b.size]

def statements (b : Bindings) : List Statement :=
  b.base.statement .outer ::
    (b.constants.flatMap fun group => group.constants.map (·.statement .constant)) ++
    b.bits.flatMap BitsType.statements ++ b.rows.map .row

theorem isWord_typeName (type : IntType) : IsWord type.name := by cases type <;> decide

theorem reads_docLines {margin description : String}
    (start : margin = "    " ∨ margin = "            ") (single : Unbroken description) :
    Reads forms (docLines margin description) [] := by
  unfold docLines
  split
  · exact .silent (by simp) (by simp)
  · refine .silent (List.forall_mem_singleton.mpr ?_) (List.forall_mem_singleton.mpr ?_)
    · rcases start with rfl | rfl <;> simp +decide [Line.text, single]
    · rcases start with rfl | rfl <;>
        simp only [Line.text, String.toList_append, String.reduceToList] <;> rfl

section

variable {c : Constant} (named : IsWord c.name)
include named

theorem Constant.unbroken_line : Unbroken c.line.text := by
  simp +decide [line, named.unbroken, (isWord_typeName _).unbroken]

theorem constantForm_line (margin : String) (make : String → String → Nat → Statement) :
    (wordsBehind (constantForm margin make).marks (c.line.indent margin).text.toList).bind
      (constantForm margin make).meaning = some (c.statement make) := by
  have parts : (c.line.indent margin).text = (margin ++ "pub const ") ++
      (c.name ++ (": " ++ (c.type.name ++ (" = " ++ (c.value.text ++ ";"))))) := by
    simp [Constant.line, String.append_assoc]
  rw [constantForm, parts, wordsBehind_cons named (by simp [isNameChar]),
    wordsBehind_cons (isWord_typeName _) (by simp [isNameChar]),
    wordsBehind_cons (isWord_literal _) (by simp [isNameChar])]
  simp [wordsBehind, c.value.literalNumber?_text fun _ => rfl, Constant.statement]

theorem reads_outer : Reads forms [c.line] [c.statement .outer] := by
  have outer := constantForm_line named "" .outer
  rw [Line.text_indent, String.empty_append] at outer
  exact .line (Constant.unbroken_line named) (said_of_some outer)

theorem reads_constant : Reads forms [c.line.indent "    "] [c.statement .constant] := by
  refine .line ?_ ?_
  · simp +decide [Constant.unbroken_line named]
  · calc said forms (c.line.indent "    ").text.toList
        = said (forms.drop 1) (c.line.indent "    ").text.toList := by
          simp only [Line.text_indent, String.toList_append, String.reduceToList]
          rfl
      _ = some (c.statement .constant) := said_of_some (constantForm_line named "    " .constant)

end

theorem Constants.reads_lines {group : Constants} (single : Unbroken group.description)
    (named : ∀ c ∈ group.constants, IsWord c.name) :
    Reads forms group.lines (group.constants.map (·.statement .constant)) := by
  have blank : Reads forms [.blank] [] := .silent (by decide) (by decide)
  exact (blank.cons (reads_docLines (.inl rfl) single)).append
    (.map fun c inside => reads_constant (named c inside))

theorem BitsValue.reads_line {v : BitsValue} (named : IsWord v.name) :
    Reads forms [v.line] [.value v.name v.value.value] := by
  have parts : v.line.text = "                " ++ (v.name ++ (" = " ++ (v.value.text ++ ","))) := by
    simp [BitsValue.line, String.append_assoc]
  refine .line ?_ ?_
  · simp +decide [parts, named.unbroken]
  · calc said forms v.line.text.toList
        = said (forms.drop 4) v.line.text.toList := by
          simp only [parts, String.toList_append, String.reduceToList]
          rfl
      _ = some (.value v.name v.value.value) := by
          rw [parts]
          exact said_of_some (Form.naming_said named (by simp [isNameChar]) (by decide)
            (by simp [isNameChar]) fun _ => rfl)

theorem reads_fieldOpening {name rest : String} (named : IsWord name) (whole : Unbroken rest) :
    Reads forms [.plain ("            " ++ (name ++ (" OFFSET(" ++ rest)))] [.field name] := by
  refine .line ?_ ?_
  · simp +decide [named.unbroken, whole]
  · rw [Line.text_plain]
    calc said forms ("            " ++ (name ++ (" OFFSET(" ++ rest))).toList
        = said (forms.drop 3) ("            " ++ (name ++ (" OFFSET(" ++ rest))).toList := by
          simp only [String.toList_append, String.reduceToList]
          rfl
      _ = some (.field name) := by
          refine said_of_some ?_
          rw [wordsBehind_cons named (by simp [isNameChar]), wordsBehind, String.toList_append,
            dropPrefix?_append]
          rfl

theorem BitsField.reads_lines {f : BitsField} (named : IsWord f.name)
    (single : Unbroken f.description) (values : ∀ v ∈ f.values, IsWord v.name) :
    Reads forms f.lines f.statements := by
  have opening : "            " ++ f.name ++ " OFFSET(" ++ decimal f.offset ++ ") NUMBITS(" ++
      decimal f.width ++ ") [" = "            " ++ (f.name ++ (" OFFSET(" ++
        (decimal f.offset ++ (") NUMBITS(" ++ (decimal f.width ++ ") ["))))) := by
    simp [String.append_assoc]
  refine (reads_docLines (.inr rfl) single).append ?_
  simp only [opening]
  split
  · rename_i none
    rw [List.isEmpty_iff.mp none, List.map_nil]
    simp only [String.append_assoc]
    exact reads_fieldOpening named (by simp +decide)
  · have ending : Reads forms [.plain "            ],"] [] := .silent (by decide) (by decide)
    refine ((reads_fieldOpening named ?_).append (.map fun v inside => ?_)).append_silent ending
    · simp +decide
    · exact BitsValue.reads_line (values v inside)

theorem reads_opening {name : String} (named : IsWord name) :
    Reads forms [.plain ("        pub " ++ name ++ " [")] [.register name] := by
  refine .line ?_ ?_
  · simp +decide [named.unbroken]
  · rw [Line.text_plain, String.append_assoc]
    calc said forms ("        pub " ++ (name ++ " [")).toList
        = said (forms.drop 2) ("        pub " ++ (name ++ " [")).toList := by
          simp only [String.toList_append, String.reduceToList]
          rfl
      _ = some (.register name) := by
          refine said_of_some ?_
          rw [wordsBehind_cons named (by simp [isNameChar])]
          rfl

theorem unbroken_offsetLine {offset : Nat} {content : String} (whole : Unbroken content) :
    Unbroken (offsetLine offset content).text := by simp +decide [offsetLine, whole]

/-- Only the forms of rows can understand a line that is opened by a bracket. -/
theorem said_offsetLine {offset : Nat} {content : String} :
    said forms (offsetLine offset content).text.toList =
      said (forms.drop 5) (offsetLine offset content).text.toList := by
  simp only [offsetLine, Line.text_plain, String.append_assoc]
  simp only [String.toList_append, String.reduceToList]
  rfl

theorem wordsBehind_offsetLine (offset : Nat) (content : String) (marks : List String) :
    wordsBehind ("            (" :: marks) (offsetLine offset content).text.toList =
      (wordsBehind marks (" => " ++ (content ++ "),")).toList).map (hexLiteral offset :: ·) := by
  have number : IsWord (hexLiteral offset) := isWord_literal (.hex offset)
  have text : (offsetLine offset content).text =
      "            (" ++ (hexLiteral offset ++ (" => " ++ (content ++ "),"))) := by
    simp [offsetLine, String.append_assoc]
  rw [text, wordsBehind_cons number (by simp [isNameChar])]

theorem rowForm_offsetLine {opening closing content name last : String} {offset : Nat}
    {make : Nat → String → Row}
    (words : wordsBehind [opening, closing] (" => " ++ (content ++ "),")).toList = some [name, last]) :
    (wordsBehind (rowForm opening closing make).marks (offsetLine offset content).text.toList).bind
      (rowForm opening closing make).meaning = some (.row (make offset name)) := by
  have number : literalNumber? true (hexLiteral offset).toList = some offset :=
    (Literal.hex offset).literalNumber?_text fun _ => rfl
  rw [rowForm, wordsBehind_offsetLine, words]
  simp [number]

/-- The content at an offset that is no register is no form of one. -/
theorem said_offsetLine_of_none {offset : Nat} {content : String}
    (other : wordsBehind [" => pub ", ": "] (" => " ++ (content ++ "),")).toList = none) :
    said forms (offsetLine offset content).text.toList =
      said (forms.drop 6) (offsetLine offset content).text.toList := by
  refine said_offsetLine.trans (said_of_none ?_)
  rw [rowForm, wordsBehind_offsetLine, other]
  rfl

theorem reads_reserved (offset index : Nat) :
    Reads forms [offsetLine offset ("_reserved" ++ decimal index)]
      [.row (.reserved offset ("_reserved" ++ decimal index))] := by
  have named : IsWord ("_reserved" ++ decimal index) := by simp +decide [isWord_decimal]
  refine .line (unbroken_offsetLine (by simp +decide)) ?_
  have words : wordsBehind [" => ", "),"] (" => " ++ ("_reserved" ++ decimal index ++ "),")).toList =
      some ["_reserved" ++ decimal index, ""] := by
    rw [wordsBehind_cons named (by simp [isNameChar])]
    rfl
  refine (said_offsetLine_of_none ?_).trans (said_of_some (rowForm_offsetLine words))
  simp only [String.toList_append, String.reduceToList]
  rfl

theorem reads_stop (offset : Nat) :
    Reads forms [offsetLine offset "@END"] [.row (.stop offset)] := by
  have words : wordsBehind [" => @END", "),"] (" => " ++ ("@END" ++ "),")).toList = some ["", ""] := by
    decide
  refine .line (unbroken_offsetLine (by decide)) ?_
  refine (said_offsetLine_of_none (by decide)).trans ((said_of_none ?_).trans
    (said_of_some (rowForm_offsetLine words)))
  rw [rowForm, wordsBehind_offsetLine]
  rfl

theorem Content.text_register (word : IntType) (name : String) (access : Access)
    (bits : Option String) :
    ∃ rest, (Content.register name access bits).text word = "pub " ++ (name ++ (": " ++ rest)) := by
  have link : ": tock_registers::registers::" = ": " ++ "tock_registers::registers::" := by rfl
  simp only [text, link, String.append_assoc]
  exact ⟨_, rfl⟩

theorem reads_register (word : IntType) (offset : Nat) {r : Register}
    (named : isIdentifier r.name = true) {bits : Option String}
    (typed : bits = none ∨ bits = some (camelCase r.name)) :
    Reads forms [offsetLine offset ((Content.register (snakeCase r.name) r.access bits).text word)]
      [.row (.register offset (snakeCase r.name))] := by
  have member := isWord_snakeCase named
  have type := (isWord_camelCase named).unbroken
  have cell : Unbroken (cellName r.access) := by cases r.access <;> decide
  have whole : Unbroken ((Content.register (snakeCase r.name) r.access bits).text word) := by
    rcases typed with rfl | rfl <;>
      simp +decide [Content.text, member.unbroken, type, cell, (isWord_typeName _).unbroken]
  obtain ⟨rest, text⟩ := Content.text_register word (snakeCase r.name) r.access bits
  obtain ⟨last, behind⟩ := wordsBehind_last ": " (rest ++ "),")
  have words : wordsBehind [" => pub ", ": "] (" => " ++ ((Content.register (snakeCase r.name) r.access
      bits).text word ++ "),")).toList = some [snakeCase r.name, last] := by
    have joined : " => " ++ ("pub " ++ (snakeCase r.name ++ (": " ++ rest)) ++ "),") =
        " => pub " ++ (snakeCase r.name ++ (": " ++ (rest ++ "),"))) := by
      rw [show " => pub " = " => " ++ "pub " by rfl]
      simp only [String.append_assoc]
    rw [text, joined, wordsBehind_cons member (by simp [isNameChar]), behind]
    rfl
  exact .line (unbroken_offsetLine whole) (said_offsetLine.trans
    (said_of_some (rowForm_offsetLine words)))

theorem reads_entries {word : Word} {base index : Nat} {slots : List Slot} {type : IntType}
    (named : ∀ r ∈ slots.filterMap Slot.register?, isIdentifier r.name = true) :
    Reads forms ((entriesOf word base index slots).map (Entry.line type))
      ((entriesOf word base index slots).map fun e => .row e.row) := by
  induction slots generalizing index with
  | nil => exact .silent nofun nofun
  | cons slot rest ih => cases slot with
    | reserved s => exact (reads_reserved (s.start - base) index).cons (ih named)
    | register r =>
      obtain ⟨own, others⟩ := List.forall_mem_cons.mp named
      exact (reads_register type (r.address - base) own (by split <;> simp)).cons (ih others)

/-- The structure of a map is opened by another bracket than the type of a register. -/
theorem silent_heading {name : String} (named : IsWord name) :
    Reads forms [.plain ("        pub " ++ name ++ " \x7b")] [] := by
  have parts : wordsBehind ["        pub ", " ["] ("        pub " ++ (name ++ " \x7b")).toList =
      none := by
    rw [wordsBehind_cons named (by simp [isNameChar])]
    rfl
  refine .silent (List.forall_mem_singleton.mpr ?_) (List.forall_mem_singleton.mpr ?_)
  · simp +decide [named.unbroken]
  · rw [Line.text_plain, String.append_assoc]
    calc said forms ("        pub " ++ (name ++ " \x7b")).toList
        = said (forms.drop 2) ("        pub " ++ (name ++ " \x7b")).toList := by
          simp only [String.toList_append, String.reduceToList]
          rfl
      _ = said (forms.drop 3) ("        pub " ++ (name ++ " \x7b")).toList := said_of_none parts
      _ = none := by
          simp only [String.toList_append, String.reduceToList]
          rfl

section

variable {m : AddressMap} (whole : m.Unbroken)
include whole

theorem isWord_constant {r : Register} (inside : r ∈ m.registers) :
    ∀ c ∈ (registerConstants (.ofAddresses m) m.word r).constants, IsWord c.name := by
  have register := (isWord_of_isIdentifier (whole.identifiers.register r inside)).asciiUpper
  refine List.forall_mem_append.mpr ⟨?_, List.forall_mem_flatMap.mpr fun f within => ?_⟩
  · simp +decide [register]
  · have field := (isWord_of_isIdentifier (whole.identifiers.field r inside f within)).asciiUpper
    simp +decide [fieldConstants, register, field]

theorem reads_constants : Reads forms ((ofMap m).constants.flatMap Constants.lines)
    ((ofMap m).constants.flatMap fun group => group.constants.map (·.statement .constant)) := by
  refine .flatMap fun group inside => ?_
  obtain ⟨r, among, rfl⟩ := List.mem_map.mp inside
  exact Constants.reads_lines (whole.register among) (isWord_constant whole among)

theorem reads_bits : Reads forms ((ofMap m).bits.flatMap BitsType.lines)
    ((ofMap m).bits.flatMap BitsType.statements) := by
  refine .flatMap fun t inside => ?_
  obtain ⟨r, among, rfl⟩ := List.mem_map.mp inside
  replace among := (List.mem_filter.mp among).1
  have ending : Reads forms [.plain "        ],"] [] := .silent (by decide) (by decide)
  refine ((reads_opening (isWord_camelCase (whole.identifiers.register r among))).cons
    (.flatMap fun g within => ?_)).append_silent ending
  obtain ⟨f, part, rfl⟩ := List.mem_map.mp within
  replace part := r.fieldsByLsb_perm.mem_iff.mp part
  refine BitsField.reads_lines (isWord_camelCase (whole.identifiers.field r among f part))
    (whole.field among part) fun w piece => ?_
  obtain ⟨v, of, rfl⟩ := List.mem_map.mp piece
  exact isWord_camelCase (whole.identifiers.value r among f part v of)

theorem reads_bitsModule :
    Reads forms (ofMap m).bitsModule ((ofMap m).bits.flatMap BitsType.statements) := by
  unfold bitsModule
  split
  · rename_i none
    rw [List.isEmpty_iff.mp none]
    exact .silent (by simp) (by simp)
  · have opening : Reads forms [.blank,
        "pub mod bits \x7b",
        "    //! Types that represent individual registers (bitfields).",
        "    use tock_registers::register_bitfields;",
        "    register_bitfields! \x7b",
        "        " ++ (ofMap m).word.name ++ ","] [] := by
      cases word : (ofMap m).word <;> exact .silent (by decide) (by decide)
    have ending : Reads forms [.plain "    \x7d", .plain "\x7d"] [] :=
      .silent (by decide) (by decide)
    exact (opening.append (reads_bits whole)).append_silent ending

theorem reads_registersModule :
    Reads forms (ofMap m).registersModule ((ofMap m).rows.map .row) := by
  unfold registersModule rows
  split
  · exact .silent (by simp) (by simp)
  · have opening : Reads forms [.blank,
        "pub mod regs \x7b",
        "    //! Types that represent registers.",
        "    use tock_registers::register_structs;",
        "    register_structs! \x7b"] [] := .silent (by decide) (by decide)
    have heading : Reads forms [.plain ("        pub " ++ (ofMap m).name ++ " \x7b")] [] :=
      silent_heading (isWord_camelCase whole.name)
    have named : ∀ r ∈ m.slots.filterMap Slot.register?, isIdentifier r.name = true := by
      rw [AddressMap.slots, register?_mergeSlots]
      exact whole.identifiers.register
    have ending : Reads forms [.plain "        \x7d", .plain "    \x7d", .plain "\x7d"] [] :=
      .silent (by decide) (by decide)
    rw [List.map_append, List.map_map]
    exact ((opening.append heading).append (reads_entries named)).append
      ((reads_stop (ofMap m).size).cons ending)

/-- The lines of bindings state their constants, and the values of their types. -/
theorem reads_lines : Reads forms (ofMap m).lines (ofMap m).statements := by
  have base : IsWord (ofMap m).base.name := by
    simp +decide [ofMap, (isWord_snakeCase whole.name).asciiUpper]
  have heading : Reads forms ["// Created with " ++ generatorName, .blank] [] :=
    .silent (by decide) (by decide)
  have blank : Reads forms [.blank] [] := .silent (by decide) (by decide)
  have opening : Reads forms ["pub mod consts \x7b",
      "    //! Register addresses and field constants."] [] := .silent (by decide) (by decide)
  have ending : Reads forms [.plain "\x7d"] [] := .silent (by decide) (by decide)
  have constants : Reads forms (ofMap m).constantsModule
      ((ofMap m).constants.flatMap fun group => group.constants.map (·.statement .constant)) :=
    (opening.append (reads_constants whole)).append_silent ending
  exact (((heading.append ((reads_outer base).append_silent blank)).append constants).append
    (reads_bitsModule whole)).append (reads_registersModule whole)

theorem readings_artifact (path : Path) :
    readings forms (artifact path m).content = (ofMap m).statements := by
  have nothing : said forms [] = none := by decide
  have content : (artifact path m).content = Line.file (ofMap m).lines := by rw [artifact]
  rw [content, (reads_lines whole).readings_file nothing]

end

def Constant.read (c : Constant) : String × String × Nat := (c.name, c.type.name, c.value.value)

/-- The values of a type by their paths. -/
def BitsType.values (t : BitsType) : List (String × Nat) :=
  t.fields.flatMap fun f =>
    f.values.map fun v => (t.name ++ "::" ++ f.name ++ "::" ++ v.name, v.value.value)

/-- No statement about a type or about what is at an offset declares a constant. -/
theorem constantless {b : Bindings} {s : Statement}
    (inside : s ∈ b.bits.flatMap BitsType.statements ++ b.rows.map .row) :
    s.outer? = none ∧ s.constant? = none := by
  rcases List.mem_append.mp inside with inside | inside
  · obtain ⟨t, _, among⟩ := List.mem_flatMap.mp inside
    rcases List.mem_cons.mp among with rfl | among
    · exact ⟨rfl, rfl⟩
    · obtain ⟨f, _, part⟩ := List.mem_flatMap.mp among
      rcases List.mem_cons.mp part with rfl | part
      · exact ⟨rfl, rfl⟩
      · obtain ⟨v, _, rfl⟩ := List.mem_map.mp part
        exact ⟨rfl, rfl⟩
  · obtain ⟨row, _, rfl⟩ := List.mem_map.mp inside
    exact ⟨rfl, rfl⟩

/-- No statement but those about offsets is a row. -/
theorem filterMap_row?_statements (b : Bindings) :
    b.statements.filterMap Statement.row? = b.rows := by
  have constants : (b.constants.flatMap fun group =>
      group.constants.map (·.statement .constant)).filterMap Statement.row? = [] := by
    refine List.filterMap_eq_nil_iff.mpr (List.forall_mem_flatMap.mpr fun group _ => ?_)
    exact List.forall_mem_map.mpr fun c _ => rfl
  have types : (b.bits.flatMap BitsType.statements).filterMap Statement.row? = [] := by
    refine List.filterMap_eq_nil_iff.mpr (List.forall_mem_flatMap.mpr fun t _ => ?_)
    refine List.forall_mem_cons.mpr ⟨rfl, List.forall_mem_flatMap.mpr fun f _ => ?_⟩
    exact List.forall_mem_cons.mpr ⟨rfl, List.forall_mem_map.mpr fun v _ => rfl⟩
  have own : (b.rows.map Statement.row).filterMap Statement.row? = b.rows := by
    rw [List.filterMap_map]
    exact List.filterMap_some ..
  rw [statements, List.filterMap_append, List.filterMap_append, own, types,
    List.filterMap_cons_none rfl, constants]
  rfl

theorem valuesUnder_values (register field : String) (values : List BitsValue)
    (rest : List Statement) :
    valuesUnder register field
        ((values.map fun v => Statement.value v.name v.value.value) ++ rest) =
      (values.map fun v => (register ++ "::" ++ field ++ "::" ++ v.name, v.value.value)) ++
        valuesUnder register field rest := by
  induction values with
  | nil => rfl
  | cons v others ih =>
    rw [List.map_cons, List.cons_append, valuesUnder, ih, List.map_cons, List.cons_append]

/-- What comes behind the fields of a type must not depend on the last of them. -/
theorem valuesUnder_fields (register : String) (fields : List BitsField) {rest : List Statement}
    {others : List (String × Nat)} (after : ∀ field, valuesUnder register field rest = others)
    (field : String) :
    valuesUnder register field (fields.flatMap BitsField.statements ++ rest) =
      (fields.flatMap fun f =>
        f.values.map fun v => (register ++ "::" ++ f.name ++ "::" ++ v.name, v.value.value)) ++
          others := by
  induction fields generalizing field with
  | nil => exact after field
  | cons f fields ih =>
    rw [List.flatMap_cons, List.append_assoc, BitsField.statements, List.cons_append, valuesUnder,
      valuesUnder_values, ih, List.flatMap_cons, List.append_assoc]

theorem valuesUnder_rows (rows : List Row) (register field : String) :
    valuesUnder register field (rows.map .row) = [] := by
  induction rows with
  | nil => rfl
  | cons row rest ih => exact ih

theorem valuesUnder_types (types : List BitsType) (rows : List Row) (register field : String) :
    valuesUnder register field (types.flatMap BitsType.statements ++ rows.map .row) =
      types.flatMap BitsType.values := by
  induction types generalizing register field with
  | nil => exact valuesUnder_rows rows register field
  | cons t types ih =>
    rw [List.flatMap_cons, BitsType.statements, List.append_assoc, List.cons_append, valuesUnder,
      valuesUnder_fields t.name t.fields (ih t.name), List.flatMap_cons]
    rfl

theorem valuesUnder_constants (constants : List Constant) (register field : String)
    (rest : List Statement) :
    valuesUnder register field ((constants.map (·.statement .constant)) ++ rest) =
      valuesUnder register field rest := by
  induction constants with
  | nil => rfl
  | cons c others ih => exact ih

section

variable {m : AddressMap} (whole : m.Unbroken) (path : Path)
include whole

theorem outerIn_artifact : outerIn (artifact path m).content = [(ofMap m).base.read] := by
  have later : ((ofMap m).bits.flatMap BitsType.statements ++
      (ofMap m).rows.map Statement.row).filterMap
      Statement.outer? = [] := List.filterMap_eq_nil_iff.mpr fun s inside => (constantless inside).1
  rw [outerIn, readings_artifact whole, statements, List.append_assoc, List.filterMap_append, later,
    List.filterMap_cons, List.filterMap_flatMap]
  simp [Constant.statement, Statement.outer?, Constant.read]

theorem constantsIn_artifact : constantsIn (artifact path m).content =
    ((ofMap m).constants.flatMap Constants.constants).map Constant.read := by
  have later : ((ofMap m).bits.flatMap BitsType.statements ++
      (ofMap m).rows.map Statement.row).filterMap
      Statement.constant? = [] := List.filterMap_eq_nil_iff.mpr fun s inside => (constantless inside).2
  rw [constantsIn, readings_artifact whole, statements, List.append_assoc, List.filterMap_append, later,
    List.filterMap_cons, List.filterMap_flatMap, List.map_flatMap, List.append_nil]
  refine List.flatMap_congr fun group _ => ?_
  rw [List.filterMap_map]
  exact congrFun List.filterMap_eq_map _

theorem valuesIn_artifact : valuesIn (artifact path m).content =
    (ofMap m).bits.flatMap BitsType.values := by
  rw [valuesIn, readings_artifact whole, statements, List.append_assoc, List.cons_append,
    ← List.map_flatMap]
  exact (valuesUnder_constants ..).trans (valuesUnder_types ..)

theorem rowsIn_artifact : rowsIn (artifact path m).content = (ofMap m).rows := by
  rw [rowsIn, readings_artifact whole, filterMap_row?_statements]

end

end RegisterMap.Bindings
