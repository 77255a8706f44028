import RegisterMap.Manual.Text
import RegisterMap.Proofs.Descriptions

namespace RegisterMap.Manual

/-- The pieces of a line between bars. A bar right behind a backslash belongs to its piece; `escaped`
says that a backslash stands in front. -/
def pieces (escaped : Bool) : List Char → List (List Char)
  | [] => [[]]
  | c :: rest =>
    if c = '|' ∧ escaped = false then [] :: pieces false rest
    else (pieces (c == '\\') rest).modifyHead (c :: ·)

/-- The cells of a row, which are between its outer bars. -/
def cellsOf (row : List Char) : List (List Char) := (pieces false row).tail.dropLast

/-- A text without the backslash in front of each escaped bar. -/
def unescaped : List Char → List Char
  | '\\' :: '|' :: rest => '|' :: unescaped rest
  | c :: rest => c :: unescaped rest
  | [] => []

/-- What the cells of a row say. On either side of a cell stands a blank. -/
def reading (row : List Char) : List String :=
  (cellsOf row).map fun c => String.ofList (unescaped c.tail.dropLast)

/-- Escaped bars are found again, also those that had a backslash in front of their own: no bar
stands there without the one that escapes it. -/
theorem unescaped_cell (text : String) : unescaped (cell text).toList = text.toList := by
  rw [cell, String.toList_ofList]
  induction text.toList with
  | nil => rfl
  | cons c rest ih =>
    have behind : ∀ more, rest.flatMap (fun c => if c = '|' then ['\\', '|'] else [c]) ≠ '|' :: more := by
      cases rest with
      | nil => simp
      | cons d others =>
        intro more
        rw [List.flatMap_cons]
        split
        · simp
        · rename_i other
          exact fun same => other (List.cons.inj same).1
    rw [List.flatMap_cons]
    split
    · rename_i bar
      rw [List.cons_append, List.cons_append, List.nil_append, unescaped, ih, bar]
    · rw [List.cons_append, List.nil_append, unescaped, ih]
      exact fun more _ same => behind more same

theorem unescaped_of_not_mem {text : List Char} (solid : '|' ∉ text) : unescaped text = text := by
  induction text with
  | nil => rfl
  | cons c rest ih =>
    rw [unescaped, ih (fun inside => solid (List.mem_cons_of_mem _ inside))]
    rintro more - rfl
    exact solid (by simp)

theorem unbroken_cell {text : String} (single : Unbroken text) : Unbroken (cell text) := by
  refine unbroken_flatMap fun c inside => ?_
  split
  · simp
  · exact List.forall_mem_singleton.mpr (single c inside)

/-- A text that has no bar but behind backslashes, behind a character that may be one. -/
def Whole (escaped : Bool) (text : List Char) : Prop := pieces escaped text = [text]

theorem whole_cons {escaped : Bool} {c : Char} {rest : List Char} :
    Whole escaped (c :: rest) ↔ ¬ (c = '|' ∧ escaped = false) ∧ Whole (c == '\\') rest := by
  unfold Whole
  rw [pieces]
  split
  · rename_i bar
    simp [bar]
  · rename_i other
    rw [and_iff_right other]
    cases pieces (c == '\\') rest <;> simp

/-- A text ends where a bar stands behind it, if a blank keeps them apart. -/
theorem Whole.pieces_append {escaped : Bool} {text : List Char} (whole : Whole escaped text)
    (rest : List Char) :
    pieces escaped (text ++ ' ' :: '|' :: rest) = (text ++ [' ']) :: pieces false rest := by
  induction text generalizing escaped with
  | nil => rfl
  | cons c text ih =>
    obtain ⟨other, later⟩ := whole_cons.mp whole
    rw [List.cons_append, pieces, if_neg other, ih later]
    rfl

theorem whole_of_not_mem {escaped : Bool} {text : List Char} (solid : '|' ∉ text) :
    Whole escaped text := by
  induction text generalizing escaped with
  | nil => rfl
  | cons c rest ih =>
    obtain ⟨own, others⟩ := not_or.mp (List.mem_cons.not.mp solid)
    exact whole_cons.mpr ⟨fun bar => own bar.1.symm, ih others⟩

theorem whole_cell (escaped : Bool) (text : String) : Whole escaped (cell text).toList := by
  rw [cell, String.toList_ofList]
  induction text.toList generalizing escaped with
  | nil => rfl
  | cons c rest ih =>
    rw [List.flatMap_cons]
    split
    · exact whole_cons.mpr ⟨by simp, whole_cons.mpr ⟨by simp, ih _⟩⟩
    · rename_i other
      exact whole_cons.mpr ⟨fun bar => other bar.1, ih _⟩

/-- A row of texts between bars. -/
def rowText (texts : List String) : String := "| " ++ " | ".intercalate texts ++ " |"

theorem toList_rowText {texts : List String} (some : texts ≠ []) :
    (rowText texts).toList = '|' :: texts.flatMap fun t => ' ' :: t.toList ++ [' ', '|'] := by
  have joined : ' ' :: (" | ".intercalate texts).toList ++ [' ', '|'] =
      texts.flatMap fun t => ' ' :: t.toList ++ [' ', '|'] := by
    induction texts with
    | nil => exact absurd rfl some
    | cons t rest ih =>
      cases rest with
      | nil => simp
      | cons u more =>
        rw [List.flatMap_cons, ← ih (List.cons_ne_nil u more), String.intercalate_cons_cons]
        simp [String.toList_append]
  rw [rowText, String.toList_append, String.toList_append, ← joined]
  rfl

theorem unbroken_rowText {texts : List String} (each : ∀ t ∈ texts, Unbroken t) :
    Unbroken (rowText texts) := by
  have between : Unbroken " | " := by decide
  rw [rowText, unbroken_append, unbroken_append]
  exact ⟨⟨by decide, forall_mem_intercalate between each⟩, by decide⟩

/-- The cells of a row are the texts that it was made of. -/
theorem cellsOf_rowText {texts : List String} (some : texts ≠ [])
    (whole : ∀ t ∈ texts, Whole false t.toList) :
    cellsOf (rowText texts).toList = texts.map fun t => ' ' :: t.toList ++ [' '] := by
  have parts : pieces false (texts.flatMap fun t => ' ' :: t.toList ++ [' ', '|']) =
      texts.map (fun t => ' ' :: t.toList ++ [' ']) ++ [[]] := by
    clear some
    induction texts with
    | nil => rfl
    | cons t rest ih =>
      obtain ⟨own, others⟩ := List.forall_mem_cons.mp whole
      have blank : Whole false (' ' :: t.toList) := whole_cons.mpr ⟨by decide, own⟩
      have first := blank.pieces_append (rest.flatMap fun t => ' ' :: t.toList ++ [' ', '|'])
      rw [ih others] at first
      rw [List.flatMap_cons, List.append_assoc]
      exact first
  rw [cellsOf, toList_rowText some, pieces, if_pos ⟨rfl, rfl⟩, parts]
  simp

theorem reading_rowText {texts : List String} (some : texts ≠ [])
    (whole : ∀ t ∈ texts, Whole false t.toList) :
    reading (rowText texts).toList = texts.map fun t => String.ofList (unescaped t.toList) := by
  rw [reading, cellsOf_rowText some whole, List.map_map]
  simp

/-- A text that neither parts a cell nor ends a line. -/
def Solid (text : String) : Prop := ∀ c ∈ text.toList, c ≠ '|' ∧ c ≠ '\n' ∧ c ≠ '\r'

theorem solid_iff {text : String} :
    Solid text ↔ text.toList.all (fun c => c != '|' && (c != '\n' && c != '\r')) = true := by
  simp [Solid]

instance {text : String} : Decidable (Solid text) := decidable_of_iff _ solid_iff.symm

theorem solid_ofList {letters : List Char}
    (each : letters.all (fun c => c != '|' && (c != '\n' && c != '\r')) = true) :
    Solid (String.ofList letters) := by
  rwa [solid_iff, String.toList_ofList]

section

variable {first second : String}

@[simp] theorem solid_append : Solid (first ++ second) ↔ Solid first ∧ Solid second := by
  rw [Solid, String.toList_append, List.forall_mem_append]
  rfl

theorem Solid.unbroken (solid : Solid first) : Unbroken first := fun c inside => (solid c inside).2

theorem Solid.bar_not_mem (solid : Solid first) : '|' ∉ first.toList := fun inside =>
  (solid _ inside).1 rfl

theorem Solid.whole (solid : Solid first) : Whole false first.toList :=
  whole_of_not_mem solid.bar_not_mem

theorem Solid.unescaped_eq (solid : Solid first) : String.ofList (unescaped first.toList) = first := by
  rw [unescaped_of_not_mem solid.bar_not_mem, String.ofList_toList]

theorem Solid.of_isWord (word : IsWord first) : Solid first := by
  intro c inside
  have named := word c inside
  refine ⟨?_, ?_, ?_⟩ <;> (rintro rfl; cases named)

end

/-- What a note says. -/
def Note.text : Note → String
  | words text | description text => text

/-- How a note stands in a cell. -/
def Note.written : Note → String
  | words text => text
  | description text => cell text

theorem Row.line_text {row : Row} (some : row.cells ≠ []) :
    row.line.text = rowText (row.cells ++ [row.note.written]) := by
  rw [rowText, String.intercalate_append_of_ne_nil some (List.cons_ne_nil _ []),
    String.intercalate_singleton]
  unfold Row.line
  cases row.note with
  | words text => simp [Note.written, String.append_assoc]
  | description text => simp [Note.written, Line.text, String.append_assoc]

/-- A note that is a line of its own, without bars unless it is a description. -/
def Note.Single : Note → Prop
  | words text => Solid text
  | description text => Unbroken text

instance {note : Note} : Decidable note.Single :=
  match note with
  | .words text => inferInstanceAs (Decidable (Solid text))
  | .description text => inferInstanceAs (Decidable (Unbroken text))

namespace Note.Single

variable {note : Note} (single : note.Single)
include single

theorem whole : Whole false note.written.toList := by
  cases note with
  | words text => exact Solid.whole single
  | description text => exact whole_cell false text

theorem unescaped_eq : String.ofList (unescaped note.written.toList) = note.text := by
  cases note with
  | words text => exact Solid.unescaped_eq single
  | description text => exact (congrArg _ (unescaped_cell text)).trans String.ofList_toList

theorem unbroken : Unbroken note.written := by
  cases note with
  | words text => exact Solid.unbroken single
  | description text => exact unbroken_cell single

end Note.Single

/-- A row of a table with so many columns. Its last cell may be a description, which is a line of
any characters; all else in it parts no cell. -/
structure Row.Fits (columns : Nat) (row : Row) : Prop where
  count : row.cells.length + 1 = columns
  solid : ∀ cell ∈ row.cells, Solid cell
  note : row.note.Single

namespace Row.Fits

variable {columns : Nat} {row : Row} (fits : row.Fits columns)
include fits

theorem whole : ∀ t ∈ row.cells ++ [row.note.written], Whole false t.toList :=
  List.forall_mem_append.mpr ⟨fun t inside => (fits.solid t inside).whole,
    List.forall_mem_singleton.mpr fits.note.whole⟩

variable (more : 1 < columns)
include more

theorem nonempty : row.cells ≠ [] := by
  intro none
  have count := fits.count
  rw [none, List.length_nil] at count
  omega

theorem unbroken : Unbroken row.line.text := by
  rw [line_text (fits.nonempty more)]
  exact unbroken_rowText (List.forall_mem_append.mpr
    ⟨fun t inside => (fits.solid t inside).unbroken,
      List.forall_mem_singleton.mpr fits.note.unbroken⟩)

theorem length_cellsOf : (cellsOf row.line.text.toList).length = columns := by
  rw [line_text (fits.nonempty more), cellsOf_rowText (by simp) fits.whole, ← fits.count]
  simp

/-- However a row stands in its file, it is read as it was given. -/
theorem reading_line : reading row.line.text.toList = row.cells ++ [row.note.text] := by
  rw [line_text (fits.nonempty more), reading_rowText (by simp) fits.whole,
    List.map_append, List.map_singleton, fits.note.unescaped_eq]
  congr 1
  exact (List.map_congr_left fun t inside => (fits.solid t inside).unescaped_eq).trans
    (List.map_id _)

end Row.Fits

/-- A table of several columns, all of whose rows fit. -/
structure Fitting (columns : List String) (rows : List Row) : Prop where
  several : 1 < columns.length
  solid : ∀ c ∈ columns, Solid c
  rows : ∀ row ∈ rows, row.Fits columns.length

/-- What the lines of a file show of a table: below a header and a line that sets it apart, all with
as many cells, rows that are read as they were given. -/
structure Shown (columns : List String) (rows : List Row) (content : String) (header rule : List Char)
    (body : List (List Char)) : Prop where
  stand : header :: rule :: body <:+: textLines content
  shape : ∀ line ∈ rule :: body, (cellsOf line).length = (cellsOf header).length
  header : reading header = columns
  body : body.map reading = rows.map fun row => row.cells ++ [row.note.text]

theorem toList_text_tableLines (columns : List String) (rows : List Row) :
    (tableLines columns rows).map (fun l => l.text.toList) =
      (rowText columns).toList :: (rowText (columns.map fun _ => ":---")).toList ::
        rows.map fun row => row.line.text.toList := by
  simp [tableLines, rowText, Function.comp_def]

/-- Every block of a manual stands in it in one piece. -/
theorem lines_of_mem_blocks {options : Options} {m : AddressMap} {block : Block}
    (inside : block ∈ blocks options m) : block.lines <:+: lines options m := by
  have own := ((List.singleton_infix_iff ..).mpr inside).flatMap fun block => block.lines ++ [.blank]
  rw [List.flatMap_singleton] at own
  exact ((List.prefix_append ..).isInfix.trans own).trans (List.prefix_append ..).isInfix

namespace Fitting

variable {columns : List String} {rows : List Row} (fitting : Fitting columns rows)
include fitting

theorem unbroken : ∀ l ∈ tableLines columns rows, Unbroken l.text := by
  have solid : Solid ":---" := by decide
  refine List.forall_mem_cons.mpr ⟨?_, List.forall_mem_cons.mpr ⟨?_, ?_⟩⟩
  · rw [Line.text_plain]
    exact unbroken_rowText fun t inside => (fitting.solid t inside).unbroken
  · rw [Line.text_plain]
    exact unbroken_rowText (List.forall_mem_map.mpr fun _ _ => solid.unbroken)
  · exact List.forall_mem_map.mpr fun row inside =>
      (fitting.rows row inside).unbroken fitting.several

theorem length_cellsOf {texts : List String} (count : texts.length = columns.length)
    (solid : ∀ t ∈ texts, Solid t) : (cellsOf (rowText texts).toList).length = columns.length := by
  have some : texts ≠ [] := by
    rintro rfl
    have several := fitting.several
    rw [← count] at several
    exact absurd several (by decide)
  rw [cellsOf_rowText some fun t inside => (solid t inside).whole, List.length_map, count]

theorem ne_nil : columns ≠ [] :=
  List.ne_nil_of_length_pos (Nat.lt_trans Nat.zero_lt_one fitting.several)

theorem reading_header : reading (rowText columns).toList = columns := by
  rw [reading_rowText fitting.ne_nil fun t among => (fitting.solid t among).whole]
  exact (List.map_congr_left fun t among => (fitting.solid t among).unescaped_eq).trans
    (List.map_id _)

theorem map_reading_body : (rows.map fun row => row.line.text.toList).map reading =
    rows.map fun row => row.cells ++ [row.note.text] := by
  rw [List.map_map]
  exact List.map_congr_left fun row among => (fitting.rows row among).reading_line fitting.several

theorem shown {options : Options} {m : AddressMap} (inside : .table columns rows ∈ blocks options m)
    (path : Path) :
    ∃ header rule body, Shown columns rows (artifact path options m).content header rule body := by
  have header := fitting.length_cellsOf rfl fitting.solid
  refine ⟨(rowText columns).toList, (rowText (columns.map fun _ => ":---")).toList,
    rows.map fun row => row.line.text.toList, ?_, ?_, fitting.reading_header,
    fitting.map_reading_body⟩
  · rw [← toList_text_tableLines]
    exact Line.infix_textLines (lines_of_mem_blocks inside) fitting.unbroken
  · rw [header]
    refine List.forall_mem_cons.mpr ⟨?_, List.forall_mem_map.mpr fun row among => ?_⟩
    · exact fitting.length_cellsOf (List.length_map _) (List.forall_mem_map.mpr fun _ _ => by decide)
    · exact (fitting.rows row among).length_cellsOf fitting.several

end Fitting

theorem solid_wordHex (word : Word) (n : Nat) : Solid (wordHex word n) :=
  .of_isWord (isWord_hexPadded _ n)

theorem solid_bitRange (msb lsb : Nat) : Solid (bitRange msb lsb) := by
  unfold bitRange
  split
  · exact .of_isWord (isWord_decimal lsb)
  · simp only [solid_append]
    exact ⟨⟨.of_isWord (isWord_decimal msb), by decide⟩, .of_isWord (isWord_decimal lsb)⟩

theorem solid_short (access : Access) : Solid access.short := by
  cases access <;> decide

theorem solid_modifier (modifier : Modifier) : Solid modifier.name := by
  cases modifier <;> decide

theorem solid_fieldMode (f : Field) : Solid (fieldMode f) := by
  have names : ∀ name ∈ f.modifiers.map Modifier.name, Solid name :=
    List.forall_mem_map.mpr fun modifier _ => solid_modifier modifier
  have between : Solid ", " := by decide
  unfold fieldMode
  split
  · exact solid_short f.access
  · simp only [solid_append]
    exact ⟨⟨⟨solid_short f.access, by decide⟩, forall_mem_intercalate between names⟩, by decide⟩

theorem solid_hexLiteral (n : Nat) : Solid (hexLiteral n) := .of_isWord (isWord_literal (.hex n))

theorem field_mem_bitRuns {word : Word} {r : Register} {f : Field} :
    .field f ∈ r.bitRuns word ↔ f ∈ r.fields := by
  rw [← r.fieldsByLsb_perm.mem_iff]
  constructor
  · exact BitRun.mem_of_field_mem_cover
  · intro inside
    rw [← BitRun.filterMap_field?_cover word 0 r.fieldsByLsb] at inside
    obtain ⟨run, among, own⟩ := List.mem_filterMap.mp inside
    cases run with
    | field g => exact Option.some.inj own ▸ among
    | padding => cases own

/-- A block that is no table, or a fitting one. -/
def Block.Tabular : Block → Prop
  | table columns rows => Fitting columns rows
  | _ => True

theorem tabular_conventionBlocks : ∀ block ∈ conventionBlocks, block.Tabular := by
  refine List.forall_mem_cons.mpr ⟨trivial, List.forall_mem_cons.mpr ⟨⟨by decide, by decide, ?_⟩,
    List.forall_mem_singleton.mpr ⟨by decide, by decide, ?_⟩⟩⟩
  · refine List.forall_mem_map.mpr fun access _ =>
      ⟨rfl, List.forall_mem_singleton.mpr (solid_short access), ?_⟩
    cases access <;> exact solid_ofList (by decide)
  · refine List.forall_mem_map.mpr fun modifier _ =>
      ⟨rfl, List.forall_mem_singleton.mpr (solid_modifier modifier), ?_⟩
    cases modifier <;> exact solid_ofList (by decide)

section

variable {m : AddressMap} (whole : m.Unbroken) {r : Register} (inside : r ∈ m.registers)
include whole inside

theorem fits_bitRows (top : Nat) {runs : List BitRun} (fields : ∀ f, .field f ∈ runs → f ∈ r.fields) :
    ∀ row ∈ bitRows top runs, row.Fits 5 := by
  induction runs generalizing top with
  | nil => exact List.forall_mem_nil _
  | cons run rest ih =>
    have later (top : Nat) := ih top fun f among => fields f (List.mem_cons_of_mem _ among)
    cases run with
    | field f =>
      have within := fields f (List.mem_cons_self ..)
      refine List.forall_mem_cons.mpr ⟨⟨rfl, ?_, whole.field inside within⟩, later _⟩
      have name := Solid.of_isWord (isWord_of_isIdentifier (whole.identifiers.field r inside f within))
      simp [name, solid_bitRange, solid_fieldMode, solid_hexLiteral]
    | padding width =>
      have dash : Solid "-" := by decide
      have zero : Solid "0x0" := by decide
      have note : (Note.words "Reserved").Single := by decide
      refine List.forall_mem_cons.mpr ⟨⟨rfl, ?_, note⟩, later _⟩
      simp [solid_bitRange, dash, zero]

theorem tabular_valueBlocks {f : Field} (within : f ∈ r.fields) :
    ∀ block ∈ valueBlocks r.name f, block.Tabular := by
  unfold valueBlocks
  split
  · exact List.forall_mem_nil _
  · refine List.forall_mem_cons.mpr ⟨trivial, List.forall_mem_singleton.mpr
      ⟨by decide, by decide, List.forall_mem_map.mpr fun v part => ⟨rfl, ?_, ?_⟩⟩⟩
    · have name := Solid.of_isWord
        (isWord_of_isIdentifier (whole.identifiers.value r inside f within v part))
      simp [name, solid_hexLiteral]
    · exact whole.value inside within part

theorem tabular_registerBlocks (images : Bool) :
    ∀ block ∈ registerBlocks images m.word r, block.Tabular := by
  have runs : ∀ f, .field f ∈ (r.bitRuns m.word).reverse → f ∈ r.fields := fun f among =>
    field_mem_bitRuns.mp (List.mem_reverse.mp among)
  have bits : Fitting ["Name", "Bits", "Mode", "Reset", "Description"]
      (bitRows m.word.bits (r.bitRuns m.word).reverse) :=
    ⟨by decide, by decide, fits_bitRows whole inside _ runs⟩
  intro block among
  simp only [registerBlocks, List.mem_append, List.mem_cons, List.not_mem_nil, or_false,
    List.mem_flatMap] at among
  rcases among with ((((rfl | description) | rfl | rfl | rfl) | diagram) | rfl) | ⟨f, within, part⟩
  · trivial
  · split at description
    · cases description
    · rw [List.mem_singleton.mp description]
      trivial
  · trivial
  · trivial
  · trivial
  · split at diagram
    · rw [List.mem_singleton.mp diagram]
      trivial
    · cases diagram
  · exact bits
  · exact tabular_valueBlocks whole inside within block part

theorem fits_summaryRow : (summaryRow m.word r).Fits 3 where
  count := rfl
  solid := by
    have word := isWord_of_isIdentifier (whole.identifiers.register r inside)
    have name := Solid.of_isWord word
    have anchor := Solid.of_isWord word.asciiLower
    have marks : Solid "[" ∧ Solid "](#" ∧ Solid ")" := by decide
    simp [summaryRow, name, anchor, marks, solid_wordHex]
  note := whole.register inside

end

/-- All tables of a manual fit, whatever the manual shows. -/
theorem tabular_blocks {m : AddressMap} (whole : m.Unbroken) (options : Options) :
    ∀ block ∈ blocks options m, block.Tabular := by
  have summary : Fitting ["Name", "Address", "Description"] (m.registers.map (summaryRow m.word)) :=
    ⟨by decide, by decide, List.forall_mem_map.mpr fun r inside => fits_summaryRow whole inside⟩
  intro block among
  simp only [blocks, List.mem_append, List.mem_cons, List.not_mem_nil, or_false,
    List.mem_flatMap] at among
  rcases among with (((rfl | rfl) | conventions) | rfl | rfl | rfl) | ⟨r, inside, part⟩
  · trivial
  · trivial
  · split at conventions
    · exact tabular_conventionBlocks block conventions
    · cases conventions
  · trivial
  · trivial
  · exact summary
  · exact tabular_registerBlocks whole inside options.images block part

section

variable {options : Options} {m : AddressMap}

theorem summary_mem_blocks :
    .table ["Name", "Address", "Description"] (m.registers.map (summaryRow m.word)) ∈
      blocks options m := by
  simp [blocks]

theorem exists_bitRow {f : Field} (top : Nat) {runs : List BitRun} (inside : .field f ∈ runs) :
    ∃ row ∈ bitRows top runs, row.note = .description f.description := by
  induction runs generalizing top with
  | nil => cases inside
  | cons run rest ih =>
    rcases List.mem_cons.mp inside with rfl | later
    · exact ⟨_, List.mem_cons_self .., rfl⟩
    · cases run <;>
      · obtain ⟨row, among, note⟩ := ih _ later
        exact ⟨row, List.mem_cons_of_mem _ among, note⟩

section

variable {r : Register} (inside : r ∈ m.registers)
include inside

theorem mem_blocks_of_register {block : Block} (part : block ∈ registerBlocks options.images m.word r) :
    block ∈ blocks options m :=
  List.mem_append_right _ (List.mem_flatMap.mpr ⟨r, inside, part⟩)

theorem bits_mem_blocks :
    .table ["Name", "Bits", "Mode", "Reset", "Description"]
      (bitRows m.word.bits (r.bitRuns m.word).reverse) ∈ blocks options m :=
  mem_blocks_of_register inside (by simp [registerBlocks])

theorem values_mem_blocks {f : Field} (within : f ∈ r.fields) (some : f.values ≠ []) :
    .table ["Name", "Value", "Description"]
      (f.values.map fun v => ⟨[v.name, hexLiteral v.value], .description v.description⟩) ∈
      blocks options m := by
  refine mem_blocks_of_register inside (List.mem_append_right _ (List.mem_flatMap.mpr ⟨f, within, ?_⟩))
  simp [valueBlocks, some]

end

/-- Every description of a map ends a row of some table. -/
theorem exists_row_of_mem_descriptions {text : String} (among : text ∈ m.descriptions) :
    ∃ columns rows, .table columns rows ∈ blocks options m ∧
      ∃ row ∈ rows, row.note = .description text := by
  obtain ⟨r, inside, among⟩ := AddressMap.mem_descriptions.mp among
  rcases among with rfl | ⟨f, within, rfl | ⟨v, part, rfl⟩⟩
  · exact ⟨_, _, summary_mem_blocks, _, List.mem_map_of_mem inside, rfl⟩
  · exact ⟨_, _, bits_mem_blocks inside,
      exists_bitRow _ (List.mem_reverse.mpr (field_mem_bitRuns.mpr within))⟩
  · exact ⟨_, _, values_mem_blocks inside within (List.ne_nil_of_mem part),
      ⟨_, .description v.description⟩, List.mem_map.mpr ⟨v, part, rfl⟩, rfl⟩

end

/-- The tables of a manual keep their shape whatever the descriptions are, and the descriptions, which
are all there, can be told from them. -/
theorem compile_tables {config : Config} {d : Description} {m : AddressMap}
    (compiled : compile config d = .ok m) (path : Path) (options : Options) :
    (∀ columns rows, .table columns rows ∈ blocks options m → ∃ header rule body,
      Shown columns rows (artifact path options m).content header rule body) ∧
    ∀ text ∈ m.descriptions, ∃ columns rows, .table columns rows ∈ blocks options m ∧
      ∃ row ∈ rows, row.note = .description text := by
  have whole := compile_unbroken compiled
  refine ⟨fun columns rows inside => ?_, fun text among => exists_row_of_mem_descriptions among⟩
  have fitting : Fitting columns rows := tabular_blocks whole options _ inside
  exact fitting.shown inside path

/-- Descriptions with bars and backslashes at either end and side by side. -/
def barred : Description where
  name := "barred"
  registers :=
    [{ name := "CTRL", address := 0, description := "| a \\| b \\",
       fields :=
        [{ name := "EN", description := "|",
           values := [{ name := "ON", value := 1, description := "\\|\\" }] }] }]

theorem barred_tables :
    compile {} barred = .ok (barred.mapOf {} .w32) ∧
      .table ["Name", "Address", "Description"]
          [⟨["[CTRL](#ctrl)", "0x00000000"], .description "| a \\| b \\"⟩] ∈
        blocks {} (barred.mapOf {} .w32) ∧
      (∃ header rule body, Shown ["Name", "Address", "Description"]
        [⟨["[CTRL](#ctrl)", "0x00000000"], .description "| a \\| b \\"⟩]
        (artifact ⟨"regs.md"⟩ {} (barred.mapOf {} .w32)).content header rule body) ∧
      "\\|\\" ∈ (barred.mapOf {} .w32).descriptions := by
  have compiled : compile {} barred = .ok (barred.mapOf {} .w32) :=
    compile_eq_ok_iff.mpr ⟨.w32, by decide +kernel, rfl⟩
  have rows : (barred.mapOf {} .w32).registers.map (summaryRow .w32) =
      [⟨["[CTRL](#ctrl)", "0x00000000"], .description "| a \\| b \\"⟩] := by decide +kernel
  have printed := rows ▸ @summary_mem_blocks {} (barred.mapOf {} .w32)
  exact ⟨compiled, printed, (compile_tables compiled ⟨"regs.md"⟩ {}).1 _ _ printed, by decide +kernel⟩

end RegisterMap.Manual
