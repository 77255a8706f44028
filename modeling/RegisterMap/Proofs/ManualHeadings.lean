import RegisterMap.Proofs.LineReading
import RegisterMap.Proofs.LowerCase
import RegisterMap.Proofs.ManualSections

namespace RegisterMap.Manual

/-- The text of a line that is marked as a title or a chapter. The marks stand in front of any piece
of a description, so a description that looks like a heading is none. -/
def heading? (l : Line) : Option String :=
  ["# ", "## "].findSome? fun mark =>
    (l.before.toList.dropPrefix? mark.toList).map fun text => String.ofList text ++ l.slot ++ l.after

/-- The headings that lines have by themselves, in turn. -/
def headings (lines : List Line) : List String := lines.filterMap heading?

/-- A row that begins with a link: what the link says, and the name of the heading it leads to. -/
def link? (l : Line) : Option (String × String) :=
  match wordsBehind ["| [", "](#", ") | "] l.before.toList with
  | some [text, target, _] => some (text, target)
  | _ => none

def links (lines : List Line) : List (String × String) := lines.filterMap link?

def hyphenate (c : Char) : Char := if c = ' ' then '-' else c

/-- What a link names a heading by: its text in small letters, with hyphens for blanks. -/
def anchor (heading : String) : String := (asciiLower heading).map hyphenate

/-- Headings of a manual differ by more than the case of letters, and the one link of a register in the
summary names one heading alone, that of its section. -/
structure Unambiguous (options : Options) (m : AddressMap) : Prop where
  differ : ((headings (lines options m)).map asciiLower).Nodup
  links : ∀ r ∈ m.registers, ∃ target,
    (links (lines options m)).filter (·.1 == r.name) = [(r.name, target)] ∧
      (headings (lines options m)).filter (anchor · == target) = [r.name]

/-- What lines show of headings and of links. -/
structure Shows (lines : List Line) (titles : List String) (targets : List (String × String)) :
    Prop where
  headings : headings lines = titles
  links : links lines = targets

namespace Shows

theorem append {first second : List Line} {a b : List String} {c d : List (String × String)}
    (left : Shows first a c) (right : Shows second b d) :
    Shows (first ++ second) (a ++ b) (c ++ d) where
  headings := by rw [Manual.headings, List.filterMap_append, ← left.headings, ← right.headings]; rfl
  links := by rw [Manual.links, List.filterMap_append, ← left.links, ← right.links]; rfl

theorem flatMap {α : Type} {members : List α} {lines : α → List Line} {titles : α → List String}
    {targets : α → List (String × String)}
    (each : ∀ a ∈ members, Shows (lines a) (titles a) (targets a)) :
    Shows (members.flatMap lines) (members.flatMap titles) (members.flatMap targets) where
  headings := by
    rw [Manual.headings, List.filterMap_flatMap]
    exact List.flatMap_congr fun a inside => (each a inside).headings
  links := by
    rw [Manual.links, List.filterMap_flatMap]
    exact List.flatMap_congr fun a inside => (each a inside).links

theorem nothing {lines : List Line} (each : ∀ l ∈ lines, Shows [l] [] []) : Shows lines [] [] := by
  induction lines with
  | nil => exact ⟨rfl, rfl⟩
  | cons l rest ih =>
    obtain ⟨own, others⟩ := List.forall_mem_cons.mp each
    exact own.append (ih others)

/-- A line that begins with no mark of a heading or a table. -/
theorem other {l : Line} (opens : ∀ c ∈ l.before.toList.head?, c ≠ '#' ∧ c ≠ '|') :
    Shows [l] [] [] := by
  have none : heading? l = none ∧ link? l = none := by
    unfold heading? link?
    cases letters : l.before.toList with
    | nil => exact ⟨rfl, rfl⟩
    | cons c rest =>
      obtain ⟨number, bar⟩ := opens c (by simp [letters])
      simp [List.findSome?, wordsBehind, List.dropPrefix?, number, bar]
  exact ⟨List.filterMap_cons_none none.1, List.filterMap_cons_none none.2⟩

/-- A line of a table whose first cell begins with anything but a bracket. -/
theorem cell {l : Line} {text more : String} (before : l.before = "| " ++ (text ++ more))
    (opens : ∃ c ∈ text.toList.head?, c ≠ '[') : Shows [l] [] [] := by
  obtain ⟨c, first, other⟩ := opens
  obtain ⟨rest, letters⟩ := List.head?_eq_some_iff.mp first
  have begins : l.before.toList = '|' :: ' ' :: c :: (rest ++ more.toList) := by
    simp [before, letters]
  have heading : heading? l = none := by
    simp [heading?, begins, List.findSome?, List.dropPrefix?]
  have link : link? l = none := by
    simp [link?, begins, wordsBehind, List.dropPrefix?, other]
  exact ⟨List.filterMap_cons_none heading, List.filterMap_cons_none link⟩

end Shows

/-- Cells the first of which begins with anything but a bracket. -/
def Unlinked (cells : List String) : Prop := ∃ first ∈ cells.head?, ∃ c ∈ first.toList.head?, c ≠ '['

theorem intercalate_cons (separator first : String) (rest : List String) :
    ∃ more, separator.intercalate (first :: rest) = first ++ more := by
  cases rest with
  | nil => exact ⟨"", by simp⟩
  | cons second others => exact ⟨_, by rw [String.intercalate_cons_cons, String.append_assoc]⟩

/-- A table without links shows nothing. -/
theorem shows_tableLines {columns : List String} {rows : List Row}
    (header : Unlinked columns) (each : ∀ row ∈ rows, Unlinked row.cells) :
    ∀ l ∈ tableLines columns rows, Shows [l] [] [] := by
  have opening {texts : List String} {l : Line} {more : String}
      (before : l.before = "| " ++ " | ".intercalate texts ++ more)
      (unlinked : Unlinked texts) : Shows [l] [] [] := by
    obtain ⟨first, head, opens⟩ := unlinked
    obtain ⟨others, rfl⟩ := List.head?_eq_some_iff.mp head
    obtain ⟨rest, joined⟩ := intercalate_cons " | " first others
    refine @Shows.cell l first (rest ++ more) ?_ opens
    rw [before, joined, String.append_assoc, String.append_assoc]
  refine List.forall_mem_cons.mpr ⟨opening rfl header, List.forall_mem_cons.mpr ⟨opening rfl ?_,
    List.forall_mem_map.mpr fun row inside => ?_⟩⟩
  · obtain ⟨first, head, -⟩ := header
    exact ⟨":---", by rw [List.head?_map, head]; rfl, ':', rfl, by decide⟩
  · obtain ⟨cells, note⟩ := row
    cases note with
    | words text =>
      refine @opening cells _ (" | " ++ text ++ " |") ?_ (each _ inside)
      simp [Row.line, Line.plain, String.append_assoc]
    | description text => exact opening rfl (each _ inside)

theorem shows_blocks {blocks : List Block} (each : ∀ b ∈ blocks, ∀ l ∈ b.lines, Shows [l] [] []) :
    Shows (blocks.flatMap fun b => b.lines ++ [Line.blank]) [] [] := by
  have blank : Shows [Line.blank] [] [] := Shows.other (by simp [Line.blank, Line.plain])
  refine Shows.nothing fun l inside => ?_
  obtain ⟨b, among, part⟩ := List.mem_flatMap.mp inside
  rcases List.mem_append.mp part with own | own
  · exact each b among l own
  · exact List.mem_singleton.mp own ▸ blank

theorem shows_paragraph {text : String} (opens : ∀ c ∈ text.toList.head?, c ≠ '#' ∧ c ≠ '|') :
    ∀ l ∈ (Block.paragraph text).lines, Shows [l] [] [] :=
  List.forall_mem_singleton.mpr (Shows.other opens)

theorem shows_title (text : String) :
    Shows ((Block.title text).lines ++ [Line.blank]) [text] [] := by
  have heading : heading? (.plain ("# " ++ text)) = some text := by
    simp [heading?, Line.plain, List.findSome?, List.dropPrefix?]
  have link : link? (.plain ("# " ++ text)) = none := by
    simp [link?, Line.plain, wordsBehind, List.dropPrefix?]
  exact ⟨List.filterMap_cons_some heading, List.filterMap_cons_none link⟩

theorem shows_chapter (name : String) :
    Shows ((Block.chapter name).lines ++ [Line.blank]) [name] [] := by
  have heading : heading? (.plain ("## " ++ name)) = some name := by
    simp [heading?, Line.plain, List.findSome?, List.dropPrefix?]
  have link : link? (.plain ("## " ++ name)) = none := by
    simp [link?, Line.plain, wordsBehind, List.dropPrefix?]
  exact ⟨List.filterMap_cons_some heading, List.filterMap_cons_none link⟩

theorem shows_diagram {content : Json} (opens : content.compact.toList.head? = some '\x7b') :
    ∀ l ∈ (Block.diagram content).lines, Shows [l] [] [] := by
  simp only [Block.lines, List.forall_mem_cons]
  refine ⟨.other (by simp [Line.plain]), .other ?_, .other (by simp [Line.plain]), List.forall_mem_nil _⟩
  simp [Line.plain, opens]

/-- A row of the summary shows its link. -/
theorem shows_summaryRow {word : Word} {r : Register} (named : IsWord r.name) :
    Shows [(summaryRow word r).line] [] [(r.name, asciiLower r.name)] := by
  have before : (summaryRow word r).line.before = "| [" ++ (r.name ++ ("](#" ++
      (asciiLower r.name ++ (") | " ++ (wordHex word r.address ++ " | "))))) := by
    rw [← String.toList_inj]
    simp [summaryRow, Row.line]
  have address : IsWord (wordHex word r.address) := isWord_hexPadded _ _
  have heading : heading? (summaryRow word r).line = none := by
    simp [heading?, before, List.findSome?, List.dropPrefix?]
  have link : link? (summaryRow word r).line = some (r.name, asciiLower r.name) := by
    rw [link?, before, wordsBehind_cons named (by simp [isNameChar]),
      wordsBehind_cons named.asciiLower (by simp [isNameChar]),
      wordsBehind_cons address (by simp [isNameChar])]
    rfl
  exact ⟨List.filterMap_cons_none heading, List.filterMap_cons_some link⟩

theorem opens_of_isIdentifier {name : String} (identifier : isIdentifier name = true) :
    ∃ c ∈ name.toList.head?, c ≠ '[' := by
  obtain ⟨c, rest, letters, letter, -⟩ := isIdentifier_iff.mp identifier
  refine ⟨c, by rw [letters]; rfl, ?_⟩
  rintro rfl
  cases letter

section

variable {m : AddressMap} (identifiers : Identifiers m.registers) {r : Register}
  (inside : r ∈ m.registers)
include identifiers inside

theorem unlinked_bitRows (top : Nat) {runs : List BitRun} (fields : ∀ f, .field f ∈ runs → f ∈ r.fields) :
    ∀ row ∈ bitRows top runs, Unlinked row.cells := by
  induction runs generalizing top with
  | nil => exact List.forall_mem_nil _
  | cons run rest ih =>
    have later (top : Nat) := ih top fun f among => fields f (List.mem_cons_of_mem _ among)
    cases run with
    | field f =>
      have named := identifiers.field r inside f (fields f (List.mem_cons_self ..))
      exact List.forall_mem_cons.mpr ⟨⟨_, rfl, opens_of_isIdentifier named⟩, later _⟩
    | padding width => exact List.forall_mem_cons.mpr ⟨⟨_, rfl, '-', rfl, by decide⟩, later _⟩

theorem shows_valueBlocks {f : Field} (within : f ∈ r.fields) :
    ∀ b ∈ valueBlocks r.name f, ∀ l ∈ b.lines, Shows [l] [] [] := by
  unfold valueBlocks
  split
  · exact List.forall_mem_nil _
  · refine List.forall_mem_cons.mpr ⟨shows_paragraph (by simp), List.forall_mem_singleton.mpr ?_⟩
    exact shows_tableLines ⟨_, rfl, 'N', rfl, by decide⟩ (List.forall_mem_map.mpr fun v part =>
      ⟨_, rfl, opens_of_isIdentifier (identifiers.value r inside f within v part)⟩)

/-- The section of a register shows its heading. -/
theorem shows_registerBlocks (images : Bool) (word : Word) :
    Shows ((registerBlocks images word r).flatMap fun b => b.lines ++ [Line.blank]) [r.name] [] := by
  have facts : ∀ b ∈ factBlocks word r, ∀ l ∈ b.lines, Shows [l] [] [] := by
    refine List.forall_mem_append.mpr ⟨fun b among => ?_, ?_⟩
    · split at among
      · cases among
      · rw [List.mem_singleton.mp among]
        exact List.forall_mem_singleton.mpr (.other (by simp))
    · simp only [List.forall_mem_cons]
      exact ⟨shows_paragraph (by simp), shows_paragraph (by simp), shows_paragraph (by simp),
        List.forall_mem_nil _⟩
  have fields : ∀ f, .field f ∈ (r.bitRuns word).reverse → f ∈ r.fields := fun f among =>
    field_mem_bitRuns.mp (List.mem_reverse.mp among)
  rw [registerBlocks_eq, List.cons_append, List.flatMap_cons]
  refine (shows_chapter r.name).append (shows_blocks ?_)
  refine List.forall_mem_append.mpr ⟨List.forall_mem_append.mpr ⟨facts, fun b among => ?_⟩,
    List.forall_mem_cons.mpr ⟨?_, List.forall_mem_flatMap.mpr fun f within =>
      shows_valueBlocks identifiers inside within⟩⟩
  · split at among
    · rw [List.mem_singleton.mp among]
      exact shows_diagram (by simp [diagramOf, Json.compact])
    · cases among
  · exact shows_tableLines ⟨_, rfl, 'N', rfl, by decide⟩ (unlinked_bitRows identifiers inside _ fields)

end

theorem shows_conventionBlocks :
    Shows (conventionBlocks.flatMap fun b => b.lines ++ [Line.blank]) ["Conventions"] [] := by
  rw [conventionBlocks, List.flatMap_cons]
  refine (shows_chapter "Conventions").append (shows_blocks ?_)
  simp only [List.forall_mem_cons]
  refine ⟨shows_tableLines ⟨_, rfl, 'A', rfl, by decide⟩ (List.forall_mem_map.mpr fun access _ => ?_),
    shows_tableLines ⟨_, rfl, 'M', rfl, by decide⟩ (List.forall_mem_map.mpr fun modifier _ => ?_),
    List.forall_mem_nil _⟩
  · cases access <;> exact ⟨_, rfl, _, rfl, by decide⟩
  · cases modifier <;> exact ⟨_, rfl, _, rfl, by decide⟩

theorem shows_summary {m : AddressMap} (identifiers : Identifiers m.registers) :
    Shows ((Block.table ["Name", "Address", "Description"] (m.registers.map (summaryRow m.word))).lines ++
      [Line.blank]) [] (m.registers.map fun r => (r.name, asciiLower r.name)) := by
  have header : Shows (tableLines ["Name", "Address", "Description"] []) [] [] :=
    Shows.nothing (shows_tableLines ⟨_, rfl, 'N', rfl, by decide⟩ (List.forall_mem_nil _))
  have rows := Shows.flatMap fun r inside =>
    @shows_summaryRow m.word r (isWord_of_isIdentifier (identifiers.register r inside))
  have blank : Shows [Line.blank] [] [] := .other (by simp [Line.blank, Line.plain])
  have untitled : m.registers.flatMap (fun _ => ([] : List String)) = [] :=
    List.flatMap_eq_nil_iff.mpr fun _ _ => rfl
  rw [untitled] at rows
  simpa [Block.lines, tableLines, List.map_eq_flatMap, List.flatMap_assoc] using
    (header.append rows).append blank

/-- The headings of a manual and the links in its summary. -/
theorem shows_lines {m : AddressMap} (identifiers : Identifiers m.registers) (options : Options) :
    Shows (lines options m)
      ([options.title] ++ (if options.conventions then ["Conventions"] else []) ++ [summaryName] ++
        m.registers.map Register.name)
      (m.registers.map fun r => (r.name, asciiLower r.name)) := by
  have disclaimer := @shows_blocks [.paragraph ("Created with " ++ generatorName ++ ".")]
    (List.forall_mem_singleton.mpr (shows_paragraph (by simp)))
  have conventions : Shows ((if options.conventions then conventionBlocks else []).flatMap
      fun b => b.lines ++ [Line.blank]) (if options.conventions then ["Conventions"] else []) [] := by
    split
    · exact shows_conventionBlocks
    · exact ⟨rfl, rfl⟩
  have base := @shows_blocks [.paragraph ("Base address: " ++ wordHex m.word m.base)]
    (List.forall_mem_singleton.mpr (shows_paragraph (by simp)))
  have sections := Shows.flatMap fun r inside =>
    @shows_registerBlocks m identifiers r inside options.images m.word
  have unlinked : m.registers.flatMap (fun _ => ([] : List (String × String))) = [] :=
    List.flatMap_eq_nil_iff.mpr fun _ _ => rfl
  rw [unlinked] at sections
  have closing : Shows [.plain "Back to [Register map](#register-map-summary)."] [] [] :=
    .other (by simp [Line.plain])
  have whole := ((shows_title options.title).append disclaimer).append <| conventions.append <|
    (((shows_chapter summaryName).append base).append (shows_summary identifiers)).append <|
      sections.append closing
  simpa [lines, blocks, List.flatMap_assoc, List.map_eq_flatMap] using whole

/-- Where the names that a function gives to members differ, each is found by its name. -/
theorem filter_eq_singleton {α β : Type} [DecidableEq α] [DecidableEq β] {f : α → β} {l : List α}
    {a : α} (differ : (l.map f).Nodup) (inside : a ∈ l) : l.filter (f · == f a) = [a] := by
  have same : ∀ b ∈ l, (f b == f a) = (b == a) := fun b among => by
    rw [Bool.eq_iff_iff, beq_iff_eq, beq_iff_eq]
    exact ⟨List.inj_on_of_nodup_map differ among inside, congrArg f⟩
  rw [List.filter_congr same, List.filter_beq, List.count_eq_one_of_mem (.of_map _ differ) inside]
  rfl

theorem isNameChar_hyphenate (c : Char) : isNameChar (hyphenate c) = isNameChar c := by
  unfold hyphenate
  split
  · next blank => rw [blank]; decide
  · rfl

theorem map_hyphenate {text : String} (word : IsWord text) : text.map hyphenate = text := by
  have clear : ∀ c ∈ text.toList, hyphenate c = c := fun c inside => if_neg <| by
    rintro rfl
    exact absurd (word _ inside) (by decide)
  rw [← String.toList_inj, String.toList_map]
  exact (List.map_congr_left clear).trans (List.map_id _)

/-- A word has no hyphens, so a link to one leads to the headings that are this word in small letters. -/
theorem anchor_eq_iff {name heading : String} (word : IsWord name) :
    anchor heading = name ↔ asciiLower heading = name := by
  constructor
  · rintro rfl
    refine (map_hyphenate fun c inside => ?_).symm
    rw [← isNameChar_hyphenate]
    exact word _ (by rw [anchor, String.toList_map]; exact List.mem_map_of_mem inside)
  · rintro rfl
    exact map_hyphenate word

section

variable {conventions images : Bool} {m : AddressMap} (identifiers : Identifiers m.registers)
include identifiers

theorem isWord_lowered {r : Register} (inside : r ∈ m.registers) : IsWord (asciiLower r.name) :=
  (isWord_of_isIdentifier (identifiers.register r inside)).asciiLower

variable (differ : NamesDiffer m.registers) (apart : SymbolsApart m.registers)
include differ apart

/-- The names of registers are words that differ in small letters, and the headings in front of them
are no words, but for one. -/
theorem nodup_headings_iff :
    ((headings (lines { conventions, images } m)).map asciiLower).Nodup ↔
      ¬ (conventions = true ∧ ∃ r ∈ m.registers, asciiLower r.name = "conventions") := by
  have sections : (m.registers.map (asciiLower ∘ Register.name)).Nodup := by
    have lowered := (differ.lowered apart).register
    rwa [List.map_map] at lowered
  have named {text : String} : text ∈ m.registers.map (asciiLower ∘ Register.name) ↔
      ∃ r ∈ m.registers, asciiLower r.name = text := List.mem_map
  have unlike (text : String) (parted : ¬ IsWord text) :
      text ∉ m.registers.map (asciiLower ∘ Register.name) := fun inside => by
    obtain ⟨r, among, rfl⟩ := named.mp inside
    exact parted (isWord_lowered identifiers among)
  have title := unlike "register map" (by decide)
  have summary := unlike "register map summary" (by decide)
  have own : asciiLower "Register map" = "register map" ∧
      asciiLower summaryName = "register map summary" ∧ asciiLower "Conventions" = "conventions" := by
    refine ⟨?_, ?_, ?_⟩ <;> cbv
  rw [(shows_lines identifiers _).headings, ← named]
  cases conventions <;> simp [own, title, summary, sections, -List.mem_map]

/-- Headings that differ are all that links need. -/
theorem unambiguous_iff :
    Unambiguous { conventions, images } m ↔
      ¬ (conventions = true ∧ ∃ r ∈ m.registers, asciiLower r.name = "conventions") := by
  rw [← @nodup_headings_iff conventions images m identifiers differ apart]
  constructor
  · exact Unambiguous.differ
  · intro distinct
    refine ⟨distinct, fun r inside => ⟨asciiLower r.name, ?_, ?_⟩⟩
    · rw [(shows_lines identifiers _).links, List.filter_map]
      simp only [Function.comp_def, filter_eq_singleton differ.register inside, List.map_singleton]
    · have named : r.name ∈ headings (lines { conventions, images } m) := by
        rw [(shows_lines identifiers _).headings]
        exact List.mem_append_right _ (List.mem_map_of_mem inside)
      have led (heading : String) :
          (anchor heading == asciiLower r.name) = (asciiLower heading == asciiLower r.name) := by
        rw [Bool.eq_iff_iff, beq_iff_eq, beq_iff_eq]
        exact anchor_eq_iff (isWord_lowered identifiers inside)
      rw [funext led]
      exact filter_eq_singleton distinct named

end

/-- The symbol check keeps the sections of registers apart, but knows nothing of the one that the manual
opens for its conventions. -/
theorem compile_unambiguous_iff {config : Config} {d : Description} {m : AddressMap}
    (compiled : compile config d = .ok m) (conventions images : Bool) :
    Unambiguous { conventions, images } m ↔
      ¬ (conventions = true ∧ ∃ r ∈ m.registers, asciiLower r.name = "conventions") := by
  obtain ⟨word, sound, rfl⟩ := compile_eq_ok_iff.mp compiled
  exact unambiguous_iff sound.identifiers sound.namesDiffer sound.symbolsApart

theorem compile_unambiguous_pwm :
    compile {} pwm = .ok (pwm.mapOf {} .w32) ∧
      ∀ conventions images, Unambiguous { conventions, images } (pwm.mapOf {} .w32) := by
  have others : ∀ r ∈ pwm.built .asWritten, asciiLower r.name ≠ "conventions" := by decide +kernel
  refine ⟨compile_pwm, fun conventions images =>
    (compile_unambiguous_iff compile_pwm conventions images).mpr ?_⟩
  rintro ⟨-, r, inside, same⟩
  exact others r ((byAddress_perm _).mem_iff.mp inside) same

/-- A register that is called like a chapter of the manual. -/
def treaty : Description where
  name := "treaty"
  registers := [{ name := "Conventions", address := 0, fields := [{ name := "F" }] }]

/-- The link of the register leads to the chapter in front of its own section as well. -/
theorem treaty_ambiguous :
    ¬ ∀ (config : Config) (d : Description) (m : AddressMap) (conventions images : Bool),
      compile config d = .ok m → Unambiguous { conventions, images } m := by
  intro unambiguous
  have sound : treaty.Sound {} .w32 := by decide +kernel
  have compiled : compile {} treaty = .ok (treaty.mapOf {} .w32) :=
    compile_eq_ok_iff.mpr ⟨.w32, sound, rfl⟩
  have names : (treaty.mapOf {} .w32).registers.map Register.name = ["Conventions"] := by
    cbv
  have written := (shows_lines sound.identifiers {}).headings
  rw [names] at written
  have differ : ((headings (lines {} (treaty.mapOf {} .w32))).map asciiLower).Nodup :=
    (unambiguous {} treaty _ true false compiled).differ
  rw [written] at differ
  exact absurd (List.Nodup.of_map _ differ) (by decide)

end RegisterMap.Manual
