import RegisterMap.Proofs.DumpNumbers
import RegisterMap.Proofs.ManualTables

namespace RegisterMap

namespace Json

theorem unbroken_escape (text : String) : Unbroken (escape text) := by
  refine unbroken_flatMap fun c _ => ?_
  unfold escapedChar
  split_ifs with quote backslash backspace page newline return' tab control
  iterate 7 · simp
  · simp only [List.forall_mem_cons]
    refine ⟨by decide, by decide, fun d inside => ?_⟩
    rcases List.mem_append.mp inside with zero | digit
    · rw [List.eq_of_mem_replicate zero]
      decide
    · have named := isNameChar_of_mem_hexDigits digit
      constructor <;> rintro rfl <;> exact absurd named (by decide)
  · exact List.forall_mem_singleton.mpr ⟨newline, return'⟩

theorem unbroken_stringText (text : String) : Unbroken (stringText text) := by
  simp +decide [stringText, unbroken_escape]

mutual

/-- A value in its short form is one line, whatever its strings are. -/
theorem unbroken_compact : ∀ j : Json, Unbroken j.compact
  | null => by decide
  | bool b => by cases b <;> decide
  | nat n => unbroken_decimal n
  | str s => unbroken_stringText s
  | prose s => unbroken_stringText s
  | arr items => by
    have inner := forall_mem_intercalate (show Unbroken "," by decide) (unbroken_compactItems items)
    rw [compact, unbroken_append, unbroken_append]
    exact ⟨⟨by decide, inner⟩, by decide⟩
  | obj entries => by
    have inner := forall_mem_intercalate (show Unbroken "," by decide)
      (unbroken_compactEntries entries)
    rw [compact, unbroken_append, unbroken_append]
    exact ⟨⟨by decide, inner⟩, by decide⟩

theorem unbroken_compactItems : ∀ items : List Json, ∀ text ∈ compactItems items, Unbroken text
  | [] => List.forall_mem_nil _
  | item :: rest => List.forall_mem_cons.mpr ⟨unbroken_compact item, unbroken_compactItems rest⟩

theorem unbroken_compactEntries :
    ∀ entries : List (String × Json), ∀ text ∈ compactEntries entries, Unbroken text
  | [] => List.forall_mem_nil _
  | (key, item) :: rest => by
    refine List.forall_mem_cons.mpr ⟨?_, unbroken_compactEntries rest⟩
    simp +decide [unbroken_stringText, unbroken_compact item]

end

end Json

namespace Manual

/-- Lines that stand in the section of a register, with a blank line behind them. No heading stands
between that of the section and these lines, although the description of the register may look like
one. -/
def InSection (r : Register) (part : List (List Char)) (content : String) : Prop :=
  ∃ between, ("## " ++ r.name).toList :: between ++ part ++ [[]] <:+: textLines content ∧
    ∀ line ∈ between, line = r.description.toList ∨ line.head? ≠ some '#'

/-- A block that opens no section. -/
def Block.Calm (r : Register) (block : Block) : Prop :=
  ∀ l ∈ block.lines, Unbroken l.text ∧ (l.text = r.description ∨ l.text.toList.head? ≠ some '#')

section

variable {options : Options} {m : AddressMap} {r : Register} (inside : r ∈ m.registers)
include inside

theorem registerBlocks_among : registerBlocks options.images m.word r <:+: blocks options m := by
  have own := ((List.singleton_infix_iff ..).mpr inside).flatMap (registerBlocks options.images m.word)
  rw [List.flatMap_singleton] at own
  exact own.trans (List.suffix_append ..).isInfix

/-- A block of a register stands in the section of the register. -/
theorem inSection_of_split {before after : List Block} {block : Block}
    (split : registerBlocks options.images m.word r = .chapter r.name :: before ++ block :: after)
    (named : Unbroken r.name) (calm : ∀ b ∈ before, b.Calm r)
    (whole : ∀ l ∈ block.lines, Unbroken l.text) (path : Path) :
    InSection r (block.lines.map fun l => l.text.toList) (artifact path options m).content := by
  have section' : (Block.chapter r.name :: before ++ [block]).flatMap
      (fun b => b.lines ++ [Line.blank]) <:+: lines options m := by
    have own : Block.chapter r.name :: before ++ [block] <+: registerBlocks options.images m.word r :=
      ⟨after, by simp [split]⟩
    exact ((own.isInfix.trans (registerBlocks_among inside)).flatMap _).trans
      (List.prefix_append ..).isInfix
  have unbroken : ∀ l ∈ (Block.chapter r.name :: before ++ [block]).flatMap
      (fun b => b.lines ++ [Line.blank]), Unbroken l.text := by
    have blank : Unbroken Line.blank.text := by decide
    have heading : Unbroken ("## " ++ r.name) := by simp +decide [named]
    intro l among
    obtain ⟨b, member, part⟩ := List.mem_flatMap.mp among
    rcases List.mem_append.mp part with own | own
    · rcases List.mem_append.mp member with member | member
      · rcases List.mem_cons.mp member with rfl | earlier
        · rw [List.mem_singleton.mp own, Line.text_plain]
          exact heading
        · exact (calm b earlier l own).1
      · exact whole l (List.mem_singleton.mp member ▸ own)
    · rw [List.mem_singleton.mp own]
      exact blank
  have heading : (Block.chapter r.name).lines = [.plain ("## " ++ r.name)] := rfl
  have content : (artifact path options m).content = Line.file (lines options m) := by rw [artifact]
  have printed := Line.infix_textLines section' unbroken
  refine ⟨[] :: (before.flatMap fun b => b.lines ++ [Line.blank]).map fun l => l.text.toList,
    ?_, ?_⟩
  · rw [content]
    simpa [List.flatMap_append, heading, Line.blank] using printed
  · refine List.forall_mem_cons.mpr ⟨.inr (by decide), List.forall_mem_map.mpr fun l among => ?_⟩
    obtain ⟨b, member, part⟩ := List.mem_flatMap.mp among
    rcases List.mem_append.mp part with own | own
    · exact (calm b member l own).2.imp (congrArg String.toList) id
    · rw [List.mem_singleton.mp own]
      exact .inr (by decide)

end

/-- What the section of a register says in front of its diagram and its tables. -/
def factBlocks (word : Word) (r : Register) : List Block :=
  (if r.description.isEmpty then [] else [.description r.description]) ++
    [.paragraph ("Address: " ++ wordHex word r.address),
      .paragraph ("Reset value: " ++ wordHex word r.reset),
      .paragraph ("Access: " ++ r.access.long)]

/-- The columns of the table that shows the bits of a register. -/
def bitColumns : List String := ["Name", "Bits", "Mode", "Reset", "Description"]

theorem registerBlocks_eq (images : Bool) (word : Word) (r : Register) :
    registerBlocks images word r = .chapter r.name ::
      (factBlocks word r ++ if images then [.diagram (diagramOf word r)] else []) ++
      .table bitColumns (bitRows word.bits (r.bitRuns word).reverse) ::
        r.fields.flatMap (valueBlocks r.name) := by
  simp [registerBlocks, factBlocks, bitColumns]

theorem calm_factBlocks (word : Word) {r : Register} (single : Unbroken r.description) :
    ∀ b ∈ factBlocks word r, b.Calm r := by
  have hex (n : Nat) : Unbroken (wordHex word n) := (solid_wordHex word n).unbroken
  have access : Unbroken r.access.long := by cases r.access <;> decide
  refine List.forall_mem_append.mpr ⟨fun b among => ?_, ?_⟩
  · split at among
    · cases among
    · rw [List.mem_singleton.mp among]
      exact List.forall_mem_singleton.mpr ⟨by simpa [Line.text] using single, .inl (by simp [Line.text])⟩
  · simp only [List.forall_mem_cons]
    refine ⟨?_, ?_, ?_, List.forall_mem_nil _⟩ <;>
      exact List.forall_mem_singleton.mpr ⟨by simp +decide [hex, access], .inr (by simp)⟩

theorem calm_diagram (word : Word) (r : Register) : (Block.diagram (diagramOf word r)).Calm r := by
  have start : (diagramOf word r).compact.toList.head? = some '\x7b' := by
    simp [diagramOf, Json.compact]
  simp only [Block.Calm, Block.lines, List.forall_mem_cons]
  refine ⟨⟨by decide, .inr (by decide)⟩, ⟨?_, .inr ?_⟩, ⟨by decide, .inr (by decide)⟩,
    List.forall_mem_nil _⟩
  · rw [Line.text_plain]
    exact Json.unbroken_compact _
  · simp [start]

section

variable {m : AddressMap} (whole : m.Unbroken) {r : Register} (inside : r ∈ m.registers) (path : Path)
  (options : Options)
include whole inside

theorem inSection_diagram (images : options.images = true) :
    InSection r ["```wavedrom".toList, (diagramOf m.word r).compact.toList, "```".toList]
      (artifact path options m).content := by
  have split : registerBlocks options.images m.word r =
      .chapter r.name :: factBlocks m.word r ++ .diagram (diagramOf m.word r) ::
        (.table bitColumns (bitRows m.word.bits (r.bitRuns m.word).reverse) ::
          r.fields.flatMap (valueBlocks r.name)) := by
    simp [registerBlocks_eq, images]
  have named := (isWord_of_isIdentifier (whole.identifiers.register r inside)).unbroken
  have own : ∀ l ∈ (Block.diagram (diagramOf m.word r)).lines, Unbroken l.text :=
    fun l among => (calm_diagram m.word r l among).1
  have printed := inSection_of_split inside split named
    (calm_factBlocks m.word (whole.register inside)) own path
  simpa [Block.lines] using printed

theorem fitting_bitRows :
    Fitting bitColumns (bitRows m.word.bits (r.bitRuns m.word).reverse) := by
  have part : Block.table bitColumns (bitRows m.word.bits (r.bitRuns m.word).reverse) ∈
      registerBlocks false m.word r := by simp [registerBlocks_eq]
  exact tabular_registerBlocks whole inside false _ part

theorem inSection_bitRows :
    InSection r ((tableLines bitColumns (bitRows m.word.bits (r.bitRuns m.word).reverse)).map
      fun l => l.text.toList) (artifact path options m).content := by
  have named := (isWord_of_isIdentifier (whole.identifiers.register r inside)).unbroken
  have own := (fitting_bitRows whole inside).unbroken
  refine inSection_of_split inside (registerBlocks_eq ..) named ?_ own path
  refine List.forall_mem_append.mpr ⟨calm_factBlocks m.word (whole.register inside), fun b among => ?_⟩
  split at among
  · rw [List.mem_singleton.mp among]
    exact calm_diagram m.word r
  · cases among

end

/-- Bits of a register that have a name together. -/
structure Range where
  name : String
  msb : Nat
  lsb : Nat
  deriving DecidableEq, Repr

/-- The highest and the lowest of some bits. One number stands for one bit. -/
def bitsIn (text : String) : Option (Nat × Nat) :=
  match text.toList.splitOn ':' with
  | [bit] => (literalNumber? false bit).map fun n => (n, n)
  | [msb, lsb] => do pure (← literalNumber? false msb, ← literalNumber? false lsb)
  | _ => none

/-- What the row of a table says about bits, by its first two cells. -/
def rangeIn : List String → Option Range
  | name :: bits :: _ => (bitsIn bits).map fun (msb, lsb) => ⟨name, msb, lsb⟩
  | _ => none

theorem bitsIn_bitRange (msb lsb : Nat) : bitsIn (bitRange msb lsb) = some (msb, lsb) := by
  have whole (n : Nat) : ':' ∉ (decimal n).toList := fun inside =>
    absurd (isWord_decimal n ':' inside) (by decide)
  by_cases same : msb = lsb
  · rw [bitRange, if_pos same, bitsIn, List.splitOn_eq_singleton (whole lsb), same]
    simp [literalNumber?_decimal]
  · have parts : (decimal msb ++ ":" ++ decimal lsb).toList.splitOn ':' =
        [(decimal msb).toList, (decimal lsb).toList] := by
      have joined : (decimal msb ++ ":" ++ decimal lsb).toList =
          (decimal msb).toList ++ ':' :: (decimal lsb).toList := by simp
      rw [joined, List.splitOn_append_cons_self, List.splitOn_eq_singleton (whole msb),
        List.splitOn_eq_singleton (whole lsb), List.singleton_append]
    rw [bitRange, if_neg same, bitsIn, parts]
    simp [literalNumber?_decimal]

end Manual

end RegisterMap
