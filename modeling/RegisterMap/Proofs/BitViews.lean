import RegisterMap.Proofs.HeaderStructs
import RegisterMap.Proofs.ManualSections

namespace RegisterMap

/-- The most significant bit of a run that begins at some bit. -/
def BitRun.msb (part : Nat × BitRun) : Nat := part.1 + part.2.width - 1

namespace Header

/-- A named bit field with the bit that it begins at and its width. -/
def bitsAt? : Nat × Component → Option (String × Nat × Nat)
  | (start, .bits (some name) width) => some (name, start, width)
  | _ => none

/-- The members of a structure are bit fields, from bit 0 upwards the fields of a register with the
gaps between them. -/
structure HasBits (word : Word) (r : Register) (members : List Component) : Prop where
  plain : ∀ part ∈ members, ∃ name width, part = .bits name width
  fields : (stacked (Component.size word) 0 members).filterMap bitsAt? =
    r.fieldsByLsb.map fun f => (f.name, f.lsb, f.width)
  total : (members.map (Component.size word)).sum = word.bits

theorem size_component (word : Word) (run : BitRun) :
    (BitMember.ofRun run).component.size word = run.width := by
  cases run <;> rfl

theorem hasBits_bitComponents {word : Word} {r : Register} (fitted : r.Fitted word) :
    HasBits word r (bitComponents word r) where
  plain := List.forall_mem_map.mpr fun run _ => by
    cases run with
    | field f => exact ⟨some f.name, f.width, rfl⟩
    | padding width => exact ⟨none, width, rfl⟩
  fields := by
    have same : Component.size word ∘ (fun run => (BitMember.ofRun run).component) = BitRun.width :=
      funext (size_component word)
    have ofField : ∀ part ∈ stacked BitRun.width 0 (r.bitRuns word),
        bitsAt? (part.1, (BitMember.ofRun part.2).component) =
          part.2.field?.map fun f => (f.name, f.lsb, f.width) := by
      rintro ⟨start, run⟩ inside
      cases run with
      | field f =>
        rw [fitted.start_eq_lsb inside]
        rfl
      | padding width => rfl
    have fields : (stacked BitRun.width 0 (r.bitRuns word)).filterMap (fun part => part.2.field?) =
        r.fieldsByLsb :=
      calc
        _ = ((stacked BitRun.width 0 (r.bitRuns word)).map Prod.snd).filterMap BitRun.field? :=
          (List.filterMap_map ..).symm
        _ = r.fieldsByLsb := by
          rw [map_snd_stacked, Register.bitRuns, BitRun.filterMap_field?_cover]
    rw [bitComponents, stacked_map, same, List.filterMap_map, Function.comp_def,
      List.filterMap_congr ofField, ← List.map_filterMap, fields]
  total := by
    rw [bitComponents, List.map_map, ← fitted.total, BitRun.totalWidth_eq_sum]
    exact congrArg (fun width => ((r.bitRuns word).map width).sum) (funext (size_component word))

end Header

namespace Manual

/-- A part of a diagram: what it is called, if it has a name, and its bits. -/
def diagramPart? (part : Node) : Option (Option String × Nat) :=
  match part.get? "bits", part.get? "name" with
  | some (.int (.ofNat bits)), some (.text name) => some (some name, bits)
  | some (.int (.ofNat bits)), none => some (none, bits)
  | _, _ => none

/-- The parts of a diagram in turn. -/
def diagramParts? (diagram : Node) : Option (List (Option String × Nat)) :=
  match diagram.get? "reg" with
  | some (.list parts true) => parts.mapM diagramPart?
  | _ => none

theorem diagramParts?_diagramOf (word : Word) (r : Register) :
    diagramParts? (diagramOf word r).node = some ((r.bitRuns word).map fun run =>
      (run.field?.map fun f => asciiUpper f.name, run.width)) := by
  have part (run : BitRun) : diagramPart? (diagramRun run).node =
      some (run.field?.map fun f => asciiUpper f.name, run.width) := by
    cases run <;> rfl
  change (Json.nodes ((r.bitRuns word).map diagramRun)).mapM diagramPart? = _
  rw [Dump.nodes_map, List.mapM_map]
  simp only [Function.comp_def, part]
  exact List.mapM_pure ..

theorem readable_diagramOf {word : Word} {r : Register} (fitted : r.Fitted word) :
    (diagramOf word r).Readable JsonText.nesting := by
  have small {n : Nat} (low : n ≤ word.bits) : n < UInt64.size :=
    low.trans_lt (word.bits_le.trans_lt (by decide))
  have width : ∀ run ∈ r.bitRuns word, run.width ≤ word.bits := fun run among => by
    rw [← fitted.total, BitRun.totalWidth_eq_sum]
    exact List.le_sum_of_mem (List.mem_map_of_mem among)
  have runs : ∀ j ∈ (r.bitRuns word).map diagramRun, j.Readable (124 + 1) := by
    refine List.forall_mem_map.mpr fun run among => ?_
    have bits := small (width run among)
    cases run with
    | field f =>
      refine .obj ?_
      simp only [List.forall_mem_cons]
      exact ⟨.str _, .nat bits, .str _, List.forall_mem_nil _⟩
    | padding size => exact .obj (List.forall_mem_singleton.mpr (.nat bits))
  have config : ∀ entry ∈ [("bits", Json.nat word.bits), ("hspace", .nat 800), ("lanes", .nat 1)],
      entry.2.Readable 125 := by
    simp only [List.forall_mem_cons]
    exact ⟨.nat (small le_rfl), .nat (by decide), .nat (by decide), List.forall_mem_nil _⟩
  exact .obj (List.forall_mem_cons.mpr ⟨.obj config, List.forall_mem_singleton.mpr (.arr runs)⟩)

/-- The row of a run that begins at some bit. -/
def runRow (part : Nat × BitRun) : Row :=
  match part.2 with
  | .field f =>
    ⟨[f.name, bitRange (BitRun.msb part) part.1, fieldMode f, hexLiteral f.reset],
      .description f.description⟩
  | .padding _ => ⟨["-", bitRange (BitRun.msb part) part.1, "-", "0x0"], .words "Reserved"⟩

variable {word : Word} {r : Register}

/-- A `top` that is counted down finds the places that widths counted up lead to. -/
theorem bitRows_eq {parts : List (Nat × BitRun)} {top : Nat}
    (head : ∀ part ∈ parts.head?, part.1 + part.2.width = top)
    (next : parts.IsChain fun a b => b.1 + b.2.width = a.1)
    (own : ∀ start f, (start, .field f) ∈ parts → start = f.lsb) :
    bitRows top (parts.map Prod.snd) = parts.map runRow := by
  -- The invariant is that the first run ends at `top`; a field sets `top` anew, and padding lowers it.
  induction parts generalizing top with
  | nil => rfl
  | cons part rest ih =>
    obtain ⟨start, run⟩ := part
    obtain ⟨follows, others⟩ := List.isChain_cons.mp next
    have later := ih follows others fun start f inside => own start f (List.mem_cons_of_mem _ inside)
    have ends : start + run.width = top := head _ rfl
    cases run with
    | field f =>
      obtain rfl := own start f (List.mem_cons_self ..)
      exact congrArg (runRow (f.lsb, .field f) :: ·) later
    | padding width =>
      have start : top - width = start := by
        rw [BitRun.width] at ends
        omega
      rw [List.map_cons, bitRows, start, later, ← ends]
      rfl

end Manual

namespace Register

/-- The runs of a register from the highest bits down, each with its lowest bit. -/
def runsDown (word : Word) (r : Register) : List (Nat × BitRun) :=
  (stacked BitRun.width 0 (r.bitRuns word)).reverse

theorem runsDown_map_snd (word : Word) (r : Register) :
    (r.runsDown word).map Prod.snd = (r.bitRuns word).reverse := by
  rw [runsDown, List.map_reverse, map_snd_stacked]

theorem runsDown_isChain (word : Word) (r : Register) :
    (r.runsDown word).IsChain fun a b => b.1 + b.2.width = a.1 :=
  List.isChain_reverse.mpr ((stacked_isChain ..).imp fun _ _ next => next.symm)

namespace Fitted

variable {word : Word} {r : Register} (fitted : r.Fitted word)
include fitted

theorem bitRuns_ne_nil : r.bitRuns word ≠ [] := by
  intro none
  have whole := fitted.total
  have wide := word.bytes_pos
  rw [none, BitRun.totalWidth_nil, word.bits_eq] at whole
  omega

theorem msb_add_one {part : Nat × BitRun}
    (inside : part ∈ stacked BitRun.width 0 (r.bitRuns word)) :
    BitRun.msb part + 1 = part.1 + part.2.width := by
  have wide := fitted.run_width_pos (snd_mem_of_mem_stacked _ inside)
  rw [BitRun.msb]
  omega

theorem runsDown_head : ∀ part ∈ (r.runsDown word).head?, part.1 + part.2.width = word.bits := by
  intro part head
  rw [runsDown, List.head?_reverse] at head
  rw [stacked_last _ _ _ part head, Nat.zero_add, ← BitRun.totalWidth_eq_sum, fitted.total]

theorem bitRows_runsDown :
    Manual.bitRows word.bits (r.bitRuns word).reverse = (r.runsDown word).map Manual.runRow := by
  rw [← runsDown_map_snd]
  exact Manual.bitRows_eq fitted.runsDown_head (runsDown_isChain word r) fun start f inside =>
    fitted.start_eq_lsb (List.mem_reverse.mp inside)

theorem runsDown_next :
    (r.runsDown word).IsChain fun above below => BitRun.msb below + 1 = above.1 := by
  refine (runsDown_isChain word r).imp_of_mem_imp fun a b _ below next => ?_
  rw [fitted.msb_add_one (List.mem_reverse.mp below), next]

theorem runsDown_top : (r.runsDown word).head?.map BitRun.msb = some (word.bits - 1) := by
  cases first : (r.runsDown word).head? with
  | none =>
    have runs := runsDown_map_snd word r
    rw [List.head?_eq_none_iff.mp first] at runs
    exact absurd (List.reverse_eq_nil_iff.mp runs.symm) fitted.bitRuns_ne_nil
  | some part =>
    have ends := fitted.runsDown_head part first
    rw [Option.map_some, BitRun.msb, ends]

theorem runsDown_bottom : (r.runsDown word).getLast?.map Prod.fst = some 0 := by
  rw [runsDown, List.getLast?_reverse]
  cases runs : r.bitRuns word with
  | nil => exact absurd runs fitted.bitRuns_ne_nil
  | cons run rest => rfl

end Fitted

end Register

namespace Manual

def Range.ofRun (part : Nat × BitRun) : Range where
  name := (part.2.field?.map Field.name).getD "-"
  msb := BitRun.msb part
  lsb := part.1

/-- Ranges of bits from the highest bit of a word down to the lowest one, each of which begins right below
the one before it. They are the runs of a register in reverse, and those of fields are where the
fields are. -/
structure Descends (word : Word) (r : Register) (ranges : List Range) : Prop where
  runs : ranges.reverse.map (fun range => (range.name, range.msb + 1 - range.lsb)) =
    (r.bitRuns word).map fun run => ((run.field?.map Field.name).getD "-", run.width)
  top : ranges.head?.map Range.msb = some (word.bits - 1)
  bottom : ranges.getLast?.map Range.lsb = some 0
  next : ranges.IsChain fun above below => below.msb + 1 = above.lsb
  own : ∀ range, range.name ≠ "-" →
    (range ∈ ranges ↔ ∃ f ∈ r.fields, range = ⟨f.name, f.msb, f.lsb⟩)

theorem rangeIn_runRow (part : Nat × BitRun) :
    rangeIn ((runRow part).cells ++ [(runRow part).note.text]) = some (.ofRun part) := by
  obtain ⟨start, run⟩ := part
  cases run <;> simp [runRow, rangeIn, bitsIn_bitRange, Range.ofRun, BitRun.field?]

end Manual

theorem Register.Fitted.descends {word : Word} {r : Register} (fitted : r.Fitted word) :
    Manual.Descends word r ((r.runsDown word).map .ofRun) where
  runs := by
    have each : ∀ part ∈ stacked BitRun.width 0 (r.bitRuns word),
        ((Manual.Range.ofRun part).name, (Manual.Range.ofRun part).msb + 1 - (Manual.Range.ofRun part).lsb) =
          ((part.2.field?.map Field.name).getD "-", part.2.width) := fun part inside => by
      have ends := fitted.msb_add_one inside
      simp only [Manual.Range.ofRun, Prod.mk.injEq, true_and]
      omega
    rw [← List.map_reverse, runsDown, List.reverse_reverse, List.map_map]
    refine (List.map_congr_left each).trans ?_
    conv_rhs => rw [← map_snd_stacked BitRun.width 0 (r.bitRuns word), List.map_map]
    rfl
  top := by
    rw [List.head?_map, Option.map_map]
    exact fitted.runsDown_top
  bottom := by
    rw [List.getLast?_map, Option.map_map]
    exact fitted.runsDown_bottom
  next := (List.isChain_map Manual.Range.ofRun).mpr fitted.runsDown_next
  own range named := by
    constructor
    · intro shown
      obtain ⟨⟨start, run⟩, inside, rfl⟩ := List.mem_map.mp shown
      have among := List.mem_reverse.mp inside
      cases run with
      | field f =>
        obtain rfl := fitted.start_eq_lsb among
        exact ⟨f, Manual.field_mem_bitRuns.mp (snd_mem_of_mem_stacked _ among), rfl⟩
      | padding width => exact absurd rfl named
    · rintro ⟨f, within, rfl⟩
      have run : .field f ∈ r.bitRuns word := Manual.field_mem_bitRuns.mpr within
      rw [← map_snd_stacked BitRun.width 0 (r.bitRuns word)] at run
      obtain ⟨⟨start, _⟩, among, rfl⟩ := List.mem_map.mp run
      obtain rfl := fitted.start_eq_lsb among
      exact List.mem_map.mpr ⟨_, List.mem_reverse.mpr among, rfl⟩

/-- The views of the bits of a register in the text of a header and in that of a manual, which may have
images. They all show the runs of the register. -/
structure AddressMap.BitViews (m : AddressMap) (r : Register) (images : Bool)
    (header manual : String) : Prop where
  runs : r.RunsTile m.word
  /-- The structure of the map offers the bit fields of the register next to its word. -/
  members : ∃ map type bits, (Header.structuresIn header).getLast? = some map ∧
    .union [(Header.storage m.word, r.name), (type, r.name ++ "_bf")] ∈ map.2 ∧
    (type, bits) ∈ Header.structuresIn header ∧ Header.HasBits m.word r bits
  diagram : images = true → ∃ text tree parts,
    Manual.InSection r ["```wavedrom".toList, text.toList, "```".toList] manual ∧
    JsonText.read text = (tree, true) ∧ Manual.diagramParts? tree = some parts ∧
    parts = (r.bitRuns m.word).map (fun run =>
      (run.field?.map fun f => asciiUpper f.name, run.width)) ∧
    (parts.map Prod.snd).sum = m.word.bits
  table : ∃ columns rule rows ranges, Manual.InSection r (columns :: rule :: rows) manual ∧
    Manual.reading columns = ["Name", "Bits", "Mode", "Reset", "Description"] ∧
    (rows.map Manual.reading).mapM Manual.rangeIn = some ranges ∧ Manual.Descends m.word r ranges

theorem Register.Fitted.bitViews {m : AddressMap} {r : Register} (inside : r ∈ m.registers)
    (fitted : r.Fitted m.word) (whole : m.Unbroken) {lead : Option String}
    (given : ∀ name ∈ lead, IsWord name) (options : Manual.Options) (header manual : Path) :
    m.BitViews r options.images (Header.artifact header lead m).content
      (Manual.artifact manual options m).content where
  runs := fitted.runsTile
  members := by
    have found := Header.structuresIn_artifact whole header given
    refine ⟨((Header.Lead.of (lead.getD m.name)).typeName [],
        Header.mapComponents (.of (lead.getD m.name)) m),
      (Header.Lead.of (lead.getD m.name)).typeName [asciiLower r.name],
      Header.bitComponents m.word r, ?_, Header.union_mem_mapComponents _ inside, ?_,
      Header.hasBits_bitComponents fitted⟩
    · rw [found, List.getLast?_concat]
    · rw [found]
      exact List.mem_append_left _ (List.mem_map.mpr ⟨r, inside, rfl⟩)
  diagram images := by
    refine ⟨(Manual.diagramOf m.word r).compact, (Manual.diagramOf m.word r).node, _,
      Manual.inSection_diagram whole inside manual options images,
      JsonText.read_compact (Manual.readable_diagramOf fitted), Manual.diagramParts?_diagramOf ..,
      rfl, ?_⟩
    rw [List.map_map, Function.comp_def, ← fitted.total, BitRun.totalWidth_eq_sum]
  table := by
    have fitting := Manual.fitting_bitRows whole inside
    have printed := Manual.inSection_bitRows whole inside manual options
    rw [Manual.toList_text_tableLines] at printed
    refine ⟨_, _, _, (r.runsDown m.word).map .ofRun, printed, fitting.reading_header, ?_,
      fitted.descends⟩
    rw [fitting.map_reading_body, fitted.bitRows_runsDown, List.map_map, List.mapM_map]
    simp only [Function.comp_def, Manual.rangeIn_runRow]
    exact List.mapM_pure ..

/-- All views of the bits of a compiled map tile its words, and they agree. -/
theorem compile_bitViews {config : Config} {d : Description} {m : AddressMap}
    (compiled : compile config d = .ok m) {lead : Option String} (given : ∀ name ∈ lead, IsWord name)
    (options : Manual.Options) (header manual : Path) :
    ∀ r ∈ m.registers, m.BitViews r options.images (Header.artifact header lead m).content
      (Manual.artifact manual options m).content := by
  have whole := compile_unbroken compiled
  exact fun r inside =>
    (compile_fitted compiled r inside).bitViews inside whole given options header manual

theorem latch_bitViews : compile { dataWidth := 64 } counter =
      .ok (counter.mapOf { dataWidth := 64 } .w64) ∧
    (∀ name ∈ some "CNT", IsWord name) ∧
    latch.built .asWritten ∈ (counter.mapOf { dataWidth := 64 } .w64).registers ∧
    (counter.mapOf { dataWidth := 64 } .w64).BitViews (latch.built .asWritten) true
      (Header.artifact ⟨"regs.h"⟩ (some "CNT") (counter.mapOf { dataWidth := 64 } .w64)).content
      (Manual.artifact ⟨"regs.md"⟩ { images := true }
        (counter.mapOf { dataWidth := 64 } .w64)).content := by
  have given : ∀ name ∈ some "CNT", IsWord name := by
    rintro name ⟨⟩
    decide
  exact ⟨compile_counter, given, latch_mem,
    compile_bitViews compile_counter given { images := true } ⟨"regs.h"⟩ ⟨"regs.md"⟩ _ latch_mem⟩

end RegisterMap
