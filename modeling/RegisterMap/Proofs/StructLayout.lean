import RegisterMap.Proofs.BindingNumbers
import RegisterMap.Proofs.HeaderStructs
import RegisterMap.Proofs.Tiling

namespace RegisterMap

/-- Where a slot begins over the base, and whether it is a register. -/
def Slot.mark (base : Nat) (s : Slot) : Nat × Bool := (s.address - base, s.register?.isSome)

namespace Tiles

variable {word : Word} {start stop : Nat} {slots : List Slot}

theorem eq_of_nil (tiles : Tiles word start [] stop) : start = stop := by
  cases tiles
  rfl

theorem head (tiles : Tiles word start slots stop) : ∀ s ∈ slots.head?, s.address = start := by
  cases tiles with
  | nil => exact fun s none => nomatch none
  | cons slot _ =>
    intro s first
    cases first
    rfl

theorem isChain (tiles : Tiles word start slots stop) :
    slots.IsChain fun a b => b.address = a.stop word := by
  induction tiles with
  | nil => exact .nil
  | cons slot tail ih => exact List.isChain_cons.mpr ⟨tail.head, ih⟩

theorem last (tiles : Tiles word start slots stop) :
    ∀ s ∈ slots.getLast?, s.stop word = stop := by
  induction tiles with
  | nil => exact fun s none => nomatch none
  | @cons slot rest stop tail ih =>
    intro s final
    cases rest with
    | nil =>
      cases final
      exact tail.eq_of_nil
    | cons next rest => exact ih s (by rwa [List.getLast?_cons_cons] at final)

theorem address_lt_stop (tiles : Tiles word start slots stop) (proper : ∀ s ∈ slots, s.Proper) :
    ∀ s ∈ slots, s.address < stop := by
  induction tiles with
  | nil => exact List.forall_mem_nil _
  | cons slot tail ih =>
    obtain ⟨first, others⟩ := List.forall_mem_cons.mp proper
    obtain ⟨words, ends, some⟩ := slot.stop_eq word
    have wide := Nat.mul_le_mul (some first) word.bytes_pos
    have low := tail.start_le_stop
    exact List.forall_mem_cons.mpr ⟨by omega, ih others⟩

end Tiles

/-- What begins where in a map, as offsets over its base: its slots, of which those are told apart that
are registers, and its end. -/
def AddressMap.marks (m : AddressMap) : List (Nat × Bool) :=
  m.slots.map (Slot.mark m.base) ++ [(m.stop - m.base, false)]

namespace Header

/-- The union at some place in a structure, with its alternatives. -/
def unionAt? : Nat × Component → Option (Nat × List (String × String))
  | (start, .union alternatives) => some (start, alternatives)
  | _ => none

/-- The array at some place in a structure, with its type, its name and its length. -/
def arrayAt? : Nat × Component → Option (Nat × String × String × Nat)
  | (start, .array type name count) => some (start, type, name, count)
  | _ => none

section

variable (lead : Lead) {word : Word} {base start stop : Nat} {slots : List Slot}

/-- Summing up the sizes of members meets the addresses of their slots, as one slot ends where the
next one begins. -/
theorem stacked_components (tiles : Tiles word start slots stop) (behind : base ≤ start)
    (index : Nat) :
    stacked (Component.size word) (8 * (start - base))
        ((mapMembers lead index slots).map (MapMember.component word)) =
      (slots.map fun s => 8 * (s.address - base)).zip
        ((mapMembers lead index slots).map (MapMember.component word)) := by
  have bits := word.bits_eq
  induction tiles generalizing index with
  | nil => rfl
  | cons slot tail ih =>
    obtain ⟨words, ends, _⟩ := slot.stop_eq word
    have later := ih (by omega)
    cases slot with
    | register r =>
      have next : 8 * (r.address - base) + word.bits = 8 * (r.address + word.bytes - base) := by
        simp only [Slot.address] at behind
        omega
      simp only [mapMembers, List.map_cons, stacked, MapMember.component, Component.size,
        List.zip_cons_cons]
      rw [← later index, Slot.address, next]
      rfl
    | reserved s =>
      have next : 8 * (s.start - base) + s.words * word.bits = 8 * (s.stop word - base) := by
        simp only [Slot.address] at behind
        rw [bits, Nat.mul_left_comm, ReservedSpan.stop]
        omega
      simp only [mapMembers, List.map_cons, stacked, MapMember.component, Component.size,
        List.zip_cons_cons]
      rw [← later (index + 1), Slot.address, next]
      rfl

theorem sum_size_components (tiles : Tiles word start slots stop) (index : Nat) :
    8 * start + (((mapMembers lead index slots).map (MapMember.component word)).map
      (Component.size word)).sum = 8 * stop := by
  have bits := word.bits_eq
  induction tiles generalizing index with
  | nil => simp [mapMembers]
  | cons slot tail ih =>
    cases slot with
    | register r =>
      rw [← ih index]
      simp only [mapMembers, List.map_cons, List.sum_cons, MapMember.component, Component.size]
      simp only [Slot.address, Slot.stop]
      omega
    | reserved s =>
      rw [← ih (index + 1)]
      simp only [mapMembers, List.map_cons, List.sum_cons, MapMember.component, Component.size]
      simp only [Slot.address, Slot.stop, ReservedSpan.stop]
      rw [bits, Nat.mul_left_comm]
      omega

theorem zip_unions (place : Slot → Nat) (index : Nat) :
    ((slots.map place).zip
        ((mapMembers lead index slots).map (MapMember.component word))).filterMap unionAt? =
      (slots.filterMap Slot.register?).map fun r => (place (.register r),
        [(storage word, r.name), (lead.typeName [asciiLower r.name], r.name ++ "_bf")]) := by
  induction slots generalizing index with
  | nil => rfl
  | cons slot rest ih => cases slot with
    | register r => exact congrArg ((place (.register r), _) :: ·) (ih index)
    | reserved s => exact ih (index + 1)

theorem zip_arrays (place : Slot → Nat) (index : Nat) :
    ((slots.map place).zip
        ((mapMembers lead index slots).map (MapMember.component word))).filterMap arrayAt? =
      ((slots.filterMap Slot.reserved?).zipIdx index).map fun s =>
        (place (.reserved s.1), storage word, "RESERVED" ++ decimal s.2, s.1.words) := by
  induction slots generalizing index with
  | nil => rfl
  | cons slot rest ih => cases slot with
    | register r => exact ih index
    | reserved s => exact congrArg ((place (.reserved s), _, _, s.words) :: ·) (ih (index + 1))

end

end Header

namespace Bindings

namespace Row

def offset : Row → Nat
  | register offset _ | reserved offset _ | stop offset => offset

/-- A register at its offset. -/
def register? : Row → Option (Nat × String)
  | register offset name => some (offset, name)
  | _ => none

/-- Padding at its offset. -/
def reserved? : Row → Option (Nat × String)
  | reserved offset name => some (offset, name)
  | _ => none

/-- What matters of a row to its neighbours. -/
def mark (row : Row) : Nat × Bool := (row.offset, row.register?.isSome)

end Row

variable {word : Word} {base : Nat} {slots : List Slot}

theorem entriesOf_registers (index : Nat) :
    ((entriesOf word base index slots).map Entry.row).filterMap Row.register? =
      (slots.filterMap Slot.register?).map fun r => (r.address - base, snakeCase r.name) := by
  induction slots generalizing index with
  | nil => rfl
  | cons slot rest ih => cases slot with
    | register r => exact congrArg ((r.address - base, snakeCase r.name) :: ·) (ih index)
    | reserved s => exact ih (index + 1)

theorem entriesOf_reserved (index : Nat) :
    ((entriesOf word base index slots).map Entry.row).filterMap Row.reserved? =
      ((slots.filterMap Slot.reserved?).zipIdx index).map fun s =>
        (s.1.start - base, "_reserved" ++ decimal s.2) := by
  induction slots generalizing index with
  | nil => rfl
  | cons slot rest ih => cases slot with
    | register r => exact ih index
    | reserved s => exact congrArg ((s.start - base, _) :: ·) (ih (index + 1))

theorem entriesOf_marks (index : Nat) :
    ((entriesOf word base index slots).map Entry.row).map Row.mark = slots.map (Slot.mark base) := by
  induction slots generalizing index with
  | nil => rfl
  | cons slot rest ih => cases slot with
    | register r => exact congrArg ((r.address - base, true) :: ·) (ih index)
    | reserved s => exact congrArg ((s.start - base, false) :: ·) (ih (index + 1))

end Bindings

/-- The structures of a map in C and in Rust over its addresses, as their files show them. In C a member
begins where the sizes of the members before it lead to, counted in bits; in Rust its offset is written
down, counted in bytes. -/
structure AddressMap.LaidOut (lead : Header.Lead) (m : AddressMap) (members : List Header.Component)
    (rows : List Bindings.Row) : Prop where
  above : ∀ r ∈ m.registers, m.base ≤ r.address
  /-- The union of a register offers its word and its bit fields. -/
  unions : (stacked (Header.Component.size m.word) 0 members).filterMap Header.unionAt? =
    m.registers.map fun r => (8 * (r.address - m.base), [(Header.storage m.word, r.name),
      (lead.typeName [asciiLower r.name], r.name ++ "_bf")])
  size : (members.map (Header.Component.size m.word)).sum = 8 * (m.stop - m.base)
  /-- Padding arrays are counted from zero and fill one gap each. -/
  arrays : (stacked (Header.Component.size m.word) 0 members).filterMap Header.arrayAt? =
    m.reserved.zipIdx.map fun s =>
      (8 * (s.1.start - m.base), Header.storage m.word, "RESERVED" ++ decimal s.2, s.1.words)
  registers : rows.filterMap Bindings.Row.register? =
    m.registers.map fun r => (r.address - m.base, snakeCase r.name)
  /-- Padding rows are counted from zero and stand for one gap each. -/
  reserved : rows.filterMap Bindings.Row.reserved? =
    m.reserved.zipIdx.map fun s => (s.1.start - m.base, "_reserved" ++ decimal s.2)
  shown : rows = [] ↔ m.registers = []
  first : ∀ row ∈ rows.head?, row.offset = 0
  rising : (rows.map Bindings.Row.offset).Pairwise (· < ·)
  /-- What comes after a register begins one word later. -/
  next : rows.IsChain fun a b => a.register?.isSome → b.offset = a.offset + m.word.bytes
  /-- Of two neighbours one is a register, so that padding begins where a register ends, and a register
  is the last row above the end. -/
  apart : rows.IsChain fun a b => a.register?.isSome ∨ b.register?.isSome
  last : ∀ row ∈ rows.getLast?, row = .stop (m.stop - m.base)
  agree : (stacked (Header.Component.size m.word) 0 members).map Prod.fst =
    rows.dropLast.map fun row => 8 * row.offset

namespace AddressMap.Tiled

variable {m : AddressMap} (tiled : m.Tiled)
include tiled

theorem proper : ∀ s ∈ m.slots, s.Proper := by
  intro s inside
  cases s with
  | register r => trivial
  | reserved s =>
    refine tiled.words_pos s ?_
    rw [← tiled.reserved]
    exact List.mem_filterMap.mpr ⟨_, inside, rfl⟩

theorem base_le : ∀ s ∈ m.slots, m.base ≤ s.address := (tiled.walk.ascending tiled.proper).2

theorem slots_eq_nil_iff : m.slots = [] ↔ m.registers = [] := by
  constructor
  · intro none
    rw [← tiled.registers, none]
    rfl
  · intro none
    have reserved := (tiled.empty none).1
    rw [slots, none, reserved]
    rfl

theorem stacked_mapComponents (lead : Header.Lead) :
    stacked (Header.Component.size m.word) 0 (Header.mapComponents lead m) =
      (m.slots.map fun s => 8 * (s.address - m.base)).zip (Header.mapComponents lead m) := by
  have sums := Header.stacked_components lead tiled.walk le_rfl 0
  rwa [Nat.sub_self] at sums

theorem last_mark : ∀ a ∈ (m.slots.map (Slot.mark m.base)).getLast?,
    a.2 = true ∧ m.stop - m.base = a.1 + m.word.bytes := by
  intro a final
  rw [List.getLast?_map] at final
  obtain ⟨s, ended, rfl⟩ := Option.map_eq_some_iff.mp (Option.mem_def.mp final)
  have ends := tiled.walk.last s ended
  have low := tiled.base_le s (List.mem_of_getLast? ended)
  cases s with
  | register r =>
    simp only [Slot.mark, Slot.address, Slot.stop, Slot.register?_register, Option.isSome_some,
      true_and] at *
    omega
  | reserved s => cases tiled.last _ ended

theorem marks_next : m.marks.IsChain fun a b => a.2 → b.1 = a.1 + m.word.bytes := by
  refine List.isChain_append.mpr ⟨List.isChain_map .. |>.mpr ?_, .singleton _, ?_⟩
  · refine tiled.walk.isChain.imp_of_mem_imp fun a b left _ meets ofRegister => ?_
    have low := tiled.base_le a left
    cases a with
    | register r =>
      simp only [Slot.mark, Slot.address, Slot.stop] at *
      omega
    | reserved s => cases ofRegister
  · rintro a final b head _
    cases head
    exact (tiled.last_mark a final).2

theorem marks_apart : m.marks.IsChain fun a b => a.2 ∨ b.2 := by
  refine List.isChain_append.mpr ⟨List.isChain_map .. |>.mpr ?_, .singleton _, ?_⟩
  · refine tiled.apart.imp fun a b either => ?_
    cases a <;> cases b <;> simp_all [Slot.mark]
  · exact fun a final b _ => .inl (tiled.last_mark a final).1

theorem marks_rising : (m.marks.map Prod.fst).Pairwise (· < ·) := by
  rw [marks, List.map_append, List.map_map]
  refine List.pairwise_append.mpr ⟨?_, List.pairwise_singleton .., ?_⟩
  · refine List.pairwise_map.mpr (tiled.ordered.imp_of_mem fun left _ less => ?_)
    have low := tiled.base_le _ left
    simp only [Function.comp_apply, Slot.mark]
    omega
  · intro offset inside size own
    obtain ⟨s, member, rfl⟩ := List.mem_map.mp inside
    obtain rfl := List.mem_singleton.mp own
    have low := tiled.base_le s member
    have high := tiled.walk.address_lt_stop tiled.proper s member
    simp only [Function.comp_apply, Slot.mark]
    omega

theorem rows_eq : (Bindings.ofMap m).rows =
    if m.registers = [] then []
    else (Bindings.entriesOf m.word m.base 0 m.slots).map Bindings.Entry.row ++
      [.stop (m.stop - m.base)] := by
  have same : (Bindings.ofMap m).entries.isEmpty = true ↔ m.registers = [] := by
    rw [List.isEmpty_iff, ← List.length_eq_zero_iff, Bindings.ofMap, Bindings.length_entriesOf,
      List.length_eq_zero_iff, tiled.slots_eq_nil_iff]
  simp only [Bindings.rows, same]
  rfl

/-- The rows are marked as the map is, unless there are none. -/
theorem rows_marks : (Bindings.ofMap m).rows.map Bindings.Row.mark <+: m.marks := by
  rw [tiled.rows_eq]
  split
  · exact List.nil_prefix
  · rw [List.map_append, Bindings.entriesOf_marks]
    exact List.prefix_rfl

theorem marks_head : ∀ a ∈ m.marks.head?, a.1 = 0 := by
  have walk := tiled.walk
  rw [marks]
  cases slots : m.slots with
  | nil =>
    rintro a ⟨⟩
    rw [slots] at walk
    rw [← walk.eq_of_nil, Nat.sub_self]
  | cons s rest =>
    rintro a ⟨⟩
    rw [slots] at walk
    rw [Slot.mark, walk.head s rfl, Nat.sub_self]

/-- Tiled slots are all that it takes: both structures have one member for each slot. -/
theorem laidOut (lead : Header.Lead) :
    m.LaidOut lead (Header.mapComponents lead m) (Bindings.ofMap m).rows where
  above r inside := by
    rw [← tiled.registers] at inside
    obtain ⟨s, member, found⟩ := List.mem_filterMap.mp inside
    cases s with
    | register t =>
      cases found
      exact tiled.base_le _ member
    | reserved s => cases found
  unions := by
    rw [tiled.stacked_mapComponents, Header.mapComponents, Header.zip_unions, tiled.registers]
    rfl
  size := by
    have sum := Header.sum_size_components lead tiled.walk 0
    rw [Header.mapComponents]
    omega
  arrays := by
    rw [tiled.stacked_mapComponents, Header.mapComponents, Header.zip_arrays, tiled.reserved]
    rfl
  registers := by
    rw [tiled.rows_eq]
    split
    · rename_i none
      rw [none]
      rfl
    · rw [List.filterMap_append, Bindings.entriesOf_registers, tiled.registers]
      exact List.append_nil _
  reserved := by
    rw [tiled.rows_eq]
    split
    · rename_i none
      rw [(tiled.empty none).1]
      rfl
    · rw [List.filterMap_append, Bindings.entriesOf_reserved, tiled.reserved]
      exact List.append_nil _
  shown := by
    rw [tiled.rows_eq]
    split <;> simp_all
  first row head := by
    obtain ⟨later, whole⟩ := tiled.rows_marks
    refine tiled.marks_head row.mark ?_
    rw [← whole, List.head?_append, List.head?_map, Option.mem_def.mp head]
    rfl
  rising := by
    have rising := tiled.marks_rising.sublist (tiled.rows_marks.map Prod.fst).sublist
    rwa [List.map_map] at rising
  next := (List.isChain_map Bindings.Row.mark).mp <|
    List.IsChain.infix tiled.marks_next tiled.rows_marks.isInfix
  apart := (List.isChain_map Bindings.Row.mark).mp <|
    List.IsChain.infix tiled.marks_apart tiled.rows_marks.isInfix
  last row final := by
    rw [tiled.rows_eq] at final
    split at final
    · cases final
    · rw [List.getLast?_concat] at final
      exact (Option.mem_some_iff.mp final).symm
  agree := by
    rw [tiled.stacked_mapComponents, tiled.rows_eq, List.map_fst_zip (by simp [Header.mapComponents])]
    split
    · rename_i none
      rw [tiled.slots_eq_nil_iff.mpr none]
      rfl
    · have marks := congrArg (List.map fun a => 8 * a.1)
        (@Bindings.entriesOf_marks m.word m.base m.slots 0)
      rw [List.map_map, @List.map_map _ _ _ _ (Slot.mark m.base)] at marks
      rw [List.dropLast_concat]
      exact marks.symm

end AddressMap.Tiled

/-- Both structures lay every register of a compiled map out at its declared address, as far as their
files can be read. -/
theorem compile_laidOut {config : Config} {d : Description} {m : AddressMap}
    (compiled : compile config d = .ok m) {lead : Option String} (given : ∀ name ∈ lead, IsWord name)
    (header bindings : Path) :
    ∃ members,
      (Header.structuresIn (Header.artifact header lead m).content).getLast? =
        some ((Header.Lead.of (lead.getD m.name)).typeName [], members) ∧
      m.LaidOut (.of (lead.getD m.name)) members
        (Bindings.rowsIn (Bindings.artifact bindings m).content) := by
  have whole := compile_unbroken compiled
  refine ⟨Header.mapComponents (.of (lead.getD m.name)) m, ?_, ?_⟩
  · rw [Header.structuresIn_artifact whole header given, List.getLast?_concat]
  · rw [Bindings.rowsIn_artifact whole]
    exact (compile_tiled compiled).laidOut _

theorem compile_laidOut_pwm :
    compile {} pwm = .ok (pwm.mapOf {} .w32) ∧ (∀ name ∈ some "PWM", IsWord name) ∧
      ∃ members,
        (Header.structuresIn (Header.artifact ⟨"pwm.h"⟩ (some "PWM")
          (pwm.mapOf {} .w32)).content).getLast? = some ((Header.Lead.of "PWM").typeName [], members) ∧
        (pwm.mapOf {} .w32).LaidOut (.of "PWM") members
          (Bindings.rowsIn (Bindings.artifact ⟨"pwm.rs"⟩ (pwm.mapOf {} .w32)).content) := by
  have given : ∀ name ∈ some "PWM", IsWord name := by
    rintro name ⟨⟩
    decide
  exact ⟨compile_pwm, given, compile_laidOut compile_pwm given ⟨"pwm.h"⟩ ⟨"pwm.rs"⟩⟩

end RegisterMap
