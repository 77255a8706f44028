import RegisterMap.Bindings
import RegisterMap.Proofs.BitViews
import RegisterMap.Proofs.Tiling

namespace RegisterMap

namespace FixedWidth

/-- An unsigned number of so many bits. An operation has a result only where the result is exact:
nothing wraps around, and no bit gets lost. -/
def fit (bits n : Nat) : Option Nat := if n < 2 ^ bits then some n else none

def add (bits a b : Nat) : Option Nat := fit bits (a + b)

/-- What is not below zero is no wider than the number it is taken from. -/
def sub (a b : Nat) : Option Nat := if b ≤ a then some (a - b) else none

def mul (bits a b : Nat) : Option Nat := fit bits (a * b)

def div (a b : Nat) : Option Nat := if b = 0 then none else some (a / b)

def rem (a b : Nat) : Option Nat := if b = 0 then none else some (a % b)

/-- A number of `bits` bits can be moved by fewer places than that. -/
def shiftLeft (bits n places : Nat) : Option Nat :=
  if places < bits then fit bits (n <<< places) else none

def shiftRight (bits n places : Nat) : Option Nat :=
  if places < bits then some (n >>> places) else none

section

variable {bits a b n places : Nat}

theorem add_eq (fits : a + b < 2 ^ bits) : add bits a b = some (a + b) := if_pos fits

theorem isSome_add_iff : (add bits a b).isSome ↔ a + b < 2 ^ bits := by
  simp [add, fit, Option.isSome_iff_exists]

theorem sub_eq (below : b ≤ a) : sub a b = some (a - b) := if_pos below

theorem mul_eq (fits : a * b < 2 ^ bits) : mul bits a b = some (a * b) := if_pos fits

theorem div_eq (positive : 0 < b) : div a b = some (a / b) := if_neg positive.ne'

theorem rem_eq (positive : 0 < b) : rem a b = some (a % b) := if_neg positive.ne'

theorem shiftLeft_eq (few : places < bits) (fits : n <<< places < 2 ^ bits) :
    shiftLeft bits n places = some (n <<< places) := by
  rw [shiftLeft, if_pos few, fit, if_pos fits]

theorem shiftRight_eq (few : places < bits) : shiftRight bits n places = some (n >>> places) :=
  if_pos few

/-- The first number past those of so many bits has one bit more. -/
theorem shiftLeft_one_eq (few : places < bits) : shiftLeft bits 1 places = some (1 <<< places) := by
  refine shiftLeft_eq few ?_
  rw [Nat.one_shiftLeft]
  exact Nat.pow_lt_pow_right (by decide) few

end

/-- Places of fields are numbers of 32 bits. -/
def fieldStop (f : Field) : Option Nat := add 32 f.lsb f.width

def fieldMsb (f : Field) : Option Nat := do sub (← fieldStop f) 1

/-- A mask is made in 128 bits. -/
def mask (width lsb : Nat) : Option Nat :=
  if width = 0 then some 0
  else do
    let ones ← sub (← shiftLeft 128 1 width) 1
    fit 64 (← shiftLeft 128 ones lsb)

/-- The numbers of a field that its word has room for. -/
structure FieldExact (f : Field) : Prop where
  stop : fieldStop f = some f.stop
  msb : fieldMsb f = some f.msb
  mask : mask f.width f.lsb = some f.mask
  mask_at_zero : shiftRight 64 f.mask f.lsb = some (f.mask >>> f.lsb)
  reset : shiftLeft 64 f.reset f.lsb = some (f.reset <<< f.lsb)

section

variable {f : Field}

theorem fieldStop_eq (inside : f.stop ≤ 64) : fieldStop f = some f.stop :=
  add_eq (inside.trans_lt (by decide))

theorem mask_eq (inside : f.stop ≤ 64) : mask f.width f.lsb = some f.mask := by
  rw [Field.stop] at inside
  unfold mask
  split
  · rename_i empty
    rw [Field.mask, fieldMask, empty]
    simp
  · have positive : 1 ≤ 1 <<< f.width := by
      rw [Nat.one_shiftLeft]
      exact Nat.one_le_two_pow
    have narrow : (1 <<< f.width - 1) <<< f.lsb < 2 ^ 64 := by
      rw [Nat.one_shiftLeft]
      exact shiftLeft_lt (ones_lt _) inside
    have wide : (1 <<< f.width - 1) <<< f.lsb < 2 ^ 128 := narrow.trans (by decide)
    rw [shiftLeft_one_eq (by omega), Option.bind_eq_bind, Option.bind_some, sub_eq positive,
      Option.bind_some, shiftLeft_eq (by omega) wide, Option.bind_some, fit, if_pos narrow]
    exact congrArg some (Nat.mod_eq_of_lt narrow).symm

theorem fieldExact (positive : 0 < f.width) (inside : f.stop ≤ 64)
    (small : f.reset < 2 ^ f.width) : FieldExact f where
  stop := fieldStop_eq inside
  msb := by
    have above : 1 ≤ f.stop := positive.trans_le (Nat.le_add_left ..)
    rw [fieldMsb, fieldStop_eq inside, Option.bind_eq_bind, Option.bind_some, sub_eq above]
    rfl
  mask := mask_eq inside
  mask_at_zero := shiftRight_eq (by rw [Field.stop] at inside; omega)
  reset := shiftLeft_eq (by rw [Field.stop] at inside; omega) (shiftLeft_lt small inside)

end

def reset (r : Register) : Option Nat :=
  r.fields.foldlM (fun word f => do return word ||| (← shiftLeft 64 f.reset f.lsb)) 0

/-- The padding from one bit to another, if there is any between them. -/
def gap (next stop : Nat) : Option (List BitRun) :=
  if next < stop then do return [.padding (← sub stop next)] else some []

def cover (word : Word) (next : Nat) : List Field → Option (List BitRun)
  | [] => gap next word.bits
  | f :: rest => do
    let before ← gap next f.lsb
    let stop ← fieldStop f
    return before ++ .field f :: (← cover word stop rest)

def bitRows (top : Nat) : List BitRun → Option (List Manual.Row)
  | [] => some []
  | .field f :: rest => do
    let bits := Manual.bitRange (← fieldMsb f) f.lsb
    return ⟨[f.name, bits, Manual.fieldMode f, hexLiteral f.reset], .description f.description⟩ ::
      (← bitRows f.lsb rest)
  | .padding width :: rest => do
    let first ← sub top 1
    let last ← sub top width
    return ⟨["-", Manual.bitRange first last, "-", "0x0"], .words "Reserved"⟩ ::
      (← bitRows last rest)

/-- What is worked out from the fields of a register. -/
structure RegisterExact (word : Word) (r : Register) : Prop where
  fields : ∀ f ∈ r.fields, FieldExact f
  reset : reset r = some r.reset
  bitRuns : cover word 0 r.fieldsByLsb = some (r.bitRuns word)
  bitRows : bitRows word.bits (r.bitRuns word).reverse =
    some (Manual.bitRows word.bits (r.bitRuns word).reverse)

theorem reset_eq {r : Register} (fields : ∀ f ∈ r.fields, FieldExact f) :
    reset r = some r.reset := by
  have all {fields : List Field} (exact : ∀ f ∈ fields, FieldExact f) (start : Nat) :
      fields.foldlM (fun word f => do return word ||| (← shiftLeft 64 f.reset f.lsb)) start =
        some (fields.foldl (fun word f => word ||| (f.reset <<< f.lsb)) start) := by
    induction fields generalizing start with
    | nil => rfl
    | cons f rest ih =>
      obtain ⟨first, others⟩ := List.forall_mem_cons.mp exact
      rw [List.foldlM_cons, first.reset]
      exact ih others _
  exact all fields 0

theorem gap_eq (next stop : Nat) : gap next stop = some (BitRun.gap (stop - next)) := by
  unfold gap BitRun.gap
  split
  · rename_i before
    rw [sub_eq before.le, if_neg (by omega)]
    rfl
  · rw [if_pos (by omega)]

theorem cover_eq {word : Word} {next : Nat} {fields : List Field}
    (exact : ∀ f ∈ fields, FieldExact f) :
    cover word next fields = some (BitRun.cover word next fields) := by
  induction fields generalizing next with
  | nil => exact gap_eq next word.bits
  | cons f rest ih =>
    obtain ⟨first, others⟩ := List.forall_mem_cons.mp exact
    simp only [cover, gap_eq, first.stop, ih others, Option.bind_eq_bind, Option.bind_some]
    rfl

/-- The rows count down from the top of the word without ever passing below bit 0. -/
theorem bitRows_eq {parts : List (Nat × BitRun)} {top : Nat}
    (head : ∀ part ∈ parts.head?, part.1 + part.2.width = top)
    (next : parts.IsChain fun a b => b.1 + b.2.width = a.1)
    (positive : ∀ part ∈ parts, 0 < part.2.width)
    (own : ∀ start f, (start, .field f) ∈ parts → start = f.lsb ∧ FieldExact f) :
    bitRows top (parts.map Prod.snd) = some (Manual.bitRows top (parts.map Prod.snd)) := by
  induction parts generalizing top with
  | nil => rfl
  | cons part rest ih =>
    obtain ⟨start, run⟩ := part
    obtain ⟨follows, after⟩ := List.isChain_cons.mp next
    obtain ⟨wide, others⟩ := List.forall_mem_cons.mp positive
    have later := ih follows after others fun start f inside =>
      own start f (List.mem_cons_of_mem _ inside)
    have ends : start + run.width = top := head _ rfl
    cases run with
    | field f =>
      obtain ⟨rfl, exact⟩ := own start f (List.mem_cons_self ..)
      rw [List.map_cons, bitRows, exact.msb, Manual.bitRows]
      simp only [later, Option.bind_eq_bind, Option.bind_some, Option.pure_def]
    | padding width =>
      rw [BitRun.width] at ends wide
      have last : top - width = start := by omega
      rw [List.map_cons, bitRows, sub_eq (by omega), sub_eq (by omega), Manual.bitRows, last]
      simp only [later, Option.bind_eq_bind, Option.bind_some, Option.pure_def]

theorem registerExact {word : Word} {r : Register} (fitted : r.Fitted word) :
    RegisterExact word r := by
  have fields : ∀ f ∈ r.fields, FieldExact f := fun f within =>
    fieldExact (fitted.width_pos f within) ((fitted.inside f within).trans word.bits_le)
      (fitted.reset f within)
  have sorted : ∀ f ∈ r.fieldsByLsb, FieldExact f := fun f among =>
    fields f (r.fieldsByLsb_perm.mem_iff.mp among)
  have runs : ∀ part ∈ r.runsDown word, part.2 ∈ r.bitRuns word := fun part inside =>
    snd_mem_of_mem_stacked _ (List.mem_reverse.mp inside)
  refine ⟨fields, reset_eq fields, cover_eq sorted, ?_⟩
  rw [← Register.runsDown_map_snd]
  refine bitRows_eq fitted.runsDown_head (Register.runsDown_isChain word r) ?_ ?_
  · exact fun part inside => fitted.run_width_pos (runs part inside)
  · intro start f inside
    have within := BitRun.mem_of_field_mem_cover (runs _ inside)
    exact ⟨fitted.start_eq_lsb (List.mem_reverse.mp inside), sorted f within⟩

/-- Addresses are numbers of 64 bits. -/
def mapStop (m : AddressMap) : Option Nat :=
  match m.registers.getLast? with
  | some r => add 64 r.address m.word.bytes
  | none => some m.base

def spanStop (word : Word) (s : ReservedSpan) : Option Nat := do
  add 64 s.start (← mul 64 s.words word.bytes)

/-- Offsets from the base of a map. -/
def offsets (m : AddressMap) : Option (List Nat) := m.slots.mapM fun s => sub s.address m.base

def size (m : AddressMap) : Option Nat := do sub (← mapStop m) m.base

/-- What targets work out from a map. -/
structure MapExact (m : AddressMap) : Prop where
  registers : ∀ r ∈ m.registers, RegisterExact m.word r
  stop : mapStop m = some m.stop
  spans : ∀ s ∈ m.reserved, spanStop m.word s = some (s.stop m.word)
  offsets : offsets m = some ((Bindings.ofMap m).entries.map Bindings.Entry.offset)
  size : size m = some (Bindings.ofMap m).size

theorem mapStop_eq {m : AddressMap} (ends : m.stop < 2 ^ 64) : mapStop m = some m.stop := by
  rw [AddressMap.stop] at ends ⊢
  rw [mapStop]
  cases last : m.registers.getLast? with
  | none => rfl
  | some r =>
    rw [last] at ends
    exact add_eq ends

theorem spanStop_eq {word : Word} {s : ReservedSpan} (ends : s.stop word < 2 ^ 64) :
    spanStop word s = some (s.stop word) := by
  have size : s.words * word.bytes < 2 ^ 64 := (Nat.le_add_left ..).trans_lt ends
  rw [spanStop, mul_eq size, Option.bind_eq_bind, Option.bind_some]
  exact add_eq ends

theorem mapM_sub_eq {slots : List Slot} {base : Nat} (above : ∀ s ∈ slots, base ≤ s.address) :
    slots.mapM (fun s => sub s.address base) = some (slots.map fun s => s.address - base) := by
  induction slots with
  | nil => rfl
  | cons slot rest ih =>
    obtain ⟨first, others⟩ := List.forall_mem_cons.mp above
    rw [List.mapM_cons, sub_eq first, ih others]
    rfl

theorem entriesOf_offsets (word : Word) (base index : Nat) (slots : List Slot) :
    (Bindings.entriesOf word base index slots).map Bindings.Entry.offset =
      slots.map fun s => s.address - base := by
  induction slots generalizing index with
  | nil => rfl
  | cons slot rest ih => cases slot with
    | register r => exact congrArg ((r.address - base) :: ·) (ih index)
    | reserved s => exact congrArg ((s.start - base) :: ·) (ih (index + 1))

end FixedWidth

open FixedWidth in
theorem Description.Sound.mapExact {config : Config} {word : Word} {d : Description}
    (sound : d.Sound config word) : MapExact (d.mapOf config word) where
  registers r inside := by
    obtain ⟨entry, member, rfl⟩ := List.mem_map.mp ((byAddress_perm _).mem_iff.mp inside)
    exact registerExact (sound.registers entry member).fitted
  stop := mapStop_eq sound.ends.stop
  spans s inside := spanStop_eq ((sound.span_stop_le s inside).trans_lt sound.ends.stop)
  offsets := by
    rw [Bindings.ofMap, entriesOf_offsets]
    exact mapM_sub_eq sound.base_le_address
  size := by
    rw [size, mapStop_eq sound.ends.stop, Option.bind_eq_bind, Option.bind_some]
    exact sub_eq sound.tiles.start_le_stop

end RegisterMap
