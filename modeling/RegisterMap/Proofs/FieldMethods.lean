import RegisterMap.Proofs.FieldBits
import RegisterMap.Proofs.PropertyLines
import RegisterMap.Proofs.SameNumbers
import Mathlib.Data.Int.Bitwise

namespace RegisterMap.Accessors

inductive Operator where
  | and
  | or
  | shiftLeft
  | shiftRight
  deriving DecidableEq, Repr

/-- What methods calculate with: names of their own and constants of the map. -/
inductive Expr where
  | own (name : String)
  | constant (name : String)
  | complement (a : Expr)
  | binary (op : Operator) (a b : Expr)
  deriving DecidableEq, Repr

/-- A line in a method. Words of registers go through the bus that the map has. -/
inductive Step where
  | reads (name address : String)
  | assigns (name : String) (value : Expr)
  | writes (address : String) (value : Expr)
  | returns (value : Expr)
  deriving DecidableEq, Repr

namespace Operator

def text : Operator → String
  | and => "&"
  | or => "|"
  | shiftLeft => "<<"
  | shiftRight => ">>"

/-- Integers have no last bit: those below zero begin with ones without end. No shift goes by a
number below zero. -/
def apply : Operator → Int → Int → Option Int
  | and, a, b => some (a.land b)
  | or, a, b => some (a.lor b)
  | shiftLeft, a, b => if 0 ≤ b then some (a <<< b.toNat) else none
  | shiftRight, a, b => if 0 ≤ b then some (a >>> b.toNat) else none

end Operator

namespace Expr

/-- What is put together stands in brackets inside another expression, so that it does not matter
which operator goes first. -/
def inner : Expr → String
  | own name => name
  | constant name => "self._rmap." ++ name
  | complement a => "(~" ++ a.inner ++ ")"
  | binary op a b => "(" ++ a.inner ++ " " ++ op.text ++ " " ++ b.inner ++ ")"

def text : Expr → String
  | complement a => "~" ++ a.inner
  | binary op a b => a.inner ++ " " ++ op.text ++ " " ++ b.inner
  | name => name.inner

def eval (constants : List (String × Nat)) (names : List (String × Int)) : Expr → Option Int
  | own name => names.lookup name
  | constant name => (constants.lookup name).map Nat.cast
  | complement a => (a.eval constants names).map Int.lnot
  | binary op a b => do
    let left ← a.eval constants names
    let right ← b.eval constants names
    op.apply left right

end Expr

def Step.line : Step → Line
  | reads name address =>
    "        " ++ name ++ " = self._rmap._if.read(self._rmap." ++ address ++ ")"
  | assigns name value => "        " ++ name ++ " = " ++ value.text
  | writes address value =>
    "        self._rmap._if.write(self._rmap." ++ address ++ ", " ++ value.text ++ ")"
  | returns value => "        return " ++ value.text

/-- A bus that gives back what was written last. -/
abbrev Bus := Nat → Int

/-- What a method returns and what it leaves on the bus. There is nothing where it fails. -/
def run (constants : List (String × Nat)) :
    List Step → List (String × Int) → Bus → Option (Option Int × Bus)
  | [], _, bus => some (none, bus)
  | .reads name address :: steps, names, bus => do
    let place ← constants.lookup address
    run constants steps ((name, bus place) :: names) bus
  | .assigns name value :: steps, names, bus => do
    let number ← value.eval constants names
    run constants steps ((name, number) :: names) bus
  | .writes address value :: steps, names, bus => do
    let place ← constants.lookup address
    let number ← value.eval constants names
    run constants steps names (Function.update bus place number)
  | .returns value :: _, names, bus => do
    let number ← value.eval constants names
    return (some number, bus)

/-- Lines are the same letter by letter. -/
theorem plain_cons {code text : String} {lines more : List Line} (same : code.toList = text.toList)
    (rest : lines = more) : Line.plain code :: lines = .plain text :: more := by
  rw [String.toList_inj.mp same, rest]

section

variable (r : Register) (f : Field)

/-- How the bits of a field are taken out of the word of its register. -/
def getter : List Step :=
  [.reads "rdata" (asciiUpper r.name ++ "_ADDR"),
    .returns (.binary .and (.binary .shiftRight (.own "rdata") (.constant (f.capitals r ++ "_POS")))
      (.constant (f.capitals r ++ "_MSK")))]

/-- How the bits of a field are replaced in the word of its register. -/
def setter : List Step :=
  let position : Expr := .constant (f.capitals r ++ "_POS")
  let mask : Expr := .constant (f.capitals r ++ "_MSK")
  [.reads "rdata" (asciiUpper r.name ++ "_ADDR"),
    .assigns "rdata"
      (.binary .and (.own "rdata") (.complement (.binary .shiftLeft mask position))),
    .assigns "rdata"
      (.binary .or (.own "rdata") (.binary .shiftLeft (.binary .and (.own "val") mask) position)),
    .writes (asciiUpper r.name ++ "_ADDR") (.own "rdata")]

theorem readLines_eq :
    (Property.ofField r.name f).place.readLines = (getter r f).map Step.line := by
  simp only [Property.ofField, Place.readLines, getter, List.map_cons, List.map_nil, Step.line,
    Expr.text, Expr.inner, Operator.text, Field.capitals]
  refine plain_cons ?_ (plain_cons ?_ rfl) <;> simp

theorem writeLines_eq :
    (Property.ofField r.name f).place.writeLines = (setter r f).map Step.line := by
  simp only [Property.ofField, Place.writeLines, setter, List.map_cons, List.map_nil, Step.line,
    Expr.text, Expr.inner, Operator.text, Field.capitals]
  refine plain_cons ?_ (plain_cons ?_ (plain_cons ?_ (plain_cons ?_ rfl))) <;> simp

end

/-- The numbers that the methods of a field look up. -/
structure Known (constants : List (String × Nat)) (r : Register) (f : Field) : Prop where
  address : constants.lookup (asciiUpper r.name ++ "_ADDR") = some r.address
  reset : constants.lookup (asciiUpper r.name ++ "_RESET") = some r.reset
  position : constants.lookup (f.capitals r ++ "_POS") = some f.lsb
  mask : constants.lookup (f.capitals r ++ "_MSK") = some (f.mask >>> f.lsb)

section

variable {constants : List (String × Nat)} {r : Register} {f : Field}
  (known : Known constants r f) {bus : Bus} {w : Nat} (holds : bus r.address = w)
include known holds

theorem run_getter :
    run constants (getter r f) [] bus = some (some ((f.extract w : Nat) : Int), bus) := by
  simp [getter, run, Expr.eval, Operator.apply, known.address, known.position, known.mask, holds]
  rfl

theorem run_setter {v : Int} {n : Nat} (masked : v.land ((f.mask >>> f.lsb : Nat) : Int) = n)
    (moved : f.mask >>> f.lsb <<< f.lsb = f.mask) :
    run constants (setter r f) [("val", v)] bus =
      some (none, Function.update bus r.address ((f.insert n w : Nat) : Int)) := by
  have cleared : Int.land w (Int.lnot (((f.mask >>> f.lsb : Nat) : Int) <<< f.lsb)) =
      ((w.ldiff f.mask : Nat) : Int) := by
    rw [← Int.natCast_shiftLeft, moved]
    rfl
  have joined : Int.lor ((w.ldiff f.mask : Nat) : Int) ((n : Int) <<< f.lsb) =
      ((f.insert n w : Nat) : Int) := by
    rw [← Int.natCast_shiftLeft]
    rfl
  simp [setter, run, Expr.eval, Operator.apply, known.address, known.position, known.mask, holds,
    List.lookup_cons, masked, cleared, joined, -Int.natCast_shiftRight]

end

/-- All ones leave of an integer what fits in as many bits. -/
theorem land_ones (v : Int) (width : Nat) :
    ∃ n < 2 ^ width, v.land ((2 ^ width - 1 : Nat) : Int) = (n : Nat) := by
  cases v with
  | ofNat k => exact ⟨k &&& (2 ^ width - 1), Nat.and_lt_two_pow _ (ones_lt width), rfl⟩
  | negSucc k =>
    have fewer := ldiff_le (2 ^ width - 1) k
    exact ⟨(2 ^ width - 1).ldiff k, fewer.trans_lt (ones_lt width), rfl⟩

theorem land_ones_eq_iff {v : Int} {width : Nat} :
    v.land ((2 ^ width - 1 : Nat) : Int) = v ↔ 0 ≤ v ∧ v < 2 ^ width := by
  constructor
  · intro same
    obtain ⟨n, small, masked⟩ := land_ones v width
    rw [← same, masked]
    exact ⟨Int.natCast_nonneg n, by exact_mod_cast small⟩
  · rintro ⟨positive, small⟩
    obtain ⟨k, rfl⟩ := Int.eq_ofNat_of_zero_le positive
    have below : k < 2 ^ width := by exact_mod_cast small
    refine congrArg Nat.cast (?_ : k &&& (2 ^ width - 1) = k)
    rw [Nat.and_two_pow_sub_one_eq_mod, Nat.mod_eq_of_lt below]

section

variable (constants : List (String × Nat)) (word : Word) (r : Register) (f : Field)

/-- The bus has a word of the right length for a register. -/
def Holds (bus : Bus) : Prop := 0 ≤ bus r.address ∧ bus r.address < 2 ^ word.bits

/-- The getter of a field gives a number. -/
def Gives (bus : Bus) (n : Int) : Prop := run constants (getter r f) [] bus = some (some n, bus)

/-- The setter of a field makes one bus another one. -/
def Leads (v : Int) (bus after : Bus) : Prop :=
  run constants (setter r f) [("val", v)] bus = some (none, after)

/-- A field is set to a number, or to as much of it as fits. Nothing else changes. -/
structure Replaces (v : Int) (bus after : Bus) : Prop where
  leads : Leads constants r f v bus after
  holds : Holds word r after
  elsewhere : ∀ place ≠ r.address, after place = bus place
  own : Gives constants r f after (v.land ((2 ^ f.width - 1 : Nat) : Int))
  others : ∀ g ∈ r.fields, g ≠ f → ∀ n, Gives constants r g after n ↔ Gives constants r g bus n
  /-- Bits of no field. -/
  gaps : ∀ i, (∀ g ∈ r.fields, i ∉ g.bits) →
    (after r.address).testBit i = (bus r.address).testBit i

/-- A field can be looked at and replaced in the word of its register. -/
structure Lens : Prop where
  position : constants.lookup (f.capitals r ++ "_POS") = some f.lsb
  mask : constants.lookup (f.capitals r ++ "_MSK") = some (2 ^ f.width - 1)
  fits : ∀ v : Int, v.land ((2 ^ f.width - 1 : Nat) : Int) = v ↔ 0 ≤ v ∧ v < 2 ^ f.width
  gives : ∀ bus, Holds word r bus → ∃ n, Gives constants r f bus n
  replaces : ∀ bus v, Holds word r bus → ∃ after, Replaces constants word r f v bus after
  /-- What was looked at can be put back. -/
  back : ∀ bus n, Holds word r bus → Gives constants r f bus n → Leads constants r f n bus bus
  /-- What is put in last remains. -/
  again : ∀ bus v u between after, Holds word r bus → Leads constants r f v bus between →
    Leads constants r f u between after → Leads constants r f u bus after
  reset : ∃ start : Nat, constants.lookup (asciiUpper r.name ++ "_RESET") = some start ∧
    ∀ bus : Bus, bus r.address = start → Gives constants r f bus f.reset

end

section

variable {constants : List (String × Nat)} {word : Word} {r : Register} {f : Field} {bus : Bus}

theorem Holds.exists_word (holds : Holds word r bus) :
    ∃ w : Nat, w < 2 ^ word.bits ∧ bus r.address = w := by
  obtain ⟨positive, short⟩ := holds
  obtain ⟨w, same⟩ := Int.eq_ofNat_of_zero_le positive
  rw [same] at short
  exact ⟨w, by exact_mod_cast short, same⟩

section

variable (known : Known constants r f) {w : Nat} (same : bus r.address = w)
include known same

theorem gives_iff {n : Int} : Gives constants r f bus n ↔ n = (f.extract w : Nat) := by
  rw [Gives, run_getter known same]
  simp [eq_comm]

variable (inside : f.stop ≤ 64)
include inside

theorem leads_iff {v : Int} {after : Bus} : Leads constants r f v bus after ↔
    ∃ n < 2 ^ f.width, v.land ((2 ^ f.width - 1 : Nat) : Int) = (n : Nat) ∧
      after = Function.update bus r.address ((f.insert n w : Nat) : Int) := by
  obtain ⟨n, small, masked⟩ := land_ones v f.width
  have moved := masked
  rw [← Field.moved_mask inside] at moved
  rw [Leads, run_setter known same moved (Field.moved_mask_shiftLeft inside)]
  constructor
  · intro led
    simp only [Option.some.injEq, Prod.mk.injEq, true_and] at led
    exact ⟨n, small, masked, led.symm⟩
  · rintro ⟨k, -, other, rfl⟩
    rw [masked, Nat.cast_inj] at other
    rw [other]

end

section

variable (fitted : r.Fitted word) (within : f ∈ r.fields)
  (known : ∀ g ∈ r.fields, Known constants r g)
include fitted within known

/-- A number in the bits of a field, as far as it fits there. -/
theorem replaces_insert {w n : Nat} {v : Int} (short : w < 2 ^ word.bits)
    (same : bus r.address = w) (small : n < 2 ^ f.width)
    (masked : v.land ((2 ^ f.width - 1 : Nat) : Int) = n) :
    Replaces constants word r f v bus
      (Function.update bus r.address ((f.insert n w : Nat) : Int)) := by
  have inside := fitted.inside64 within
  have length := Field.insert_lt (fitted.inside f within) small short
  have result : Function.update bus r.address ((f.insert n w : Nat) : Int) r.address =
      (f.insert n w : Nat) := Function.update_self ..
  constructor
  case leads => exact (leads_iff (known f within) same inside).mpr ⟨n, small, masked, rfl⟩
  case holds =>
    rw [Holds, result]
    exact ⟨Int.natCast_nonneg _, by exact_mod_cast length⟩
  case elsewhere => exact fun place other => Function.update_of_ne other ..
  case own =>
    rw [gives_iff (known f within) result, Field.extract_insert inside small, masked]
  case others =>
    intro g other differ k
    rw [gives_iff (known g other) result, gives_iff (known g other) same,
      fitted.extract_insert_of_ne within other differ small]
  case gaps =>
    intro i free
    have bit : (f.insert n w).testBit i = w.testBit i := by
      rw [Field.testBit_insert inside small, if_neg (free f within)]
    rwa [result, same]

theorem lens : Lens constants word r f := by
  have inside := fitted.inside64 within
  have own := known f within
  constructor
  case position => exact own.position
  case mask => exact Field.moved_mask inside ▸ own.mask
  case fits => exact fun v => land_ones_eq_iff
  case gives =>
    intro bus holds
    obtain ⟨w, -, same⟩ := holds.exists_word
    exact ⟨_, (gives_iff own same).mpr rfl⟩
  case replaces =>
    intro bus v holds
    obtain ⟨w, short, same⟩ := holds.exists_word
    obtain ⟨n, small, masked⟩ := land_ones v f.width
    exact ⟨_, replaces_insert fitted within known short same small masked⟩
  case back =>
    intro bus n holds gives
    obtain ⟨w, -, same⟩ := holds.exists_word
    rw [gives_iff own same] at gives
    have small := Field.extract_lt inside w
    refine (leads_iff own same inside).mpr ⟨f.extract w, small, ?_, ?_⟩
    · rw [gives, land_ones_eq_iff]
      exact ⟨Int.natCast_nonneg _, by exact_mod_cast small⟩
    · rw [Field.insert_extract inside, ← same, Function.update_eq_self]
  case again =>
    intro bus v u between after holds first second
    obtain ⟨w, -, same⟩ := holds.exists_word
    obtain ⟨k, early, -, rfl⟩ := (leads_iff own same inside).mp first
    obtain ⟨n, small, masked, rfl⟩ :=
      (leads_iff own (Function.update_self ..) inside).mp second
    refine (leads_iff own same inside).mpr ⟨n, small, masked, ?_⟩
    rw [Function.update_idem, Field.insert_insert inside small early]
  case reset =>
    refine ⟨r.reset, own.reset, fun bus same => ?_⟩
    rw [gives_iff own same, fitted.extract_reset within]

end

end

/-- The methods of a field, as far as access to it is allowed. -/
structure Printed (content : String) (r : Register) (f : Field) : Prop where
  getter : f.access.canRead = true →
    Stand ([.plain ("    def " ++ attributeName f.name ++ "(self):"),
      docLine "        " f.description f.access] ++ (getter r f).map Step.line) content
  setter : f.access.canWrite = true →
    Stand (.plain ("    def " ++ attributeName f.name ++ "(self, val):") ::
      (setter r f).map Step.line) content

section

variable {m : AddressMap} {r : Register} (among : r ∈ m.registers) {f : Field}
  (within : f ∈ r.fields)
include among within

theorem printed (whole : m.Unbroken) (path : Path) : Printed (artifact path m).content r f := by
  have stand : Stand (Property.ofField r.name f).lines (artifact path m).content :=
    stand_property whole path (mem_properties_iff.mpr ⟨r, among, Or.inl ⟨f, within, rfl⟩⟩)
  rw [Property.lines_eq] at stand
  constructor
  · intro readable
    have reading : (Property.ofField r.name f).readLines = (getter r f).map Step.line :=
      (if_pos readable).trans (readLines_eq r f)
    rw [← reading]
    exact stand.mono (List.infix_append ..)
  · intro writable
    have writing : (Property.ofField r.name f).writeLines = (setter r f).map Step.line :=
      (if_pos writable).trans (writeLines_eq r f)
    rw [← writing]
    exact stand.mono ((List.suffix_append ..).trans (List.suffix_append ..)).isInfix

theorem known (distinct : (m.allNumbers.map Prod.fst).Nodup) (whole : m.Unbroken) (path : Path) :
    Known (constantsIn (artifact path m).content) r f := by
  rw [constantsIn_artifact whole]
  have unique := distinct.sublist (m.accessNumbers_sublist.map _)
  have register : r.ownNumbers ⊆ m.tables.accessors := ownNumbers_subset among (by simp)
  have field := accessNumbers_subset among within
  exact ⟨lookup_of_mem unique (register (by simp [Register.ownNumbers])),
    lookup_of_mem unique (register (by simp [Register.ownNumbers])),
    lookup_of_mem unique (field (by simp [Field.accessNumbers])),
    lookup_of_mem unique (field (by simp [Field.accessNumbers]))⟩

end

/-- In accessors for a compiled map, getter and setter of a field are a lens on the word of the
register, by the constants of the same file. -/
theorem compile_lenses {config : Config} {d : Description} {m : AddressMap}
    (compiled : compile config d = .ok m) (path : Path) :
    ∀ r ∈ m.registers, ∀ f ∈ r.fields, Printed (artifact path m).content r f ∧
      Lens (constantsIn (artifact path m).content) m.word r f := by
  have fitted := compile_fitted compiled
  obtain ⟨word, sound, rfl⟩ := compile_eq_ok_iff.mp compiled
  intro r among f within
  refine ⟨printed among within sound.unbroken path, ?_⟩
  refine lens (fitted r among) within fun g other => ?_
  exact known among other sound.allNumbers_nodup sound.unbroken path

/-- The lower field of a latch, which is only written. -/
def low : Field := { name := "LOW", description := "", width := 3, lsb := 1, access := .writeOnly,
                     modifiers := [], reset := 5, values := [] }

theorem latch_lens : compile { dataWidth := 64 } counter =
      .ok (counter.mapOf { dataWidth := 64 } .w64) ∧
    latch.built .asWritten ∈ (counter.mapOf { dataWidth := 64 } .w64).registers ∧
    low ∈ (latch.built .asWritten).fields ∧
    Printed (artifact ⟨"counter.py"⟩ (counter.mapOf { dataWidth := 64 } .w64)).content
      (latch.built .asWritten) low ∧
    Lens (constantsIn (artifact ⟨"counter.py"⟩ (counter.mapOf { dataWidth := 64 } .w64)).content)
      .w64 (latch.built .asWritten) low ∧
    (run [("LATCH_ADDR", 8), ("LATCH_LOW_POS", 1), ("LATCH_LOW_MSK", 7)]
      (setter (latch.built .asWritten) low) [("val", -3)] fun _ => 0x9000_0000_0000_0000).map
        (fun result => result.2 8) = some 0x9000_0000_0000_000a := by
  have within : low ∈ (latch.built .asWritten).fields := by decide +kernel
  obtain ⟨printed, lens⟩ := compile_lenses compile_counter ⟨"counter.py"⟩ _ latch_mem low within
  exact ⟨compile_counter, latch_mem, within, printed, lens, by decide +kernel⟩

end RegisterMap.Accessors
