import RegisterMap.AddressMap
import RegisterMap.Name.Styles
import RegisterMap.Numeral.Literal

namespace RegisterMap

namespace Bindings

/-- An unsigned integer type. -/
inductive IntType where
  | u8
  | u16
  | u32
  | u64
  deriving DecidableEq, Repr

namespace IntType

def name : IntType → String
  | u8 => "u8"
  | u16 => "u16"
  | u32 => "u32"
  | u64 => "u64"

def bits : IntType → Nat
  | u8 => 8
  | u16 => 16
  | u32 => 32
  | u64 => 64

/-- The type of a storage word. -/
def ofWord : Word → IntType
  | .w8 => u8
  | .w16 => u16
  | .w32 => u32
  | .w64 => u64

/-- The type of the addresses of a map, chosen by where the map ends. -/
def ofAddresses (m : AddressMap) : IntType := if m.stop ≤ UInt32.size then u32 else u64

@[simp] theorem bits_ofWord (word : Word) : (ofWord word).bits = word.bits := by
  cases word <;> rfl

end IntType

structure Constant where
  name : String
  type : IntType
  value : Literal
  deriving DecidableEq, Repr

/-- The constants of one register. -/
structure Constants where
  description : String
  constants : List Constant
  deriving DecidableEq, Repr

structure BitsValue where
  name : String
  value : Literal
  deriving DecidableEq, Repr

structure BitsField where
  name : String
  description : String
  offset : Nat
  width : Nat
  values : List BitsValue
  deriving DecidableEq, Repr

/-- The type of the fields of a register, from the lowest bit upwards. -/
structure BitsType where
  name : String
  fields : List BitsField
  deriving DecidableEq, Repr

/-- What a map holds at an offset. A register that has a type for its fields names it. -/
inductive Content where
  | reserved (index : Nat)
  | register (name : String) (access : Access) (bits : Option String)
  deriving DecidableEq, Repr

structure Entry where
  offset : Nat
  content : Content
  deriving DecidableEq, Repr

end Bindings

/-- Rust code for a map, in terms of the `tock-registers` library. Offsets count from the base of
the map, and `size` is where it ends. -/
structure Bindings where
  base : Bindings.Constant
  word : Bindings.IntType
  constants : List Bindings.Constants
  bits : List Bindings.BitsType
  name : String
  entries : List Bindings.Entry
  size : Nat
  deriving DecidableEq, Repr

namespace Bindings

/-- A register whose one field is the whole word, without named values, is used as it is. Any other
one gets a type for its fields. -/
def hasBits (word : Word) (r : Register) : Bool :=
  match r.fields with
  | [f] => !(f.lsb == 0 && f.width == word.bits && f.values.isEmpty)
  | _ => true

def fieldConstants (word : Word) (register : String) (f : Field) : List Constant :=
  let name := asciiUpper register ++ "_" ++ asciiUpper f.name
  [⟨name ++ "_WIDTH", .u32, .decimal f.width⟩,
    ⟨name ++ "_LSB", .u32, .decimal f.lsb⟩,
    ⟨name ++ "_MASK", .ofWord word, .grouped f.mask⟩,
    ⟨name ++ "_RESET", .ofWord word, .grouped f.reset⟩]

def registerConstants (addresses : IntType) (word : Word) (r : Register) : Constants where
  description := r.description
  constants :=
    [⟨asciiUpper r.name ++ "_ADDR", addresses, .grouped r.address⟩,
      ⟨asciiUpper r.name ++ "_RESET", .ofWord word, .grouped r.reset⟩] ++
    r.fields.flatMap (fieldConstants word r.name)

def BitsField.of (f : Field) : BitsField where
  name := camelCase f.name
  description := f.description
  offset := f.lsb
  width := f.width
  values := f.values.map fun v => ⟨camelCase v.name, .grouped v.value⟩

def BitsType.of (r : Register) : BitsType where
  name := camelCase r.name
  fields := r.fieldsByLsb.map .of

/-- Registers and reserved spans at their offsets. Reserved spans are counted. -/
def entriesOf (word : Word) (base index : Nat) : List Slot → List Entry
  | [] => []
  | .reserved s :: rest =>
    ⟨s.start - base, .reserved index⟩ :: entriesOf word base (index + 1) rest
  | .register r :: rest =>
    ⟨r.address - base,
      .register (snakeCase r.name) r.access
        (if hasBits word r then some (camelCase r.name) else none)⟩ ::
      entriesOf word base index rest

def ofMap (m : AddressMap) : Bindings where
  base := ⟨asciiUpper (snakeCase m.name) ++ "_ADDR", .ofAddresses m, .grouped m.base⟩
  word := .ofWord m.word
  constants := m.registers.map (registerConstants (.ofAddresses m) m.word)
  bits := (m.registers.filter (hasBits m.word)).map .of
  name := camelCase m.name
  entries := entriesOf m.word m.base 0 m.slots
  size := m.stop - m.base

/-- Every slot of a map is one entry. -/
@[simp] theorem length_entriesOf (word : Word) (base index : Nat) (slots : List Slot) :
    (entriesOf word base index slots).length = slots.length := by
  induction slots generalizing index with
  | nil => rfl
  | cons slot rest ih => cases slot <;> simp [entriesOf, ih]

end Bindings

end RegisterMap
