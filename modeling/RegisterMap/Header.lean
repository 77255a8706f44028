import RegisterMap.AddressMap
import RegisterMap.BitRun
import RegisterMap.Numeral.Literal
import RegisterMap.Text.LetterCase

namespace RegisterMap.Header

/-- A member of the bit-field view of a register. -/
inductive BitMember where
  | field (name : String) (width : Nat) (description : String)
  | padding (width : Nat)
  deriving DecidableEq, Repr

structure Enumerator where
  name : String
  value : Nat
  description : String
  deriving DecidableEq, Repr

/-- A member of the structure of a map. A register is a union of its word and its bit fields. -/
inductive MapMember where
  | reserved (index words : Nat)
  | register (access : Access) (name bits description : String)
  deriving DecidableEq, Repr

/-- What a C header says about a map, one declaration after the other. -/
inductive Declaration where
  | remark (subject description : String)
  | define (name : String) (value : Literal)
  /-- The type of the bit-field view of a register. -/
  | bits (name : String) (members : List BitMember)
  /-- The type of the named values of a field. -/
  | values (name : String) (enumerators : List Enumerator)
  /-- The type of a map. -/
  | map (name : String) (members : List MapMember)
  /-- A map at its base address. -/
  | overlay (name map base : String)
  | space
  deriving DecidableEq, Repr

/-- The names that all names of a header begin with: `capital` for constants, `small` for types. -/
structure Lead where
  capital : String
  small : String
  deriving DecidableEq, Repr

def Lead.of (name : String) : Lead where
  capital := toCapitals name
  small := toSmallLetters (toCapitals name)

namespace Lead

variable (lead : Lead)

/-- A constant: the parts of its name after the lead. -/
def constant (parts : List String) : String := "_".intercalate (lead.capital :: parts)

def typeName (parts : List String) : String := "_".intercalate (lead.small :: parts ++ ["t"])

end Lead

def BitMember.ofRun : BitRun → BitMember
  | .field f => .field f.name f.width f.description
  | .padding width => .padding width

section

variable (lead : Lead) (word : Word)

/-- The declarations for a field of a register. -/
def fieldDeclarations (r : Register) (f : Field) : List Declaration :=
  let parts := [asciiUpper r.name, asciiUpper f.name]
  let constants : List Declaration :=
    [.define (lead.constant (parts ++ ["WIDTH"])) (.decimal f.width),
      .define (lead.constant (parts ++ ["LSB"])) (.decimal f.lsb),
      .define (lead.constant (parts ++ ["MASK"])) (.hex f.mask),
      .define (lead.constant (parts ++ ["RESET"])) (.hex f.reset)]
  let values : List Declaration :=
    if f.values.isEmpty then []
    else
      [.values (lead.typeName [asciiLower r.name, asciiLower f.name])
        (f.values.map fun v =>
          ⟨lead.constant (parts ++ [asciiUpper v.name]), v.value, v.description⟩)]
  .remark (r.name ++ "." ++ f.name) f.description :: constants ++ values ++ [.space]

/-- The declarations for a register and its fields. -/
def registerDeclarations (r : Register) : List Declaration :=
  [.remark r.name r.description,
    .define (lead.constant [asciiUpper r.name, "ADDR"]) (.hex r.address),
    .define (lead.constant [asciiUpper r.name, "RESET"]) (.hex r.reset),
    .bits (lead.typeName [asciiLower r.name]) ((r.bitRuns word).map .ofRun),
    .space] ++
  r.fields.flatMap (fieldDeclarations lead r)

/-- The members for registers and reserved spans in turn. Reserved spans are counted. -/
def mapMembers (index : Nat) : List Slot → List MapMember
  | [] => []
  | .reserved s :: rest => .reserved index s.words :: mapMembers (index + 1) rest
  | .register r :: rest =>
    .register r.access r.name (lead.typeName [asciiLower r.name]) r.description ::
      mapMembers index rest

/-- Every slot of a map is one member. -/
@[simp] theorem length_mapMembers (index : Nat) (slots : List Slot) :
    (mapMembers lead index slots).length = slots.length := by
  induction slots generalizing index with
  | nil => rfl
  | cons slot rest ih => cases slot <;> simp [mapMembers, ih]

end

/-- All declarations for a map. -/
def declarations (lead : Lead) (m : AddressMap) : List Declaration :=
  [.define (lead.constant ["BASE_ADDR"]) (.hex m.base), .space] ++
  m.registers.flatMap (registerDeclarations lead m.word) ++
  [.space, .remark "Register map structure" "", .map (lead.typeName []) (mapMembers lead 0 m.slots),
    .space, .overlay lead.capital (lead.typeName []) (lead.constant ["BASE_ADDR"]), .space]

end RegisterMap.Header
