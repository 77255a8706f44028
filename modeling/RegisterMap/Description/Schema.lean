import RegisterMap.Description
import RegisterMap.Document.Schema

namespace RegisterMap

/-- Access modes by name, each with its long and its short one. -/
def accessNames : List (String × Access) :=
  [("read-only", .readOnly), ("ro", .readOnly), ("wo", .writeOnly), ("write-only", .writeOnly),
    ("read-write", .readWrite), ("rw", .readWrite)]

def decodeAccess : Decoder Access := decodeVariant accessNames

def modifierNames : List (String × Modifier) := Modifier.all.map fun m => (m.name, m)

def decodeModifier : Decoder Modifier := decodeVariant modifierNames

inductive ValueKey where
  | name
  | value
  | description
  deriving DecidableEq

def valueSchema : Schema ValueKey where
  title := "struct EnumDesc"
  keys := [.name, .value, .description]
  name
    | .name => "name"
    | .value => "value"
    | .description => "description"
  spellings
    | .name => ["name"]
    | .value => ["value"]
    | .description => ["description"]
  Value
    | .name | .description => String
    | .value => UInt64
  fallback
    | .name | .value => none
    | .description => some ""
  decode
    | .name | .description => decodeText
    | .value => decodeWord64

def decodeValueEntry : Decoder ValueEntry := valueSchema.record fun get => do
  let name ← get .name
  let value ← get .value
  let description ← get .description
  return { name, value, description }

inductive FieldKey where
  | name
  | description
  | width
  | lsb
  | access
  | modifiers
  | reset
  | values
  deriving DecidableEq

def fieldSchema : Schema FieldKey where
  title := "struct FieldDesc"
  keys := [.name, .description, .width, .lsb, .access, .modifiers, .reset, .values]
  name
    | .name => "name"
    | .description => "description"
    | .width => "width"
    | .lsb => "lsb"
    | .access => "access"
    | .modifiers => "modifiers"
    | .reset => "reset"
    | .values => "enums"
  spellings
    | .name => ["name"]
    | .description => ["description"]
    | .width => ["width"]
    | .lsb => ["lsb"]
    | .access => ["access"]
    | .modifiers => ["modifiers"]
    | .reset => ["initial", "reset"]
    | .values => ["enum_values", "enums"]
  Value
    | .name | .description => String
    | .width | .lsb => UInt32
    | .access => Access
    | .modifiers => List Modifier
    | .reset => UInt64
    | .values => List ValueEntry
  fallback
    | .name => none
    | .description => some ""
    | .width => some (1 : UInt32)
    | .lsb => some (0 : UInt32)
    | .access => some Access.readWrite
    | .modifiers => some []
    | .reset => some (0 : UInt64)
    | .values => some []
  decode
    | .name | .description => decodeText
    | .width | .lsb => decodeWord32
    | .access => decodeAccess
    | .modifiers => decodeList decodeModifier
    | .reset => decodeWord64
    | .values => decodeList decodeValueEntry

def decodeFieldEntry : Decoder FieldEntry := fieldSchema.record fun get => do
  let name ← get .name
  let description ← get .description
  let width ← get .width
  let lsb ← get .lsb
  let access ← get .access
  let modifiers ← get .modifiers
  let reset ← get .reset
  let values ← get .values
  return { name, description, width, lsb, access, modifiers, reset, values }

inductive RegisterKey where
  | name
  | description
  | address
  | fields
  deriving DecidableEq

def registerSchema : Schema RegisterKey where
  title := "struct RegisterDesc"
  keys := [.name, .description, .address, .fields]
  name
    | .name => "name"
    | .description => "description"
    | .address => "address"
    | .fields => "fields"
  spellings
    | .name => ["name"]
    | .description => ["description"]
    | .address => ["address"]
    | .fields => ["bitfields", "fields"]
  Value
    | .name | .description => String
    | .address => UInt64
    | .fields => List FieldEntry
  fallback
    | .name | .address => none
    | .description => some ""
    | .fields => some []
  decode
    | .name | .description => decodeText
    | .address => decodeWord64
    | .fields => decodeList decodeFieldEntry

def decodeRegisterEntry : Decoder RegisterEntry := registerSchema.record fun get => do
  let name ← get .name
  let description ← get .description
  let address ← get .address
  let fields ← get .fields
  return { name, description, address, fields }

inductive MapKey where
  | name
  | base
  | registers
  deriving DecidableEq

def mapSchema : Schema MapKey where
  title := "struct RegisterMapDesc"
  keys := [.name, .base, .registers]
  name
    | .name => "name"
    | .base => "base_address"
    | .registers => "registers"
  spellings
    | .name => ["name"]
    | .base => ["base_address"]
    | .registers => ["registers"]
  Value
    | .name => String
    | .base => UInt64
    | .registers => List RegisterEntry
  fallback
    | .name => none
    | .base => some (0 : UInt64)
    | .registers => some []
  decode
    | .name => decodeText
    | .base => decodeWord64
    | .registers => decodeList decodeRegisterEntry

def decodeDescription : Decoder Description := mapSchema.record fun get => do
  let name ← get .name
  let base ← get .base
  let registers ← get .registers
  return { name, base, registers }

end RegisterMap
