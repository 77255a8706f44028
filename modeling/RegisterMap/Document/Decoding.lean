import RegisterMap.Document.Node
import RegisterMap.Document.Problem

namespace RegisterMap

/-- Takes a value out of a node. -/
abbrev Decoder (α : Type) := Format → Node → Except Problem α

namespace Node

/-- The failure at a node of the wrong kind. A node that could not be read is malformed. -/
def mismatch {α : Type} (node : Node) (expected : String) : Except Problem α :=
  match node with
  | broken => .error .malformed
  | _ => .error (.wrongType node.shown expected)

end Node

/-- A text; `expected` is what a message calls it. -/
def decodeTextAs (expected : String) : Decoder String
  | _, .text s => .ok s
  | _, node => node.mismatch expected

def decodeText : Decoder String := decodeTextAs "a string"

def decodeBool : Decoder Bool
  | _, .bool b => .ok b
  | _, node => node.mismatch "a boolean"

/-- A list whose items are decoded one after the other. -/
def decodeList {α : Type} (item : Decoder α) : Decoder (List α)
  | format, .list items whole => do
    let values ← items.mapM (item format)
    if whole then return values else .error .malformed
  | _, node => node.mismatch "a sequence"

/-- A 64-bit number, as an integer or as a text for `readNumeral`. All of the node is read before
it is looked at. -/
def decodeNat : Decoder Nat
  | _, .int i => if 0 ≤ i ∧ i.toNat < UInt64.size then .ok i.toNat else .error .noInteger
  | _, .text s =>
    match readNumeral s with
    | .ok n => .ok n
    | .error fault => .error (.badInteger s fault)
  | _, node => if node.intact then .error .noInteger else .error .malformed

def decodeWord64 : Decoder UInt64 := fun format node => do
  let n ← decodeNat format node
  return UInt64.ofNat n

/-- A number for an entry of 32 bits: a larger one is refused, not cut. -/
def decodeWord32 : Decoder UInt32 := fun format node => do
  let n ← decodeNat format node
  if n < UInt32.size then return UInt32.ofNat n else .error (.integerTooLarge n)

/-- What a name of a variant stands for. -/
def variantNamed {α : Type} (variants : List (String × α)) (name : String) : Except Problem α :=
  match variants.lookup name with
  | some a => .ok a
  | none => .error (.unknownVariant name (variants.map (·.1)))

/-- In TOML a variant may carry an empty table. -/
def decodeEmptyTable : Node → Except Problem Unit
  | .record entries _ => if entries.isEmpty then .ok () else .error (.notEmpty "table")
  | .list items _ => if items.isEmpty then .ok () else .error (.notEmpty "array")
  | .text _ => .error (.noTable "string")
  | .int _ => .error (.noTable "integer")
  | .real _ => .error (.noTable "float")
  | .bool _ => .error (.noTable "boolean")
  | .date _ => .error (.noTable "datetime")
  | _ => .error .malformed

/-- In JSON a variant may carry a null. -/
def decodeNull : Node → Except Problem Unit
  | .null => .ok ()
  | node => node.mismatch "unit"

/-- A variant without content: its name, or a record with the name as its only key. -/
def decodeVariant {α : Type} (variants : List (String × α)) : Decoder α
  | _, .text name => variantNamed variants name
  | .json, .record ((name, content) :: rest) whole => do
    let a ← variantNamed variants name
    decodeNull content
    if rest.isEmpty && whole then return a else .error .malformed
  | .json, .unkeyed first => first.mismatch "variant identifier"
  | .json, _ => .error .malformed
  | .tree, .record [(name, content)] _ => do
    let a ← variantNamed variants name
    decodeNull content
    return a
  | .tree, .record _ _ => .error (.wrongValue "map" "map with a single key")
  | .tree, node => node.mismatch "string or map"
  | .toml, .record [(name, content)] _ => do
    let a ← variantNamed variants name
    decodeEmptyTable content
    return a
  | .toml, .record entries _ => .error (.entryCount entries.length)
  | .toml, _ => .error .noVariant

end RegisterMap
