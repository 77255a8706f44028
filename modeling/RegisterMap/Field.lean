import RegisterMap.Description
import RegisterMap.Name
import RegisterMap.Text.Blank
import RegisterMap.Violation
import RegisterMap.Word

namespace RegisterMap

/-- A description without the white space around it. Generated code puts it into comments, so
it must not break a line. -/
def singleLine (kind : Named) (name text : String) : Except Violation String :=
  let line := trimBlank text.toList
  if line.any (fun c => c == '\n' || c == '\r') then .error (.multiLineDescription kind name)
  else .ok (String.ofList line)

/-- A named value of a field. -/
structure NamedValue where
  name : String
  value : Nat
  description : String
  deriving DecidableEq, Repr

/-- A named run of bits in a register, from `lsb` upwards. -/
structure Field where
  name : String
  description : String
  width : Nat
  lsb : Nat
  access : Access
  modifiers : List Modifier
  reset : Nat
  values : List NamedValue
  deriving DecidableEq, Repr

namespace Field

/-- The first bit past the field. -/
def stop (f : Field) : Nat := f.lsb + f.width

/-- The most significant bit. -/
def msb (f : Field) : Nat := f.lsb + f.width - 1

/-- The bits of the field within its word. -/
def mask (f : Field) : Nat := fieldMask f.width f.lsb

end Field

/-- Checks a value against the width of its field. -/
def NamedValue.ofEntry (register field : String) (width : Nat) (case : NameCase)
    (entry : ValueEntry) : Except Violation NamedValue := do
  let name := case.apply entry.name
  require (isIdentifier name) (.invalidName .value name)
  let description ← singleLine .value (register ++ "." ++ field ++ "." ++ name) entry.description
  let value := entry.value.toNat
  require (value < 1 <<< width) (.valueOutOfRange register field name value width)
  return { name, value, description }

/-- Checks values one after the other; `earlier` are those of the field that were accepted. -/
def NamedValue.collect (register field : String) (width : Nat) (case : NameCase)
    (earlier : List NamedValue) : List ValueEntry → Except Violation (List NamedValue)
  | [] => .ok []
  | entry :: entries => do
    let v ← ofEntry register field width case entry
    require (∀ w ∈ earlier, w.name ≠ v.name) (.duplicateValueName register field v.name)
    require (∀ w ∈ earlier, w.value ≠ v.value) (.duplicateValue register field v.value)
    let others ← collect register field width case (v :: earlier) entries
    return v :: others

/-- Checks a field by itself, whatever the other fields of its register are. -/
def Field.ofEntry (register : String) (word : Word) (case : NameCase) (entry : FieldEntry) :
    Except Violation Field := do
  let name := case.apply entry.name
  require (isIdentifier name) (.invalidName .field name)
  let description ← singleLine .field (register ++ "." ++ name) entry.description
  let width := entry.width.toNat
  let lsb := entry.lsb.toNat
  let reset := entry.reset.toNat
  require (0 < width) (.zeroWidth register name)
  require (width ≤ word.bits) (.widthTooLarge register name width word.bits)
  require (lsb + width ≤ word.bits) (.fieldOutOfRange register name lsb width word.bits)
  require (reset < 1 <<< width) (.resetOutOfRange register name reset width)
  require (Modifier.supported entry.access entry.modifiers)
    (.unsupportedModifiers register name entry.access entry.modifiers)
  let values ← NamedValue.collect register name width case [] entry.values
  return { name, description, width, lsb, access := entry.access, modifiers := entry.modifiers,
           reset, values }

end RegisterMap
