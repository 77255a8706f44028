import RegisterMap.Field

namespace RegisterMap

/-- A register: one word at a fixed address, made of fields in the order of their declaration. -/
structure Register where
  name : String
  description : String
  address : Nat
  fields : List Field
  deriving DecidableEq, Repr

namespace Register

/-- Checks a register by itself. How its fields lie to each other is left to `checkFields`. -/
def ofEntry (word : Word) (case : NameCase) (entry : RegisterEntry) :
    Except Violation Register := do
  let name := case.apply entry.name
  require (isIdentifier name) (.invalidName .register name)
  let description ← singleLine .register name entry.description
  require (entry.fields ≠ []) (.noFields name)
  let fields ← entry.fields.mapM (Field.ofEntry name word case)
  return { name, description, address := entry.address.toNat, fields }

/-- The fields from the lowest bit upwards; fields that begin at one bit keep their order. -/
def fieldsByLsb (r : Register) : List Field :=
  r.fields.mergeSort fun a b => decide (a.lsb ≤ b.lsb)

def field? (r : Register) (name : String) : Option Field := r.fields.find? (·.name == name)

/-- The word after a reset. Bits of no field are zero. -/
def reset (r : Register) : Nat := r.fields.foldl (fun word f => word ||| (f.reset <<< f.lsb)) 0

/-- What software may do to the register as a whole: only read or only write it where that holds
of every field. -/
def access (r : Register) : Access :=
  if r.fields.all (·.access == .readOnly) then .readOnly
  else if r.fields.all (·.access == .writeOnly) then .writeOnly
  else .readWrite

end Register

end RegisterMap
