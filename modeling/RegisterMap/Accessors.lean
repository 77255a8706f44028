import RegisterMap.AddressMap
import RegisterMap.Name.Styles
import RegisterMap.Numeral.Literal

namespace RegisterMap

namespace Accessors

structure Constant where
  name : String
  value : Literal
  deriving DecidableEq, Repr

/-- The constants of one register. -/
structure Constants where
  register : String
  description : String
  constants : List Constant
  deriving DecidableEq, Repr

/-- What a property reads and writes, by names in capitals. -/
inductive Place where
  | word (register : String)
  | bits (register field : String)
  deriving DecidableEq, Repr

/-- A property that stands for a register or field. -/
structure Property where
  name : String
  description : String
  access : Access
  place : Place
  deriving DecidableEq, Repr

/-- A class for the fields of a register. -/
structure FieldClass where
  name : String
  properties : List Property
  deriving DecidableEq, Repr

/-- The properties of a register: its word, and under the same name with `_bf` its fields. -/
structure RegisterProperty where
  word : Property
  fieldClass : String
  deriving DecidableEq, Repr

end Accessors

/-- Python classes that read and write the registers of a map over a bus. -/
structure Accessors where
  name : String
  base : Literal
  fieldClasses : List Accessors.FieldClass
  constants : List Accessors.Constants
  registers : List Accessors.RegisterProperty
  deriving DecidableEq, Repr

namespace Accessors

def fieldClassName (register : String) : String := "_Reg" ++ camelCase register

def Property.ofField (register : String) (f : Field) : Property where
  name := attributeName f.name
  description := f.description
  access := f.access
  place := .bits (asciiUpper register) (asciiUpper f.name)

def Property.ofRegister (r : Register) : Property where
  name := attributeName r.name
  description := r.description
  access := r.access
  place := .word (asciiUpper r.name)

/-- Fields are described by where they begin and by their mask there. -/
def fieldConstants (register : String) (f : Field) : List Constant :=
  let name := asciiUpper register ++ "_" ++ asciiUpper f.name
  [⟨name ++ "_POS", .decimal f.lsb⟩, ⟨name ++ "_MSK", .hex (f.mask >>> f.lsb)⟩] ++
    f.values.map fun v => ⟨name ++ "_" ++ asciiUpper v.name, .hex v.value⟩

def registerConstants (r : Register) : Constants where
  register := r.name
  description := r.description
  constants :=
    [⟨asciiUpper r.name ++ "_ADDR", .padded r.address⟩,
      ⟨asciiUpper r.name ++ "_RESET", .hex r.reset⟩] ++ r.fields.flatMap (fieldConstants r.name)

def ofMap (m : AddressMap) : Accessors where
  name := m.name
  base := .padded m.base
  fieldClasses := m.registers.map fun r =>
    ⟨fieldClassName r.name, r.fields.map (Property.ofField r.name)⟩
  constants := m.registers.map registerConstants
  registers := m.registers.map fun r => ⟨.ofRegister r, fieldClassName r.name⟩

end Accessors

end RegisterMap
