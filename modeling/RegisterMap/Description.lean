import RegisterMap.Access

namespace RegisterMap

/-- A named value of a field, as described. Numbers of a description are as wide as its notation
allows, and nothing about them is checked yet. -/
structure ValueEntry where
  name : String
  value : UInt64
  description : String := ""
  deriving DecidableEq, Repr

/-- A field, as described. -/
structure FieldEntry where
  name : String
  description : String := ""
  width : UInt32 := 1
  lsb : UInt32 := 0
  access : Access := .readWrite
  modifiers : List Modifier := []
  reset : UInt64 := 0
  values : List ValueEntry := []
  deriving DecidableEq, Repr

/-- A register, as described. -/
structure RegisterEntry where
  name : String
  description : String := ""
  address : UInt64
  fields : List FieldEntry := []
  deriving DecidableEq, Repr

/-- A register map as it is written down, before any check. -/
structure Description where
  name : String
  base : UInt64 := 0
  registers : List RegisterEntry := []
  deriving DecidableEq, Repr

end RegisterMap
