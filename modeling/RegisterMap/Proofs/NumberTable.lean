import RegisterMap.AddressMap

namespace RegisterMap

/-- What the names of a field and of its values begin with. -/
def Field.capitals (r : Register) (f : Field) : String :=
  asciiUpper r.name ++ "_" ++ asciiUpper f.name

def Field.numbers (r : Register) (f : Field) : List (String × Nat) :=
  [(f.capitals r ++ "_WIDTH", f.width), (f.capitals r ++ "_LSB", f.lsb),
    (f.capitals r ++ "_MASK", f.mask), (f.capitals r ++ "_RESET", f.reset)]

def Field.valueNumbers (r : Register) (f : Field) : List (String × Nat) :=
  f.values.map fun v => (f.capitals r ++ "_" ++ asciiUpper v.name, v.value)

/-- What accessors know of a field: where it begins, its mask moved down there, and its values. -/
def Field.accessNumbers (r : Register) (f : Field) : List (String × Nat) :=
  [(f.capitals r ++ "_POS", f.lsb), (f.capitals r ++ "_MSK", f.mask >>> f.lsb)] ++ f.valueNumbers r

def Register.ownNumbers (r : Register) : List (String × Nat) :=
  [(asciiUpper r.name ++ "_ADDR", r.address), (asciiUpper r.name ++ "_RESET", r.reset)]

/-- The constants of a register and of its fields. -/
def Register.numbers (r : Register) : List (String × Nat) :=
  r.ownNumbers ++ r.fields.flatMap (Field.numbers r)

def Register.accessNumbers (r : Register) : List (String × Nat) :=
  r.ownNumbers ++ r.fields.flatMap (Field.accessNumbers r)

def Register.valueNumbers (r : Register) : List (String × Nat) :=
  r.fields.flatMap (Field.valueNumbers r)

end RegisterMap
