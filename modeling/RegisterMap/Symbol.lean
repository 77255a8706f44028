import RegisterMap.Name.Styles
import RegisterMap.Register
import Std.Data.HashMap

namespace RegisterMap

/-- The scopes in which generated names have to differ. -/
inductive Scope where
  /-- Upper-case constants, which all artifacts share. -/
  | constants
  /-- Type names of the header. -/
  | types
  /-- Members, types, fields and values of the bindings. -/
  | bindings
  /-- Attributes and helper classes of the accessors. -/
  | attributes
  deriving DecidableEq, Repr, Hashable

/-- A name that some artifact derives for an item. -/
structure Claim where
  scope : Scope
  symbol : String
  owner : Owner
  deriving DecidableEq, Repr

/-- What the constants of a field end in. -/
def fieldSuffixes : List String := ["WIDTH", "LSB", "MASK", "RESET", "POS", "MSK"]

/-- Names derived for a value; `constant` and `path` are those of its field. -/
def NamedValue.claims (register field constant path : String) (v : NamedValue) : List Claim :=
  let owner := Owner.value register field v.name
  [⟨.constants, constant ++ "_" ++ asciiUpper v.name, owner⟩,
    ⟨.bindings, path ++ "::" ++ camelCase v.name, owner⟩]

/-- Names derived for a field of a register, then those for its values. -/
def Field.claims (register : String) (f : Field) : List Claim :=
  let owner := Owner.field register f.name
  let constant := asciiUpper register ++ "_" ++ asciiUpper f.name
  let path := camelCase register ++ "::" ++ camelCase f.name
  let ofField : List Claim :=
    fieldSuffixes.map (fun suffix => ⟨.constants, constant ++ "_" ++ suffix, owner⟩) ++
    [⟨.bindings, path, owner⟩,
      ⟨.attributes, "_Reg" ++ camelCase register ++ "." ++ attributeName f.name, owner⟩]
  let ofType : List Claim :=
    if f.values.isEmpty then []
    else [⟨.types, asciiLower register ++ "_" ++ asciiLower f.name ++ "_t", owner⟩]
  ofField ++ ofType ++ f.values.flatMap (NamedValue.claims register f.name constant path)

/-- Names derived for a register, then those for its fields. -/
def Register.claims (r : Register) : List Claim :=
  let owner := Owner.register r.name
  [⟨.constants, asciiUpper r.name ++ "_ADDR", owner⟩,
    ⟨.constants, asciiUpper r.name ++ "_RESET", owner⟩,
    ⟨.types, asciiLower r.name ++ "_t", owner⟩,
    ⟨.bindings, snakeCase r.name, owner⟩,
    ⟨.bindings, camelCase r.name, owner⟩,
    ⟨.attributes, attributeName r.name ++ "_bf", owner⟩,
    ⟨.attributes, attributeName r.name, owner⟩,
    ⟨.attributes, "_Reg" ++ camelCase r.name, owner⟩] ++
  r.fields.flatMap (Field.claims r.name)

/-- All derived names in the order of declaration. The base address comes first. -/
def claims (registers : List Register) : List Claim :=
  ⟨.constants, "BASE_ADDR", .base⟩ :: registers.flatMap Register.claims

/-- Who holds which name so far. -/
abbrev Holders := Std.HashMap (Scope × String) Owner

/-- Grants claims in turn. An item may derive one name more than once, two items may not. -/
def grant (held : Holders) : List Claim → Except Violation Unit
  | [] => .ok ()
  | c :: rest =>
    match held[(c.scope, c.symbol)]? with
    | none => grant (held.insert (c.scope, c.symbol) c.owner) rest
    | some holder =>
      if holder = c.owner then grant held rest
      else .error (.symbolClash c.symbol holder c.owner)

/-- No name derived for one item is also derived for another one in the same scope. -/
def checkSymbols (registers : List Register) : Except Violation Unit :=
  grant ∅ (claims registers)

end RegisterMap
