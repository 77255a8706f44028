import RegisterMap.Numeral.Reading

namespace RegisterMap

/-- How a document is given. The three differ in what may stand for a variant, and in what
happens to surplus elements of a record that is written as a list. -/
inductive Format where
  /-- JSON text, read from left to right. -/
  | json
  /-- A JSON tree in memory. -/
  | tree
  /-- TOML text, read as a whole before it is looked at. -/
  | toml
  deriving DecidableEq, Repr

/-- Why a document does not say what it should. -/
inductive Problem where
  /-- The text breaks the rules of its format. -/
  | malformed
  | wrongType (shown expected : String)
  | wrongValue (shown expected : String)
  | wrongLength (length : Nat) (expected : String)
  | missing (key : String)
  | unknownKey (key : String) (known : List String)
  | repeated (key : String)
  | unknownVariant (name : String) (known : List String)
  | noInteger
  | badInteger (text : String) (fault : NumeralFault)
  | integerTooLarge (n : Nat)
  | noVariant
  | entryCount (found : Nat)
  | notEmpty (kind : String)
  | noTable (kind : String)
  deriving DecidableEq, Repr

private def oneOf (names : List String) : String :=
  "expected one of " ++ ", ".intercalate (names.map fun name => "`" ++ name ++ "`")

def Problem.message : Problem → String
  | malformed => "malformed text"
  | wrongType shown expected => "invalid type: " ++ shown ++ ", expected " ++ expected
  | wrongValue shown expected => "invalid value: " ++ shown ++ ", expected " ++ expected
  | wrongLength length expected =>
    "invalid length " ++ decimal length ++ ", expected " ++ expected
  | missing key => "missing field `" ++ key ++ "`"
  | unknownKey key known => "unknown field `" ++ key ++ "`, " ++ oneOf known
  | repeated key => "duplicate field `" ++ key ++ "`"
  | unknownVariant name known => "unknown variant `" ++ name ++ "`, " ++ oneOf known
  | noInteger => "data did not match any variant of untagged enum IntOrString"
  | badInteger text fault => numeralMessage text fault
  | integerTooLarge n => "integer " ++ hexLiteral n ++ " out of range"
  | noVariant => "wanted string or table"
  | entryCount found =>
    "wanted exactly 1 element, " ++
      (if found = 0 then "found 0 elements" else "more than 1 element")
  | notEmpty kind => "expected empty " ++ kind
  | noTable kind => "expected table, found " ++ kind

end RegisterMap
