import RegisterMap.Access
import RegisterMap.Numeral
import RegisterMap.Text.Quoted

namespace RegisterMap

/-- What a name belongs to. -/
inductive Named where
  | map
  | register
  | field
  | value
  deriving DecidableEq, Repr

def Named.word : Named → String
  | map => "register map"
  | register => "register"
  | field => "field"
  | value => "enumerated value"

/-- The item for which a name is derived in generated code. -/
inductive Owner where
  | base
  | register (name : String)
  | field (reg name : String)
  | value (reg fld name : String)
  deriving DecidableEq, Repr

def Owner.text : Owner → String
  | .base => "the base address"
  | .register name => "register " ++ name
  | .field reg name => "field " ++ reg ++ "." ++ name
  | .value reg fld name => "enumerated value " ++ reg ++ "." ++ fld ++ "." ++ name

/-- Why a description is no register map. -/
inductive Violation where
  | unsupportedWord (bits : Nat)
  | invalidName (kind : Named) (name : String)
  | multiLineDescription (kind : Named) (name : String)
  | symbolClash (symbol : String) (first second : Owner)
  | zeroWidth (register field : String)
  | widthTooLarge (register field : String) (width wordBits : Nat)
  | fieldOutOfRange (register field : String) (lsb width wordBits : Nat)
  | resetOutOfRange (register field : String) (reset width : Nat)
  | valueOutOfRange (register field name : String) (value width : Nat)
  | duplicateValueName (register field name : String)
  | duplicateValue (register field : String) (value : Nat)
  | unsupportedModifiers (register field : String) (access : Access) (modifiers : List Modifier)
  | duplicateFieldName (register field : String)
  | noFields (register : String)
  | duplicateRegisterName (name : String)
  | misalignedBase (base wordBytes : Nat)
  | addressBelowBase (register : String) (address base : Nat)
  | addressOutOfRange (register : String) (address : Nat)
  | overlap (register : String) (first : String) (firstLsb firstWidth : Nat)
      (second : String) (secondLsb secondWidth : Nat)
  | duplicateAddress (address : Nat) (first second : String)
  | misalignedAddress (register : String) (address wordBytes : Nat)
  | negativeGap (register : String) (address cursor : Nat)
  deriving DecidableEq, Repr

namespace Violation

private def place (register field : String) : String :=
  "register " ++ register ++ ": field " ++ field

private def bitRange (lsb width : Nat) : String :=
  "[" ++ decimal lsb ++ ".." ++ decimal (lsb + width) ++ ")"

def message : Violation → String
  | unsupportedWord bits =>
    "unsupported word width " ++ decimal bits ++ "; expected 8, 16, 32 or 64"
  | invalidName kind name =>
    kind.word ++ " name " ++ quoted name ++ " is not an identifier (must start with a letter)"
  | multiLineDescription kind name =>
    kind.word ++ " " ++ name ++ ": description must be a single line"
  | symbolClash symbol first second =>
    "generated symbol " ++ symbol ++ " is claimed by both " ++ first.text ++ " and " ++ second.text
  | zeroWidth register field => place register field ++ " has zero width"
  | widthTooLarge register field width wordBits =>
    place register field ++ " width " ++ decimal width ++ " exceeds the " ++ decimal wordBits ++
      "-bit word"
  | fieldOutOfRange register field lsb width wordBits =>
    place register field ++ " bits " ++ bitRange lsb width ++ " do not fit in the " ++
      decimal wordBits ++ "-bit word"
  | resetOutOfRange register field reset width =>
    place register field ++ " reset value " ++ hexLiteral reset ++ " does not fit in " ++
      decimal width ++ " bits"
  | valueOutOfRange register field name value width =>
    place register field ++ " enumerated value " ++ name ++ " = " ++ hexLiteral value ++
      " does not fit in " ++ decimal width ++ " bits"
  | duplicateValueName register field name =>
    place register field ++ " declares enumerated value " ++ name ++ " more than once"
  | duplicateValue register field value =>
    place register field ++ " declares enumerated value " ++ hexLiteral value ++
      " more than once"
  | unsupportedModifiers register field access modifiers =>
    place register field ++ " (" ++ access.long ++ ") does not support modifiers [" ++
      ", ".intercalate (modifiers.map Modifier.title) ++ "]"
  | duplicateFieldName register field =>
    "register " ++ register ++ " declares field " ++ field ++ " more than once"
  | noFields register => "register " ++ register ++ " has no fields"
  | duplicateRegisterName name => "register " ++ name ++ " is declared more than once"
  | misalignedBase base wordBytes =>
    "base address " ++ hexLiteral base ++ " is not a multiple of the " ++ decimal wordBytes ++
      "-byte word"
  | addressBelowBase register address base =>
    "register " ++ register ++ " address " ++ hexLiteral address ++
      " is below the base address " ++ hexLiteral base
  | addressOutOfRange register address =>
    "register " ++ register ++ " at " ++ hexLiteral address ++
      " extends past the end of the address space"
  | overlap register first firstLsb firstWidth second secondLsb secondWidth =>
    place register first ++ " " ++ bitRange firstLsb firstWidth ++ " overlaps field " ++ second ++
      " " ++ bitRange secondLsb secondWidth
  | duplicateAddress address first second =>
    "registers " ++ first ++ " and " ++ second ++ " are both declared at address " ++
      hexLiteral address
  | misalignedAddress register address wordBytes =>
    "register " ++ register ++ " address " ++ hexLiteral address ++
      " is not a multiple of the " ++ decimal wordBytes ++ "-byte word"
  | negativeGap register address cursor =>
    "internal error: layout cursor " ++ hexLiteral cursor ++ " is past register " ++ register ++
      " at " ++ hexLiteral address

end Violation

/-- Goes on only where a condition holds; otherwise tells of its violation. -/
def require (condition : Prop) [Decidable condition] (otherwise : Violation) :
    Except Violation Unit :=
  if condition then .ok () else .error otherwise

end RegisterMap
