import RegisterMap.AddressCheck
import RegisterMap.Layout
import RegisterMap.Symbol

namespace RegisterMap

/-- What a build sets for every register map. -/
structure Config where
  dataWidth : UInt32 := 32
  nameCase : NameCase := .asWritten
  /-- Takes the place of the base address of the description. -/
  base : Option UInt64 := none
  deriving DecidableEq, Repr

/-- The word of a configuration, if its width is supported. -/
def Config.word (config : Config) : Except Violation Word :=
  match Word.ofBits? config.dataWidth.toNat with
  | some word => .ok word
  | none => .error (.unsupportedWord config.dataWidth.toNat)

def Config.baseOf (config : Config) (d : Description) : Nat := (config.base.getD d.base).toNat

/-- Checks the fields of a register right after the register itself, so that the first register
with a fault is the one that is told of. -/
def checkedRegister (word : Word) (case : NameCase) (entry : RegisterEntry) :
    Except Violation Register := do
  let r ← Register.ofEntry word case entry
  checkFields r
  return r

/-- From a description to a checked register map. The first violation ends it. -/
def compile (config : Config) (d : Description) : Except Violation AddressMap := do
  let word ← config.word
  require (isIdentifier d.name) (.invalidName .map d.name)
  let base := config.baseOf d
  let registers ← d.registers.mapM (checkedRegister word config.nameCase)
  checkRegisters base word registers
  checkSymbols registers
  let ordered := byAddress registers
  let reserved ← reservedSpans word base ordered
  return { name := d.name, base, word, registers := ordered, reserved }

end RegisterMap
