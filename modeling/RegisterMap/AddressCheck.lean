import RegisterMap.FieldCheck

namespace RegisterMap

/-- Registers from the lowest address upwards; registers at one address keep their order. -/
def byAddress (registers : List Register) : List Register :=
  registers.mergeSort fun a b => decide (a.address ≤ b.address)

/-- The first register, in the order of addresses, that is off the grid of words, below the base,
past the end of the address space, or at the address of the one `before` it. -/
def checkAddresses (base : Nat) (word : Word) (before : Option Register) :
    List Register → Except Violation Unit
  | [] => .ok ()
  | r :: rest => do
    require (r.address % word.bytes = 0) (.misalignedAddress r.name r.address word.bytes)
    require (base ≤ r.address) (.addressBelowBase r.name r.address base)
    require (r.address + word.bytes < UInt64.size) (.addressOutOfRange r.name r.address)
    match before with
    | some b => require (b.address ≠ r.address) (.duplicateAddress r.address b.name r.name)
    | none => .ok ()
    checkAddresses base word (some r) rest

/-- Names of registers differ, and every register has a word of its own on the grid that the base
address opens. -/
def checkRegisters (base : Nat) (word : Word) (registers : List Register) :
    Except Violation Unit :=
  match firstRepeated? [] (registers.map Register.name) with
  | some name => .error (.duplicateRegisterName name)
  | none => do
    require (base % word.bytes = 0) (.misalignedBase base word.bytes)
    checkAddresses base word none (byAddress registers)

end RegisterMap
