import RegisterMap.Register

namespace RegisterMap

/-- A run of unused words. -/
structure ReservedSpan where
  start : Nat
  words : Nat
  deriving DecidableEq, Repr

/-- The first address past the span. -/
def ReservedSpan.stop (word : Word) (s : ReservedSpan) : Nat := s.start + s.words * word.bytes

/-- What stands at an address of a map. -/
inductive Slot where
  | register (r : Register)
  | reserved (s : ReservedSpan)
  deriving DecidableEq, Repr

def Slot.address : Slot → Nat
  | .register r => r.address
  | .reserved s => s.start

/-- A checked register map: registers in ascending order of address, and the spans between. -/
structure AddressMap where
  name : String
  base : Nat
  word : Word
  registers : List Register
  reserved : List ReservedSpan
  deriving DecidableEq, Repr

/-- Spans and registers in one line: before each register the spans that begin below it. -/
def mergeSlots : List ReservedSpan → List Register → List Slot
  | spans, [] => spans.map .reserved
  | spans, r :: rest =>
    (spans.takeWhile (fun s => decide (s.start < r.address))).map .reserved ++
      .register r :: mergeSlots (spans.dropWhile (fun s => decide (s.start < r.address))) rest

namespace AddressMap

def register? (m : AddressMap) (name : String) : Option Register :=
  m.registers.find? (·.name == name)

/-- The first address past the last register; a map without registers ends where it begins. -/
def stop (m : AddressMap) : Nat :=
  match m.registers.getLast? with
  | some r => r.address + m.word.bytes
  | none => m.base

/-- Registers and reserved spans in the order of their addresses. -/
def slots (m : AddressMap) : List Slot := mergeSlots m.reserved m.registers

end AddressMap

end RegisterMap
