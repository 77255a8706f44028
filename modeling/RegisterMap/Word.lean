namespace RegisterMap

/-- The storage word of a register map. -/
inductive Word where
  | w8
  | w16
  | w32
  | w64
  deriving DecidableEq, Repr

namespace Word

def bits : Word → Nat
  | w8 => 8
  | w16 => 16
  | w32 => 32
  | w64 => 64

/-- Bytes of one word, the step from a register to the next one. -/
def bytes : Word → Nat
  | w8 => 1
  | w16 => 2
  | w32 => 4
  | w64 => 8

/-- Only these four widths are supported. -/
def ofBits? : Nat → Option Word
  | 8 => some w8
  | 16 => some w16
  | 32 => some w32
  | 64 => some w64
  | _ => none

theorem bits_eq (w : Word) : w.bits = 8 * w.bytes := by cases w <;> rfl

theorem bytes_pos (w : Word) : 0 < w.bytes := by cases w <;> decide

theorem bits_le (w : Word) : w.bits ≤ 64 := by cases w <;> decide

@[simp] theorem ofBits?_bits (w : Word) : ofBits? w.bits = some w := by cases w <;> rfl

theorem ofBits?_eq_some_iff {n : Nat} {w : Word} : ofBits? n = some w ↔ n = w.bits := by
  constructor
  · intro h
    unfold ofBits? at h
    split at h <;> cases h <;> rfl
  · rintro rfl
    exact ofBits?_bits w

end Word

/-- The low 64 bits of `width` ones moved up by `lsb` places. -/
def fieldMask (width lsb : Nat) : Nat := (((1 <<< width) - 1) <<< lsb) % UInt64.size

end RegisterMap
