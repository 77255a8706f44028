import RegisterMap.Proofs.Compiled
import Mathlib.Data.Nat.Bitwise

namespace RegisterMap

/-- What fits in some bits still fits in a word that has room for them further up. -/
theorem shiftLeft_lt {n width lsb bits : Nat} (small : n < 2 ^ width)
    (inside : lsb + width ≤ bits) :
    n <<< lsb < 2 ^ bits :=
  calc n <<< lsb
      = n * 2 ^ lsb := Nat.shiftLeft_eq ..
    _ < 2 ^ width * 2 ^ lsb := Nat.mul_lt_mul_of_pos_right small (Nat.two_pow_pos _)
    _ = 2 ^ (lsb + width) := by rw [← pow_add, Nat.add_comm]
    _ ≤ 2 ^ bits := Nat.pow_le_pow_right (by decide) inside

theorem ones_lt (width : Nat) : 2 ^ width - 1 < 2 ^ width := Nat.sub_one_lt (Nat.two_pow_pos _).ne'

namespace Field

variable {bits : Nat} {f : Field} (inside : f.stop ≤ bits) (wide : bits ≤ 64)
include inside wide

/-- No bit of a mask is lost at the end of 64 bits. -/
theorem mask_eq : f.mask = (2 ^ f.width - 1) * 2 ^ f.lsb := by
  have below : (2 ^ f.width - 1) <<< f.lsb < UInt64.size :=
    shiftLeft_lt (ones_lt _) (inside.trans wide)
  rw [mask, fieldMask, Nat.one_shiftLeft, Nat.mod_eq_of_lt below, Nat.shiftLeft_eq]

/-- A mask moved down to bit 0, and up again to where it was. -/
theorem mask_shiftRight : f.mask >>> f.lsb * 2 ^ f.lsb = f.mask := by
  rw [mask_eq inside wide, Nat.shiftRight_eq_div_pow, Nat.mul_div_cancel _ (Nat.two_pow_pos _)]

theorem mask_lt : f.mask < 2 ^ bits := by
  rw [mask_eq inside wide, ← Nat.shiftLeft_eq]
  exact shiftLeft_lt (ones_lt _) inside

end Field

theorem Register.reset_lt {bits : Nat} {r : Register}
    (fits : ∀ f ∈ r.fields, f.stop ≤ bits ∧ f.reset < 2 ^ f.width) : r.reset < 2 ^ bits := by
  have all {fields : List Field} (fits : ∀ f ∈ fields, f.stop ≤ bits ∧ f.reset < 2 ^ f.width)
      {start : Nat} (below : start < 2 ^ bits) :
      fields.foldl (fun word f => word ||| (f.reset <<< f.lsb)) start < 2 ^ bits := by
    induction fields generalizing start with
    | nil => exact below
    | cons f rest ih =>
      obtain ⟨⟨inside, small⟩, others⟩ := List.forall_mem_cons.mp fits
      exact ih others (Nat.or_lt_two_pow below (shiftLeft_lt small inside))
  exact all fits (Nat.two_pow_pos _)

namespace AddressMap

/-- Registers end where the last one does, or before. -/
theorem address_lt_stop {m : AddressMap}
    (sorted : m.registers.Pairwise fun a b => a.address ≤ b.address) :
    ∀ r ∈ m.registers, r.address < m.stop := by
  intro r inside
  have nonempty := List.ne_nil_of_mem inside
  have last : r.address ≤ (m.registers.getLast nonempty).address := by
    rw [← List.dropLast_append_getLast nonempty] at sorted inside
    rcases List.mem_append.mp inside with before | final
    · exact (List.pairwise_append.mp sorted).2.2 r before _ (List.mem_singleton_self _)
    · rw [List.mem_singleton.mp final]
  have step := m.word.bytes_pos
  rw [stop, List.getLast?_eq_some_getLast nonempty]
  exact Nat.lt_of_le_of_lt last (Nat.lt_add_of_pos_right step)

/-- The numbers of a map are within bounds: addresses within 64 bits and between the base and the
end, fields within their word, resets and values within their field. -/
structure Bounded (m : AddressMap) : Prop where
  base : m.base < 2 ^ 64
  addresses : ∀ r ∈ m.registers, m.base ≤ r.address ∧ r.address < m.stop ∧ r.address < 2 ^ 64
  inside : ∀ r ∈ m.registers, ∀ f ∈ r.fields, f.stop ≤ m.word.bits
  resets : ∀ r ∈ m.registers, ∀ f ∈ r.fields, f.reset < 2 ^ f.width
  values : ∀ r ∈ m.registers, ∀ f ∈ r.fields, ∀ v ∈ f.values, v.value < 2 ^ f.width

end AddressMap

theorem Description.Sound.bounded {config : Config} {word : Word} {d : Description}
    (sound : d.Sound config word) : (d.mapOf config word).Bounded where
  base := UInt64.toNat_lt _
  addresses r inside := by
    have placed := sound.placed.inRange r ((byAddress_perm _).mem_iff.mp inside)
    have ends : r.address + word.bytes < 2 ^ 64 := placed.ends
    exact ⟨placed.above, AddressMap.address_lt_stop (byAddress_sorted _) r inside, by omega⟩
  inside r inside f within := by
    obtain ⟨entry, member, rfl⟩ := List.mem_map.mp ((byAddress_perm _).mem_iff.mp inside)
    obtain ⟨field, part, rfl⟩ := List.mem_map.mp within
    exact ((sound.registers entry member).fields field part).inside
  resets r inside f within := by
    obtain ⟨entry, member, rfl⟩ := List.mem_map.mp ((byAddress_perm _).mem_iff.mp inside)
    obtain ⟨field, part, rfl⟩ := List.mem_map.mp within
    exact ((sound.registers entry member).fields field part).reset
  values r inside f within v of := by
    obtain ⟨entry, member, rfl⟩ := List.mem_map.mp ((byAddress_perm _).mem_iff.mp inside)
    obtain ⟨field, part, rfl⟩ := List.mem_map.mp within
    obtain ⟨value, piece, rfl⟩ := List.mem_map.mp of
    exact (((sound.registers entry member).fields field part).values value piece).fits

end RegisterMap
