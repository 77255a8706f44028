import RegisterMap.Proofs.Compiled
import RegisterMap.Proofs.Words

namespace RegisterMap

def Field.descriptions (f : Field) : List String :=
  f.description :: f.values.map NamedValue.description

def Register.descriptions (r : Register) : List String :=
  r.description :: r.fields.flatMap Field.descriptions

/-- All texts of a map that are taken from its description, in the order of registers. -/
def AddressMap.descriptions (m : AddressMap) : List String :=
  m.registers.flatMap Register.descriptions

theorem AddressMap.mem_descriptions {m : AddressMap} {text : String} :
    text ∈ m.descriptions ↔ ∃ r ∈ m.registers, text = r.description ∨
      ∃ f ∈ r.fields, text = f.description ∨ ∃ v ∈ f.values, v.description = text := by
  simp only [descriptions, Register.descriptions, Field.descriptions, List.mem_flatMap,
    List.mem_cons, List.mem_map]

section

variable {m : AddressMap} {r : Register} (inside : r ∈ m.registers)
include inside

theorem AddressMap.register_mem_descriptions : r.description ∈ m.descriptions :=
  mem_descriptions.mpr ⟨r, inside, Or.inl rfl⟩

theorem AddressMap.field_mem_descriptions {f : Field} (within : f ∈ r.fields) :
    f.description ∈ m.descriptions :=
  mem_descriptions.mpr ⟨r, inside, Or.inr ⟨f, within, Or.inl rfl⟩⟩

theorem AddressMap.value_mem_descriptions {f : Field} (within : f ∈ r.fields) {v : NamedValue}
    (part : v ∈ f.values) : v.description ∈ m.descriptions :=
  mem_descriptions.mpr ⟨r, inside, Or.inr ⟨f, within, Or.inr ⟨v, part, rfl⟩⟩⟩

end

/-- Nothing in a map breaks a line: its names are identifiers, and its descriptions single
lines. -/
structure AddressMap.Unbroken (m : AddressMap) : Prop where
  name : isIdentifier m.name = true
  identifiers : Identifiers m.registers
  descriptions : ∀ text ∈ m.descriptions, RegisterMap.Unbroken text

namespace AddressMap.Unbroken

variable {m : AddressMap} (whole : m.Unbroken) {r : Register} (inside : r ∈ m.registers)
include whole inside

theorem register : RegisterMap.Unbroken r.description :=
  whole.descriptions _ (register_mem_descriptions inside)

theorem field {f : Field} (within : f ∈ r.fields) : RegisterMap.Unbroken f.description :=
  whole.descriptions _ (field_mem_descriptions inside within)

theorem value {f : Field} (within : f ∈ r.fields) {v : NamedValue} (part : v ∈ f.values) :
    RegisterMap.Unbroken v.description :=
  whole.descriptions _ (value_mem_descriptions inside within part)

end AddressMap.Unbroken

theorem Description.Sound.unbroken {config : Config} {word : Word} {d : Description}
    (sound : d.Sound config word) : (d.mapOf config word).Unbroken where
  name := sound.name
  identifiers := sound.identifiers
  descriptions text inside := by
    obtain ⟨r, among, inside⟩ := AddressMap.mem_descriptions.mp inside
    obtain ⟨entry, member, rfl⟩ := List.mem_map.mp ((byAddress_perm _).mem_iff.mp among)
    have single := sound.registers entry member
    rcases inside with rfl | ⟨f, among, inside⟩
    · exact single.description
    · obtain ⟨field, part, rfl⟩ := List.mem_map.mp among
      rcases inside with rfl | ⟨v, among, rfl⟩
      · exact (single.fields field part).description
      · obtain ⟨value, piece, rfl⟩ := List.mem_map.mp among
        exact ((single.fields field part).values value piece).description

theorem compile_unbroken {config : Config} {d : Description} {m : AddressMap}
    (compiled : compile config d = .ok m) : m.Unbroken := by
  obtain ⟨word, sound, rfl⟩ := compile_eq_ok_iff.mp compiled
  exact sound.unbroken

end RegisterMap
