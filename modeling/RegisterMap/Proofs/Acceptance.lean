import RegisterMap.Proofs.Compiled

namespace RegisterMap

/-- What a description and a configuration have to satisfy to make a register map. Every condition
is about all members of a list, or any two of them, wherever they stand; bounds are those of
unbounded numbers. -/
@[mk_iff]
structure Acceptable (config : Config) (d : Description) : Prop where
  width : config.dataWidth.toNat ∈ [8, 16, 32, 64]
  name : isIdentifier d.name = true
  registers : ∀ r ∈ d.registers, r.Sound config.nameCase config.dataWidth.toNat
  registerNames : (d.registers.map fun r => config.nameCase.apply r.name).Nodup
  baseAligned : config.dataWidth.toNat / 8 ∣ config.baseOf d
  aligned : ∀ r ∈ d.registers, config.dataWidth.toNat / 8 ∣ r.address.toNat
  above : ∀ r ∈ d.registers, config.baseOf d ≤ r.address.toNat
  ends : ∀ r ∈ d.registers, r.address.toNat + config.dataWidth.toNat / 8 < 2 ^ 64
  addresses : (d.registers.map fun r => r.address.toNat).Nodup
  symbols : SymbolsApart (d.built config.nameCase)

instance {config : Config} {d : Description} : Decidable (Acceptable config d) :=
  decidable_of_iff _ (acceptable_iff config d).symm

theorem Word.bits_div (word : Word) : word.bits / 8 = word.bytes := by
  rw [word.bits_eq, Nat.mul_div_cancel_left _ (by decide)]

theorem Word.exists_bits_iff {n : Nat} : (∃ word : Word, n = word.bits) ↔ n ∈ [8, 16, 32, 64] := by
  simp only [List.mem_cons, List.not_mem_nil, or_false]
  constructor
  · rintro ⟨word, rfl⟩
    cases word <;> decide
  · rintro (rfl | rfl | rfl | rfl)
    exacts [⟨.w8, rfl⟩, ⟨.w16, rfl⟩, ⟨.w32, rfl⟩, ⟨.w64, rfl⟩]

theorem Description.placed_built_iff {base : Nat} {word : Word} {case : NameCase} {d : Description} :
    Placed base word (d.built case) ↔
      (d.registers.map fun r => case.apply r.name).Nodup ∧ word.bytes ∣ base ∧
      (∀ r ∈ d.registers, word.bytes ∣ r.address.toNat ∧ base ≤ r.address.toNat ∧
        r.address.toNat + word.bytes < 2 ^ 64) ∧
      (d.registers.map fun r => r.address.toNat).Nodup := by
  have names : (d.built case).map Register.name = d.registers.map fun r => case.apply r.name := by
    rw [built, List.map_map]
    rfl
  have addresses : (d.built case).map Register.address = d.registers.map fun r => r.address.toNat := by
    rw [built, List.map_map]
    rfl
  rw [← names, ← addresses]
  constructor
  · intro placed
    refine ⟨placed.names, placed.baseAligned, fun r inside => ?_, placed.addresses⟩
    obtain ⟨aligned, above, ends⟩ := placed.inRange _ (List.mem_map_of_mem inside)
    exact ⟨aligned, above, ends⟩
  · rintro ⟨names, baseAligned, inRange, addresses⟩
    refine ⟨names, baseAligned, fun r inside => ?_, addresses⟩
    obtain ⟨entry, member, rfl⟩ := List.mem_map.mp inside
    obtain ⟨aligned, above, ends⟩ := inRange entry member
    exact ⟨aligned, above, ends⟩

/-- Acceptance is exact: a description compiles if and only if it is acceptable. Sorting, the
looks at neighbours and the table of names decide no more and no less than that. -/
theorem compile_succeeds_iff_acceptable (config : Config) (d : Description) :
    (∃ m, compile config d = .ok m) ↔ Acceptable config d := by
  simp only [compile_eq_ok_iff]
  constructor
  · rintro ⟨_, word, sound, _⟩
    obtain ⟨names, baseAligned, inRange, addresses⟩ :=
      Description.placed_built_iff.mp sound.placed
    have bits := sound.width
    have bytes : config.dataWidth.toNat / 8 = word.bytes := by rw [bits, word.bits_div]
    refine ⟨Word.exists_bits_iff.mp ⟨word, bits⟩, sound.name, ?_, names, ?_, ?_, ?_, ?_,
      addresses, sound.symbols⟩
    · rw [bits]
      exact sound.registers
    · rw [bytes]
      exact baseAligned
    · rw [bytes]
      exact fun r inside => (inRange r inside).1
    · exact fun r inside => (inRange r inside).2.1
    · rw [bytes]
      exact fun r inside => (inRange r inside).2.2
  · intro acceptable
    obtain ⟨word, bits⟩ := Word.exists_bits_iff.mpr acceptable.width
    have bytes : config.dataWidth.toNat / 8 = word.bytes := by rw [bits, word.bits_div]
    obtain ⟨_, name, registers, names, baseAligned, aligned, above, ends, addresses, symbols⟩ :=
      acceptable
    rw [bits] at registers
    rw [bytes] at baseAligned aligned ends
    have placed := Description.placed_built_iff.mpr ⟨names, baseAligned,
      fun r inside => ⟨aligned r inside, above r inside, ends r inside⟩, addresses⟩
    exact ⟨_, word, ⟨bits, name, registers, placed, symbols⟩, rfl⟩

example : Acceptable {} pwm := by decide +kernel

end RegisterMap
