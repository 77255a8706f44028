import RegisterMap.Proofs.Compiled
import RegisterMap.Target

namespace RegisterMap

section

variable {registers others : List Register} (same : registers.Perm others)
include same

/-- Registers with addresses of their own have only one order of addresses. -/
theorem byAddress_eq_of_perm (distinct : (registers.map Register.address).Nodup) :
    byAddress registers = byAddress others := by
  have perm : (byAddress registers).Perm (byAddress others) :=
    ((byAddress_perm registers).trans same).trans (byAddress_perm others).symm
  refine perm.eq_of_pairwise ?_ (byAddress_sorted registers) (byAddress_sorted others)
  intro a b left right low high
  have first := (byAddress_perm registers).mem_iff.mp left
  have second := same.mem_iff.mpr ((byAddress_perm others).mem_iff.mp right)
  exact List.inj_on_of_nodup_map distinct first second (le_antisymm low high)

theorem Placed.congr {base : Nat} {word : Word} (placed : Placed base word registers) :
    Placed base word others where
  names := (same.map _).nodup_iff.mp placed.names
  baseAligned := placed.baseAligned
  inRange r inside := placed.inRange r (same.mem_iff.mpr inside)
  addresses := (same.map _).nodup_iff.mp placed.addresses

end

section

variable {config : Config} {d : Description} {registers : List RegisterEntry}
  (same : d.registers.Perm registers)
include same

/-- What the checks come to speaks of all registers, or of any two, and never of their order. -/
theorem Description.Sound.congr {word : Word} (sound : d.Sound config word) :
    { d with registers }.Sound config word where
  width := sound.width
  name := sound.name
  registers r inside := sound.registers r (same.mem_iff.mpr inside)
  placed := sound.placed.congr (same.map _)
  symbols := (SymbolsApart.congr (same.map _)).mp sound.symbols

theorem Description.Sound.mapOf_eq {word : Word} (sound : d.Sound config word) :
    { d with registers }.mapOf config word = d.mapOf config word := by
  have ordered : byAddress (d.built config.nameCase) =
      byAddress ({ d with registers }.built config.nameCase) :=
    byAddress_eq_of_perm (same.map _) sound.placed.addresses
  simp only [mapOf, ← ordered]
  rfl

theorem compile_of_perm {m : AddressMap} (compiled : compile config d = .ok m) :
    compile config { d with registers } = .ok m := by
  obtain ⟨word, sound, rfl⟩ := compile_eq_ok_iff.mp compiled
  exact compile_eq_ok_iff.mpr ⟨word, sound.congr same, sound.mapOf_eq same⟩

/-- Declared in another order, the registers of a description are accepted all the same, and make
the same map and the same files. Which item claims a name first, and which neighbours the sorts
look at, decides no more than that. -/
theorem compile_eq_of_perm :
    ((∃ m, compile config d = .ok m) ↔ ∃ m, compile config { d with registers } = .ok m) ∧
    ∀ m n, compile config d = .ok m → compile config { d with registers } = .ok n →
      m = n ∧ ∀ targets : List Target, targets.map (Target.emit m) = targets.map (Target.emit n) := by
  refine ⟨⟨?_, ?_⟩, ?_⟩
  · rintro ⟨m, compiled⟩
    exact ⟨m, compile_of_perm same compiled⟩
  · rintro ⟨m, compiled⟩
    exact ⟨m, compile_of_perm (d := { d with registers }) same.symm compiled⟩
  · intro m n first second
    have one : m = n := Except.ok.inj ((compile_of_perm same first).symm.trans second)
    exact ⟨one, fun targets => by rw [one]⟩

end

theorem compile_reversed_pwm :
    pwm.registers.Perm pwm.registers.reverse ∧ pwm.registers ≠ pwm.registers.reverse ∧
      compile {} { pwm with registers := pwm.registers.reverse } = .ok (pwm.mapOf {} .w32) := by
  have same : pwm.registers.Perm pwm.registers.reverse := (List.reverse_perm _).symm
  obtain ⟨accepted, equal⟩ := @compile_eq_of_perm {} _ _ same
  obtain ⟨n, compiled⟩ := accepted.mp ⟨_, compile_pwm⟩
  refine ⟨same, by decide, ?_⟩
  rw [(equal _ n compile_pwm compiled).1]
  exact compiled

end RegisterMap
