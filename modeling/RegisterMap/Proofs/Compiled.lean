import RegisterMap.Proofs.Entries
import RegisterMap.Proofs.Items
import RegisterMap.Proofs.SlotLine

namespace RegisterMap

namespace Description

/-- The registers that a description asks for, in the order of the description. -/
def built (case : NameCase) (d : Description) : List Register := d.registers.map (·.built case)

/-- The map that a description asks for, whether or not it passes the checks. -/
def mapOf (config : Config) (word : Word) (d : Description) : AddressMap where
  name := d.name
  base := config.baseOf d
  word := word
  registers := byAddress (d.built config.nameCase)
  reserved :=
    (slotLine word (config.baseOf d) (byAddress (d.built config.nameCase))).filterMap Slot.reserved?

/-- What the checks of a description come to, for words of one width. -/
@[mk_iff]
structure Sound (config : Config) (word : Word) (d : Description) : Prop where
  width : config.dataWidth.toNat = word.bits
  name : isIdentifier d.name = true
  registers : ∀ r ∈ d.registers, r.Sound config.nameCase word.bits
  placed : Placed (config.baseOf d) word (d.built config.nameCase)
  symbols : SymbolsApart (d.built config.nameCase)

instance {config : Config} {word : Word} {d : Description} : Decidable (d.Sound config word) :=
  decidable_of_iff _ (sound_iff config word d).symm

end Description

/-- Sound registers with names of their own have no two items of one name at any level. -/
theorem namesDiffer_built {case : NameCase} {bits : Nat} {entries : List RegisterEntry}
    (sound : ∀ r ∈ entries, r.Sound case bits)
    (names : ((entries.map (·.built case)).map Register.name).Nodup) :
    NamesDiffer (entries.map (·.built case)) where
  register := names
  field r inside := by
    obtain ⟨entry, member, rfl⟩ := List.mem_map.mp inside
    have distinct := (sound entry member).fieldNames
    rwa [RegisterEntry.built, List.map_map]
  value r inside f within := by
    obtain ⟨entry, member, rfl⟩ := List.mem_map.mp inside
    obtain ⟨field, part, rfl⟩ := List.mem_map.mp within
    have distinct := ((sound entry member).fields field part).valueNames
    rwa [FieldEntry.built, List.map_map]

/-- Registers that pass their own checks have identifiers for all names. -/
theorem identifiers_built {case : NameCase} {bits : Nat} {entries : List RegisterEntry}
    (sound : ∀ r ∈ entries, r.Sound case bits) : Identifiers (entries.map (·.built case)) where
  register r inside := by
    obtain ⟨entry, member, rfl⟩ := List.mem_map.mp inside
    exact (sound entry member).name
  field r inside f within := by
    obtain ⟨entry, member, rfl⟩ := List.mem_map.mp inside
    obtain ⟨field, part, rfl⟩ := List.mem_map.mp within
    exact ((sound entry member).fields field part).name
  value r inside f within v of := by
    obtain ⟨entry, member, rfl⟩ := List.mem_map.mp inside
    obtain ⟨field, part, rfl⟩ := List.mem_map.mp within
    obtain ⟨value, piece, rfl⟩ := List.mem_map.mp of
    exact (((sound entry member).fields field part).values value piece).name

theorem Config.word_eq_ok_iff {config : Config} {word : Word} :
    config.word = .ok word ↔ config.dataWidth.toNat = word.bits := by
  rw [← Word.ofBits?_eq_some_iff, Config.word]
  cases Word.ofBits? config.dataWidth.toNat <;> simp

/-- A description compiles exactly when it is sound, and then to the map that it asks for. In
particular the layout never meets a register below its cursor. -/
theorem compile_eq_ok_iff {config : Config} {d : Description} {m : AddressMap} :
    compile config d = .ok m ↔ ∃ word, d.Sound config word ∧ d.mapOf config word = m := by
  have builtRegisters : ∀ {word : Word} {registers : List Register},
      d.registers.mapM (checkedRegister word config.nameCase) = .ok registers ↔
        (∀ r ∈ d.registers, r.Sound config.nameCase word.bits) ∧
          d.built config.nameCase = registers :=
    mapM_eq_ok_iff fun _ _ => checkedRegister_eq_ok_iff
  unfold compile
  simp only [bind_eq_ok_iff, require_eq_ok_iff, exists_const, pure_eq_ok_iff, builtRegisters,
    Config.word_eq_ok_iff]
  constructor
  · rintro ⟨word, width, name, _, ⟨registers, rfl⟩, ⟨⟩, checked, ⟨⟩, granted, reserved, laid, rfl⟩
    have placed := checkRegisters_eq_ok_iff.mp checked
    have differ := namesDiffer_built registers placed.names
    rw [placed.ascending.reservedSpans_eq] at laid
    cases laid
    exact ⟨word, ⟨width, name, registers, placed, (checkSymbols_eq_ok_iff differ).mp granted⟩, rfl⟩
  · rintro ⟨word, sound, rfl⟩
    have differ := namesDiffer_built sound.registers sound.placed.names
    exact ⟨word, sound.width, sound.name, _, ⟨sound.registers, rfl⟩, (),
      checkRegisters_eq_ok_iff.mpr sound.placed, (), (checkSymbols_eq_ok_iff differ).mpr sound.symbols,
      _, sound.placed.ascending.reservedSpans_eq, rfl⟩

namespace Description.Sound

variable {config : Config} {word : Word} {d : Description} (sound : d.Sound config word)
include sound

theorem identifiers : Identifiers (d.mapOf config word).registers :=
  (identifiers_built sound.registers).congr (byAddress_perm _).symm

theorem namesDiffer : NamesDiffer (d.mapOf config word).registers :=
  (namesDiffer_built sound.registers sound.placed.names).congr (byAddress_perm _).symm

theorem symbolsApart : SymbolsApart (d.mapOf config word).registers :=
  (SymbolsApart.congr (byAddress_perm _).symm).mp sound.symbols

end Description.Sound

/-- Where names differ, a name finds the member that has it. -/
theorem find?_eq_some_iff {α : Type} {name : α → String} {members : List α}
    (differ : (members.map name).Nodup) {wanted : String} {a : α} :
    members.find? (name · == wanted) = some a ↔ a ∈ members ∧ name a = wanted := by
  constructor
  · intro found
    have own := List.find?_some found
    exact ⟨List.mem_of_find?_eq_some found, beq_iff_eq.mp own⟩
  · rintro ⟨inside, rfl⟩
    cases found : members.find? (name · == name a) with
    | none => exact absurd BEq.rfl (List.find?_eq_none.mp found a inside)
    | some b =>
      have same := List.find?_some found
      rw [List.inj_on_of_nodup_map differ (List.mem_of_find?_eq_some found) inside (beq_iff_eq.mp same)]

/-- In a compiled map the name of a register finds it, and in a register so does that of a field. -/
theorem compile_found {config : Config} {d : Description} {m : AddressMap}
    (compiled : compile config d = .ok m) :
    (∀ name r, m.register? name = some r ↔ r ∈ m.registers ∧ r.name = name) ∧
      ∀ r ∈ m.registers, ∀ name f, r.field? name = some f ↔ f ∈ r.fields ∧ f.name = name := by
  obtain ⟨word, sound, rfl⟩ := compile_eq_ok_iff.mp compiled
  exact ⟨fun _ _ => find?_eq_some_iff sound.namesDiffer.register, fun r inside _ _ =>
    find?_eq_some_iff (sound.namesDiffer.field r inside)⟩

/-- A map with a gap in front and another one inside, where one register is called like a keyword
and another one is a single field. -/
def pwm : Description where
  name := "pwm"
  base := 0x100
  registers :=
    [{ name := "DUTY", address := 0x110, fields := [{ name := "VALUE", width := 32 }] },
      { name := "is", address := 0x104,
        fields :=
          [{ name := "RUN" },
            { name := "MODE", width := 2, lsb := 4,
              values := [{ name := "SLOW", value := 0 }, { name := "FAST", value := 2 }] }] }]

theorem sound_pwm : pwm.Sound {} .w32 := by decide +kernel

theorem compile_pwm : compile {} pwm = .ok (pwm.mapOf {} .w32) :=
  compile_eq_ok_iff.mpr ⟨.w32, sound_pwm, rfl⟩

end RegisterMap
