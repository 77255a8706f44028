import RegisterMap.Proofs.DeclarationOrder
import RegisterMap.Proofs.NameForms
import Mathlib.Data.List.DropRight

namespace RegisterMap

def NamedValue.entry (v : NamedValue) : ValueEntry where
  name := v.name
  value := .ofNat v.value
  description := v.description

def Field.entry (f : Field) : FieldEntry where
  name := f.name
  description := f.description
  width := .ofNat f.width
  lsb := .ofNat f.lsb
  access := f.access
  modifiers := f.modifiers
  reset := .ofNat f.reset
  values := f.values.map NamedValue.entry

def Register.entry (r : Register) : RegisterEntry where
  name := r.name
  description := r.description
  address := .ofNat r.address
  fields := r.fields.map Field.entry

/-- The description that lists what a map holds, registers in the order of their addresses. What
follows from the rest, such as the reserved spans, is left out. -/
def AddressMap.description (m : AddressMap) : Description where
  name := m.name
  base := .ofNat m.base
  registers := m.registers.map Register.entry

theorem dropWhile_eq_self_of_isPrefix {α : Type} {p : α → Bool} {l k : List α} (part : k <+: l)
    (start : l.dropWhile p = l) : k.dropWhile p = k := by
  refine List.dropWhile_eq_self_iff.mpr fun nonempty => ?_
  rw [part.getElem nonempty]
  exact List.dropWhile_eq_self_iff.mp start _

theorem trimBlank_trimBlank (text : List Char) : trimBlank (trimBlank text) = trimBlank text := by
  have start : (trimBlank text).dropWhile isBlank = trimBlank text :=
    dropWhile_eq_self_of_isPrefix (List.rdropWhile_prefix ..) (List.dropWhile_idempotent ..)
  calc trimBlank (trimBlank text)
      = ((trimBlank text).dropWhile isBlank).rdropWhile isBlank := rfl
    _ = (trimBlank text).rdropWhile isBlank := by rw [start]
    _ = trimBlank text := List.rdropWhile_idempotent isBlank (text.dropWhile isBlank)

@[simp] theorem trimmed_trimmed (text : String) : trimmed (trimmed text) = trimmed text := by
  simp only [trimmed, String.toList_ofList, trimBlank_trimBlank]

theorem SingleLine.trimmed {text : String} (single : SingleLine text) :
    SingleLine (trimmed text) := by
  rwa [SingleLine, trimmed_trimmed]

@[simp] theorem NameCase.apply_apply (case : NameCase) (name : String) :
    case.apply (case.apply name) = case.apply name := by
  cases case with
  | asWritten => rfl
  | upper =>
    have twice : Char.toUpper ∘ Char.toUpper = Char.toUpper :=
      funext Char.toUpper_toUpper_eq_toUpper
    rw [apply, apply, asciiUpper, asciiUpper, String.map_map, twice]
  | lower =>
    have twice : Char.toLower ∘ Char.toLower = Char.toLower :=
      funext Char.toLower_toLower_eq_toLower
    rw [apply, apply, asciiLower, asciiLower, String.map_map, twice]

theorem byAddress_byAddress (registers : List Register) :
    byAddress (byAddress registers) = byAddress registers :=
  List.mergeSort_of_pairwise ((byAddress_sorted registers).imp decide_eq_true)

theorem FieldEntry.bits_entry (case : NameCase) (f : FieldEntry) :
    (f.built case).entry.bits = f.bits := by
  simp [bits, built, Field.entry]

section

variable {case again : NameCase} (keeps : ∀ name, again.apply (case.apply name) = case.apply name)
include keeps

theorem ValueEntry.built_entry (v : ValueEntry) : (v.built case).entry.built again = v.built case := by
  simp [built, NamedValue.entry, keeps]

theorem FieldEntry.built_entry (f : FieldEntry) : (f.built case).entry.built again = f.built case := by
  simp [built, Field.entry, keeps, ValueEntry.built_entry keeps]

theorem RegisterEntry.built_entry (r : RegisterEntry) :
    (r.built case).entry.built again = r.built case := by
  simp [built, Register.entry, keeps, FieldEntry.built_entry keeps]

/-- What was checked under one case of names passes under any case that keeps the names. -/
theorem ValueEntry.Sound.entry {width : Nat} {v : ValueEntry} (sound : v.Sound case width) :
    (v.built case).entry.Sound again width where
  name := by
    rw [NamedValue.entry, built, keeps]
    exact sound.name
  description := sound.description.trimmed
  fits := by
    simpa [NamedValue.entry, built] using sound.fits

theorem FieldEntry.Sound.entry {bits : Nat} {f : FieldEntry} (sound : f.Sound case bits) :
    (f.built case).entry.Sound again bits where
  name := by
    rw [Field.entry, built, keeps]
    exact sound.name
  description := sound.description.trimmed
  width_pos := by simpa [Field.entry, built] using sound.width_pos
  inside := by simpa [Field.entry, built] using sound.inside
  reset := by simpa [Field.entry, built] using sound.reset
  modifiers := sound.modifiers
  values v inside := by
    obtain ⟨w, among, rfl⟩ := List.mem_map.mp inside
    obtain ⟨value, member, rfl⟩ := List.mem_map.mp among
    simpa [Field.entry, built] using (sound.values value member).entry keeps
  valueNames := by
    simpa [Field.entry, built, Function.comp_def, NamedValue.entry, ValueEntry.built, keeps]
      using sound.valueNames
  valueNumbers := by
    simpa [Field.entry, built, Function.comp_def, NamedValue.entry, ValueEntry.built]
      using sound.valueNumbers

theorem RegisterEntry.Sound.entry {bits : Nat} {r : RegisterEntry} (sound : r.Sound case bits) :
    (r.built case).entry.Sound again bits where
  name := by
    rw [Register.entry, built, keeps]
    exact sound.name
  description := sound.description.trimmed
  fields_ne_nil := by simpa [Register.entry, built] using sound.fields_ne_nil
  fields f inside := by
    obtain ⟨g, among, rfl⟩ := List.mem_map.mp inside
    obtain ⟨field, member, rfl⟩ := List.mem_map.mp among
    exact (sound.fields field member).entry keeps
  fieldNames := by
    simpa [Register.entry, built, Function.comp_def, Field.entry, FieldEntry.built, keeps]
      using sound.fieldNames
  apart := by
    simpa only [Register.entry, built, List.pairwise_map, FieldEntry.bits_entry] using sound.apart

end

section

variable {config again : Config} {word : Word} {d : Description}
  (keeps : ∀ name, again.nameCase.apply (config.nameCase.apply name) = config.nameCase.apply name)
include keeps

theorem Description.built_description :
    (d.mapOf config word).description.built again.nameCase = byAddress (d.built config.nameCase) := by
  rw [built, AddressMap.description, List.map_map]
  refine (List.map_congr_left fun r inside => ?_).trans (List.map_id _)
  obtain ⟨entry, _, rfl⟩ := List.mem_map.mp ((byAddress_perm _).mem_iff.mp inside)
  exact entry.built_entry keeps

variable (base : again.baseOf (d.mapOf config word).description = config.baseOf d)
include base

theorem Description.mapOf_description :
    (d.mapOf config word).description.mapOf again word = d.mapOf config word := by
  rw [mapOf, base, built_description keeps, byAddress_byAddress]
  rfl

theorem Description.Sound.description (sound : d.Sound config word)
    (width : again.dataWidth = config.dataWidth) :
    (d.mapOf config word).description.Sound again word where
  width := width ▸ sound.width
  name := sound.name
  registers r inside := by
    obtain ⟨s, among, rfl⟩ := List.mem_map.mp inside
    obtain ⟨entry, member, rfl⟩ := List.mem_map.mp ((byAddress_perm _).mem_iff.mp among)
    exact (sound.registers entry member).entry keeps
  placed := by
    rw [base, built_description keeps]
    exact sound.placed.congr (byAddress_perm _).symm
  symbols := by
    rw [built_description keeps]
    exact sound.symbolsApart

end

/-- A compiled map is a normal form: the description that lists its data compiles to the same map,
under the configuration it came from and under one that sets no more than the width of words. -/
theorem compile_description {config : Config} {d : Description} {m : AddressMap}
    (compiled : compile config d = .ok m) :
    compile config m.description = .ok m ∧
      compile { dataWidth := config.dataWidth } m.description = .ok m := by
  obtain ⟨word, sound, rfl⟩ := compile_eq_ok_iff.mp compiled
  have asWritten (name : String) :
      NameCase.apply .asWritten (config.nameCase.apply name) = config.nameCase.apply name := rfl
  have own : config.baseOf (d.mapOf config word).description = config.baseOf d := by
    cases base : config.base <;> simp [Config.baseOf, AddressMap.description, Description.mapOf, base]
  have described : Config.baseOf { dataWidth := config.dataWidth } (d.mapOf config word).description =
      config.baseOf d := by
    simp [Config.baseOf, AddressMap.description, Description.mapOf]
  constructor
  · exact compile_eq_ok_iff.mpr ⟨word, sound.description config.nameCase.apply_apply own rfl,
      Description.mapOf_description config.nameCase.apply_apply own⟩
  · exact compile_eq_ok_iff.mpr ⟨word, sound.description asWritten described rfl,
      Description.mapOf_description asWritten described⟩

/-- Registers against the order of their addresses, names in small letters and texts with blanks
around them. -/
def scattered : Description where
  name := "spi"
  registers :=
    [{ name := "data", address := 0x28, fields := [{ name := "byte", width := 8 }] },
      { name := "ctrl", address := 0x24, description := " Control\t",
        fields :=
          [{ name := "mode", width := 2, lsb := 4, reset := 1,
             values := [{ name := "slow", value := 1, description := "Default " }] },
            { name := "en", modifiers := [.externalUpdate] }] }]

theorem compile_description_scattered :
    let config : Config := { dataWidth := 16, nameCase := .upper, base := some 0x20 }
    let m := scattered.mapOf config .w16
    compile config scattered = .ok m ∧ m.description ≠ scattered ∧
      compile config m.description = .ok m ∧
      compile { dataWidth := config.dataWidth } m.description = .ok m := by
  intro config m
  have compiled : compile config scattered = .ok m :=
    compile_eq_ok_iff.mpr ⟨.w16, by decide +kernel, rfl⟩
  exact ⟨compiled, by decide +kernel, compile_description compiled⟩

end RegisterMap
