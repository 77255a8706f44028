import RegisterMap.Proofs.AccessorNumbers
import RegisterMap.Proofs.BindingNumbers
import RegisterMap.Proofs.DumpNumbers
import RegisterMap.Proofs.HeaderNumbers
import RegisterMap.Proofs.SymbolScopes
import Mathlib.Data.List.Flatten

namespace RegisterMap

/-- Where no name stands twice, a look-up finds the number that stands beside the name. -/
theorem lookup_of_mem {table : List (String × Nat)} (distinct : (table.map Prod.fst).Nodup)
    {name : String} {n : Nat} (inside : (name, n) ∈ table) : table.lookup name = some n := by
  induction table with
  | nil => cases inside
  | cons entry rest ih =>
    obtain ⟨other, k⟩ := entry
    obtain ⟨absent, later⟩ := List.nodup_cons.mp distinct
    rcases List.mem_cons.mp inside with same | below
    · cases same
      exact List.lookup_cons_self
    · have differ : (name == other) = false := by
        rw [beq_eq_false_iff_ne]
        rintro rfl
        exact absent (List.mem_map.mpr ⟨_, below, rfl⟩)
      rw [List.lookup_cons, differ]
      exact ih later below

/-- The numbers of a register that any file names. -/
def Register.allNumbers (r : Register) : List (String × Nat) :=
  r.ownNumbers ++ r.fields.flatMap fun f => f.numbers r ++ f.accessNumbers r

/-- The numbers of a map that any file names, by names of which no two are the same. -/
def AddressMap.allNumbers (m : AddressMap) : List (String × Nat) :=
  ("BASE_ADDR", m.base) :: m.registers.flatMap Register.allNumbers

section

variable (r : Register)

theorem Register.numbers_sublist : r.numbers.Sublist r.allNumbers :=
  .append_left (.flatMap_right _ fun _ _ => List.sublist_append_left ..) _

theorem Register.accessNumbers_sublist : r.accessNumbers.Sublist r.allNumbers :=
  .append_left (.flatMap_right _ fun _ _ => List.sublist_append_right ..) _

theorem Register.valueNumbers_sublist : r.valueNumbers.Sublist r.accessNumbers :=
  (List.Sublist.flatMap_right _ fun _ _ => List.sublist_append_right ..).trans
    (List.sublist_append_right ..)

end

namespace AddressMap

variable (m : AddressMap)

theorem numbers_sublist :
    (("BASE_ADDR", m.base) :: m.registers.flatMap Register.numbers).Sublist m.allNumbers :=
  .cons_cons _ (.flatMap_right _ fun r _ => r.numbers_sublist)

theorem accessNumbers_sublist :
    (("BASE_ADDR", m.base) :: m.registers.flatMap Register.accessNumbers).Sublist m.allNumbers :=
  .cons_cons _ (.flatMap_right _ fun r _ => r.accessNumbers_sublist)

theorem valueNumbers_sublist :
    (m.registers.flatMap Register.valueNumbers).Sublist
      (("BASE_ADDR", m.base) :: m.registers.flatMap Register.accessNumbers) :=
  .cons _ (.flatMap_right _ fun r _ => r.valueNumbers_sublist)

/-- The names of a map's numbers are the constants of its items. -/
theorem names_allNumbers : m.allNumbers.map Prod.fst =
    (items m.registers).flatMap (Item.constants fieldSuffixes) := by
  have field (r : Register) (f : Field) :
      (f.numbers r ++ f.accessNumbers r).map Prod.fst =
        (Item.field r f).constants fieldSuffixes ++
          f.values.flatMap fun v => (Item.value r f v).constants fieldSuffixes := by
    simp [Field.numbers, Field.accessNumbers, Field.valueNumbers, Field.capitals, Item.constants,
      fieldSuffixes, String.append_assoc, Function.comp_def, ← List.map_eq_flatMap]
  rw [items_flatMap, allNumbers, List.map_cons, List.map_flatMap]
  refine congrArg _ (List.flatMap_congr fun r _ => ?_)
  rw [Register.allNumbers, List.map_append, List.map_flatMap]
  exact congrArg _ (List.flatMap_congr fun f _ => field r f)

end AddressMap

/-- The path of a value. -/
def Item.paths : Item → List String
  | .value r f v => [camelCase r.name ++ "::" ++ camelCase f.name ++ "::" ++ camelCase v.name]
  | _ => []

/-- The values of a register under the paths that they have in bindings. -/
def Register.pathValues (r : Register) (fields : List Field) : List (String × Nat) :=
  fields.flatMap fun f => f.values.map fun v =>
    (camelCase r.name ++ "::" ++ camelCase f.name ++ "::" ++ camelCase v.name, v.value)

theorem Bindings.values_eq (m : AddressMap) :
    (Bindings.ofMap m).bits.flatMap BitsType.values =
      (m.registers.filter (hasBits m.word)).flatMap fun r => r.pathValues r.fieldsByLsb := by
  rw [ofMap, List.flatMap_map]
  refine List.flatMap_congr fun r _ => ?_
  rw [BitsType.values, BitsType.of, List.flatMap_map]
  refine List.flatMap_congr fun f _ => ?_
  rw [BitsField.of, List.map_map]
  rfl

section

variable {m : AddressMap}

/-- Neither the order of fields nor registers without a type of their own make two paths alike. -/
theorem pathValues_nodup (differ : NamesDiffer m.registers)
    (apart : Apart Item.bindings (items m.registers)) :
    (((m.registers.filter (Bindings.hasBits m.word)).flatMap fun r =>
      r.pathValues r.fieldsByLsb).map Prod.fst).Nodup := by
  have all : ((m.registers.flatMap fun r => r.pathValues r.fields).map Prod.fst).Nodup := by
    have paths : (m.registers.flatMap fun r => r.pathValues r.fields).map Prod.fst =
        (items m.registers).flatMap Item.paths := by
      rw [items_flatMap]
      simp [Register.pathValues, Item.paths, List.map_flatMap, Function.comp_def,
        ← List.map_eq_flatMap]
    have fewer (i : Item) : i.paths ⊆ i.bindings := by
      cases i <;> simp [Item.paths, Item.bindings]
    have own (i : Item) : i.paths.Nodup := by
      cases i <;> simp [Item.paths]
    rw [paths, Apart.nodup_iff differ.items_nodup fun i _ => own i]
    exact apart.mono fun i _ => fewer i
  have order : (m.registers.flatMap fun r => r.pathValues r.fieldsByLsb).Perm
      (m.registers.flatMap fun r => r.pathValues r.fields) :=
    .flatMap_left _ fun r _ => r.fieldsByLsb_perm.flatMap_right _
  have fewer : ((m.registers.filter (Bindings.hasBits m.word)).flatMap fun r =>
      r.pathValues r.fieldsByLsb).Sublist
        (m.registers.flatMap fun r => r.pathValues r.fieldsByLsb) :=
    List.filter_sublist.flatMap _
  exact ((order.map _).nodup_iff.mpr all).sublist (fewer.map _)

end

/-- The constants of registers and fields that a reader of bindings finds, without their types. -/
def Bindings.numbersIn (content : String) : List (String × Nat) :=
  (Bindings.constantsIn content).map fun c => (c.1, c.2.2)

theorem Bindings.numbersIn_artifact {m : AddressMap} (whole : m.Unbroken) (path : Path) :
    Bindings.numbersIn (Bindings.artifact path m).content =
      m.registers.flatMap Register.numbers := by
  have field (word : Word) (r : Register) (f : Field) :
      (fieldConstants word r.name f).map (fun c => (c.name, c.value.value)) = f.numbers r := rfl
  have register (r : Register) :
      ((registerConstants (.ofAddresses m) m.word r).constants.map
        fun c => (c.name, c.value.value)) = r.numbers := by
    rw [registerConstants, List.map_append, List.map_flatMap, Register.numbers]
    exact congrArg _ (List.flatMap_congr fun f _ => field m.word r f)
  rw [numbersIn, constantsIn_artifact whole path, List.map_map, List.map_flatMap, ofMap,
    List.flatMap_map]
  exact List.flatMap_congr fun r _ => register r

/-- The tables that readers of the four files of a map find in them: constants and named values. -/
structure Tables where
  header : List (String × Nat)
  headerValues : List (String × Nat)
  bindings : List (String × Nat)
  bindingValues : List (String × Nat)
  accessors : List (String × Nat)
  dump : List (String × Nat)
  dumpValues : List (String × Nat)

/-- Tables are read from the texts of files alone; of the map, a reader of a header has to know the
lead. -/
def Tables.read (lead : Header.Lead) (header bindings accessors dump : String) : Tables where
  header := Header.constantsIn lead header
  headerValues := Header.valuesIn lead header
  bindings := Bindings.numbersIn bindings
  bindingValues := Bindings.valuesIn bindings
  accessors := Accessors.constantsIn accessors
  dump := Dump.constantsIn dump
  dumpValues := Dump.valuesIn dump

/-- All files of a map state its numbers. -/
structure Tables.Agree (t : Tables) (m : AddressMap) : Prop where
  /-- A name stands for one number. -/
  distinct : ∀ table ∈ [t.header, t.headerValues, t.bindings, t.bindingValues, t.accessors, t.dump,
    t.dumpValues], (table.map Prod.fst).Nodup
  /-- The header has the constants of the bindings, and the base beside them. -/
  header : t.header = ("BASE_ADDR", m.base) :: t.bindings
  dump : t.dump = t.header
  dumpValues : t.dumpValues = t.headerValues
  register : ∀ r ∈ m.registers, ∀ table ∈ [t.header, t.bindings, t.accessors, t.dump],
    table.lookup (asciiUpper r.name ++ "_ADDR") = some r.address ∧
      table.lookup (asciiUpper r.name ++ "_RESET") = some r.reset
  field : ∀ r ∈ m.registers, ∀ f ∈ r.fields, ∀ table ∈ [t.header, t.bindings, t.dump],
    table.lookup (f.capitals r ++ "_WIDTH") = some f.width ∧
      table.lookup (f.capitals r ++ "_LSB") = some f.lsb ∧
      table.lookup (f.capitals r ++ "_MASK") = some f.mask ∧
      table.lookup (f.capitals r ++ "_RESET") = some f.reset
  mask : ∀ r ∈ m.registers, ∀ f ∈ r.fields, f.mask = (2 ^ f.width - 1) * 2 ^ f.lsb
  /-- Accessors have the mask of a field at bit 0. -/
  moved : ∀ r ∈ m.registers, ∀ f ∈ r.fields, ∃ moved,
    t.accessors.lookup (f.capitals r ++ "_POS") = some f.lsb ∧
      t.accessors.lookup (f.capitals r ++ "_MSK") = some moved ∧ moved * 2 ^ f.lsb = f.mask
  value : ∀ r ∈ m.registers, ∀ f ∈ r.fields, ∀ v ∈ f.values,
    ∀ table ∈ [t.headerValues, t.accessors, t.dumpValues],
      table.lookup (f.capitals r ++ "_" ++ asciiUpper v.name) = some v.value
  /-- Registers without a type of their own have no values in bindings. -/
  bindingValue : ∀ r ∈ m.registers, Bindings.hasBits m.word r → ∀ f ∈ r.fields, ∀ v ∈ f.values,
    t.bindingValues.lookup
      (camelCase r.name ++ "::" ++ camelCase f.name ++ "::" ++ camelCase v.name) = some v.value

namespace Description.Sound

variable {config : Config} {word : Word} {d : Description} (sound : d.Sound config word)
include sound

theorem allNumbers_nodup : ((d.mapOf config word).allNumbers.map Prod.fst).Nodup := by
  have apart := symbolsApart_iff.mp sound.symbolsApart .constants
  rw [AddressMap.names_allNumbers,
    Apart.nodup_iff sound.namesDiffer.items_nodup fun i _ => i.constants_nodup (by decide)]
  exact apart

end Description.Sound

/-- The tables of a map, each in the order of its file. -/
def AddressMap.tables (m : AddressMap) : Tables where
  header := ("BASE_ADDR", m.base) :: m.registers.flatMap Register.numbers
  headerValues := m.registers.flatMap Register.valueNumbers
  bindings := m.registers.flatMap Register.numbers
  bindingValues := (m.registers.filter (Bindings.hasBits m.word)).flatMap fun r =>
    r.pathValues r.fieldsByLsb
  accessors := ("BASE_ADDR", m.base) :: m.registers.flatMap Register.accessNumbers
  dump := ("BASE_ADDR", m.base) :: m.registers.flatMap Register.numbers
  dumpValues := m.registers.flatMap Register.valueNumbers

section

variable {m : AddressMap} {r : Register} (inside : r ∈ m.registers)
include inside

theorem ownNumbers_subset {table : List (String × Nat)}
    (among : table ∈ [m.tables.header, m.tables.bindings, m.tables.accessors, m.tables.dump]) :
    r.ownNumbers ⊆ table := by
  have header : r.ownNumbers ⊆ m.registers.flatMap Register.numbers := fun _ own =>
    List.mem_flatMap_of_mem inside (List.mem_append_left _ own)
  have accessors : r.ownNumbers ⊆ m.registers.flatMap Register.accessNumbers := fun _ own =>
    List.mem_flatMap_of_mem inside (List.mem_append_left _ own)
  simp only [List.mem_cons, List.not_mem_nil, or_false] at among
  rcases among with rfl | rfl | rfl | rfl
  · exact List.subset_cons_of_subset _ header
  · exact header
  · exact List.subset_cons_of_subset _ accessors
  · exact List.subset_cons_of_subset _ header

variable {f : Field} (within : f ∈ r.fields)
include within

theorem fieldNumbers_subset {table : List (String × Nat)}
    (among : table ∈ [m.tables.header, m.tables.bindings, m.tables.dump]) :
    f.numbers r ⊆ table := by
  have all : f.numbers r ⊆ m.registers.flatMap Register.numbers := fun _ own =>
    List.mem_flatMap_of_mem inside (List.mem_append_right _ (List.mem_flatMap_of_mem within own))
  simp only [List.mem_cons, List.not_mem_nil, or_false] at among
  rcases among with rfl | rfl | rfl
  · exact List.subset_cons_of_subset _ all
  · exact all
  · exact List.subset_cons_of_subset _ all

theorem accessNumbers_subset : f.accessNumbers r ⊆ m.tables.accessors := fun _ own =>
  List.mem_cons_of_mem _ (List.mem_flatMap_of_mem inside
    (List.mem_append_right _ (List.mem_flatMap_of_mem within own)))

theorem valueNumbers_subset {table : List (String × Nat)}
    (among : table ∈ [m.tables.headerValues, m.tables.accessors, m.tables.dumpValues]) :
    f.valueNumbers r ⊆ table := by
  have values : f.valueNumbers r ⊆ m.registers.flatMap Register.valueNumbers := fun _ own =>
    List.mem_flatMap_of_mem inside (List.mem_flatMap_of_mem within own)
  simp only [List.mem_cons, List.not_mem_nil, or_false] at among
  rcases among with rfl | rfl | rfl
  · exact values
  · exact fun _ own => accessNumbers_subset inside within (List.mem_append_right _ own)
  · exact values

end

theorem tables_nodup {m : AddressMap} (distinct : (m.allNumbers.map Prod.fst).Nodup)
    (paths : (m.tables.bindingValues.map Prod.fst).Nodup) :
    ∀ table ∈ [m.tables.header, m.tables.headerValues, m.tables.bindings, m.tables.bindingValues,
      m.tables.accessors, m.tables.dump, m.tables.dumpValues], (table.map Prod.fst).Nodup := by
  have among {table : List (String × Nat)} (fewer : table.Sublist m.allNumbers) :
      (table.map Prod.fst).Nodup := distinct.sublist (fewer.map _)
  have header := m.numbers_sublist
  have accessors := m.accessNumbers_sublist
  have values := m.valueNumbers_sublist.trans accessors
  have bindings := (List.sublist_cons_self _ _).trans header
  simp only [List.forall_mem_cons]
  exact ⟨among header, among values, among bindings, paths, among accessors, among header,
    among values, nofun⟩

/-- The tables of a map agree, as far as its names differ and its fields lie within their words. -/
theorem tables_agree {m : AddressMap} (distinct : (m.allNumbers.map Prod.fst).Nodup)
    (paths : (m.tables.bindingValues.map Prod.fst).Nodup) (bounded : m.Bounded) :
    m.tables.Agree m where
  distinct := tables_nodup distinct paths
  header := rfl
  dump := rfl
  dumpValues := rfl
  register r inside table among := by
    have own := ownNumbers_subset inside among
    have unique : (table.map Prod.fst).Nodup := tables_nodup distinct paths table (by
      simp only [List.mem_cons, List.not_mem_nil, or_false] at among ⊢
      tauto)
    exact ⟨lookup_of_mem unique (own (by simp [Register.ownNumbers])),
      lookup_of_mem unique (own (by simp [Register.ownNumbers]))⟩
  field r inside f within table among := by
    have own := fieldNumbers_subset inside within among
    have unique : (table.map Prod.fst).Nodup := tables_nodup distinct paths table (by
      simp only [List.mem_cons, List.not_mem_nil, or_false] at among ⊢
      tauto)
    exact ⟨lookup_of_mem unique (own (by simp [Field.numbers])),
      lookup_of_mem unique (own (by simp [Field.numbers])),
      lookup_of_mem unique (own (by simp [Field.numbers])),
      lookup_of_mem unique (own (by simp [Field.numbers]))⟩
  mask r inside f within := Field.mask_eq (bounded.inside r inside f within) m.word.bits_le
  moved r inside f within := by
    have own := accessNumbers_subset inside within
    have unique := tables_nodup distinct paths m.tables.accessors (by simp)
    exact ⟨f.mask >>> f.lsb, lookup_of_mem unique (own (by simp [Field.accessNumbers])),
      lookup_of_mem unique (own (by simp [Field.accessNumbers])),
      Field.mask_shiftRight (bounded.inside r inside f within) m.word.bits_le⟩
  value r inside f within v of table among := by
    have own := valueNumbers_subset inside within among
    have unique : (table.map Prod.fst).Nodup := tables_nodup distinct paths table (by
      simp only [List.mem_cons, List.not_mem_nil, or_false] at among ⊢
      tauto)
    exact lookup_of_mem unique (own (List.mem_map_of_mem of))
  bindingValue r inside bits f within v of := by
    refine lookup_of_mem paths (List.mem_flatMap_of_mem (List.mem_filter.mpr ⟨inside, bits⟩) ?_)
    exact List.mem_flatMap_of_mem (r.fieldsByLsb_perm.mem_iff.mpr within) (List.mem_map_of_mem of)

/-- Whatever the lead of a header is, its files are read as the tables of the map. -/
theorem read_artifacts {m : AddressMap} (whole : m.Unbroken) (bounded : m.Bounded) (ends : m.Ends)
    {lead : Option String} (given : ∀ name ∈ lead, IsWord name)
    (header bindings accessors dump : Path) :
    Tables.read (.of (lead.getD m.name)) (Header.artifact header lead m).content
      (Bindings.artifact bindings m).content (Accessors.artifact accessors m).content
      (Dump.artifact dump m).content = m.tables := by
  rw [Tables.read, Header.constantsIn_artifact whole header given,
    Header.valuesIn_artifact whole header given, Bindings.numbersIn_artifact whole bindings,
    Bindings.valuesIn_artifact whole bindings, Bindings.values_eq,
    Accessors.constantsIn_artifact whole accessors, Dump.constantsIn_artifact bounded ends dump,
    Dump.valuesIn_artifact bounded ends dump]
  rfl

/-- All files of a compiled map state its numbers, and the same ones: read back from the four
texts, constants and named values are those of the map, each name stands for one number, and what
one file states about a register, field or value is what the others do. -/
theorem compile_tables_agree {config : Config} {d : Description} {m : AddressMap}
    (compiled : compile config d = .ok m) {lead : Option String}
    (given : ∀ name ∈ lead, IsWord name) (header bindings accessors dump : Path) :
    Tables.read (.of (lead.getD m.name)) (Header.artifact header lead m).content
        (Bindings.artifact bindings m).content (Accessors.artifact accessors m).content
        (Dump.artifact dump m).content = m.tables ∧
      JsonText.read (Dump.artifact dump m).content = ((Dump.ofMap m).node, true) ∧
      m.tables.Agree m := by
  obtain ⟨word, sound, rfl⟩ := compile_eq_ok_iff.mp compiled
  have bounded := sound.bounded
  have paths := pathValues_nodup sound.namesDiffer (symbolsApart_iff.mp sound.symbolsApart .bindings)
  exact ⟨read_artifacts sound.unbroken bounded sound.ends given header bindings accessors dump,
    Dump.read_artifact bounded sound.ends dump, tables_agree sound.allNumbers_nodup paths bounded⟩

theorem compile_tables_agree_pwm :
    compile {} pwm = .ok (pwm.mapOf {} .w32) ∧
      (∀ name ∈ some "PWM", IsWord name) ∧
      Tables.read (.of "PWM")
        (Header.artifact ⟨"pwm.h"⟩ (some "PWM") (pwm.mapOf {} .w32)).content
        (Bindings.artifact ⟨"pwm.rs"⟩ (pwm.mapOf {} .w32)).content
        (Accessors.artifact ⟨"pwm.py"⟩ (pwm.mapOf {} .w32)).content
        (Dump.artifact ⟨"pwm.json"⟩ (pwm.mapOf {} .w32)).content = (pwm.mapOf {} .w32).tables ∧
      (pwm.mapOf {} .w32).tables.Agree (pwm.mapOf {} .w32) := by
  have given : ∀ name ∈ some "PWM", IsWord name := by
    rintro _ ⟨⟩
    decide
  obtain ⟨read, _, agree⟩ :=
    compile_tables_agree compile_pwm given ⟨"pwm.h"⟩ ⟨"pwm.rs"⟩ ⟨"pwm.py"⟩ ⟨"pwm.json"⟩
  exact ⟨compile_pwm, given, read, agree⟩

end RegisterMap
