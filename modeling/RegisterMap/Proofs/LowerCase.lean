import RegisterMap.Proofs.BindingScope
import RegisterMap.Proofs.CaseFolding
import RegisterMap.Proofs.Compiled

namespace RegisterMap

def NamedValue.lowered (v : NamedValue) : NamedValue := { v with name := asciiLower v.name }

def Field.lowered (f : Field) : Field :=
  { f with name := asciiLower f.name, values := f.values.map .lowered }

def Register.lowered (r : Register) : Register :=
  { r with name := asciiLower r.name, fields := r.fields.map .lowered }

/-- A map with all names but its own in small letters. -/
def AddressMap.lowered (m : AddressMap) : AddressMap :=
  { m with registers := m.registers.map .lowered }

@[simp] theorem NamedValue.lowered_name (v : NamedValue) : v.lowered.name = asciiLower v.name := rfl

@[simp] theorem Field.lowered_name (f : Field) : f.lowered.name = asciiLower f.name := rfl

@[simp] theorem Field.lowered_values (f : Field) : f.lowered.values = f.values.map .lowered := rfl

@[simp] theorem Register.lowered_name (r : Register) : r.lowered.name = asciiLower r.name := rfl

@[simp] theorem Register.lowered_address (r : Register) : r.lowered.address = r.address := rfl

@[simp] theorem Register.lowered_fields (r : Register) : r.lowered.fields = r.fields.map .lowered :=
  rfl

def Item.lowered : Item → Item
  | base => base
  | register r => register r.lowered
  | field r f => field r.lowered f.lowered
  | value r f v => value r.lowered f.lowered v.lowered

theorem items_lowered (registers : List Register) :
    items (registers.map .lowered) = (items registers).map .lowered := by
  simp [items, Register.items, Field.items, Item.lowered, List.map_flatMap, List.flatMap_map,
    Function.comp_def]

/-- Only the members of bindings are called by a form that tells capitals from small letters. -/
theorem Item.names_lowered {scope : Scope} (other : scope ≠ .bindings) (i : Item) :
    i.lowered.names scope = i.names scope := by
  cases scope <;> cases i <;>
    simp_all [names, lowered, constants, types, attributes]

theorem Apart.of_map {α β γ : Type} {names : α → List β} {f : γ → α} {l : List γ}
    (apart : Apart (fun c => names (f c)) l) : Apart names (l.map f) := by
  intro a left b right n ofA ofB
  obtain ⟨c, first, rfl⟩ := List.mem_map.mp left
  obtain ⟨d, second, rfl⟩ := List.mem_map.mp right
  rw [apart c first d second n ofA ofB]

section

variable {registers : List Register}

theorem Identifiers.lowered (identifiers : Identifiers registers) :
    Identifiers (registers.map .lowered) where
  register := List.forall_mem_map.mpr fun r inside =>
    isIdentifier_asciiLower (identifiers.register r inside)
  field := List.forall_mem_map.mpr fun r inside => List.forall_mem_map.mpr fun f within =>
    isIdentifier_asciiLower (identifiers.field r inside f within)
  value := List.forall_mem_map.mpr fun r inside => List.forall_mem_map.mpr fun f within =>
    List.forall_mem_map.mpr fun v part =>
      isIdentifier_asciiLower (identifiers.value r inside f within v part)

variable (differ : NamesDiffer registers) (apart : SymbolsApart registers)
include differ apart

/-- Names that differ in case alone would make one upper-case constant, or one attribute. -/
theorem NamesDiffer.lowered : NamesDiffer (registers.map .lowered) where
  register := by
    refine List.Nodup.of_map (fun name => name ++ "_t") ?_
    rw [List.map_map, List.map_map]
    exact differ.registers_nodup (symbolsApart_iff.mp apart .types) fun r => by
      simp [Item.names, Item.types]
  field := List.forall_mem_map.mpr fun r inside => by
    refine List.Nodup.of_map (fun name => "_Reg" ++ camelCase r.name ++ "." ++ attributeName name) ?_
    rw [Register.lowered_fields, List.map_map, List.map_map]
    exact differ.fields_nodup (symbolsApart_iff.mp apart .attributes) inside fun f => by
      simp [Item.names, Item.attributes]
  value := List.forall_mem_map.mpr fun r inside => List.forall_mem_map.mpr fun f within => by
    refine List.Nodup.of_map
      (fun name => asciiUpper r.name ++ "_" ++ asciiUpper f.name ++ "_" ++ asciiUpper name) ?_
    rw [Field.lowered_values, List.map_map, List.map_map]
    exact differ.values_nodup (symbolsApart_iff.mp apart .constants) inside within fun v => by
      simp [Item.names, Item.constants]

/-- The snake form of small letters tells the camel form, so a clash among members that is new in
small letters would have been one among types. -/
theorem BindingsDiffer.lowered (identifiers : Identifiers registers) :
    BindingsDiffer (registers.map .lowered) := by
  have bindings := BindingsDiffer.of_apart differ (symbolsApart_iff.mp apart .bindings)
  have members : ((registers.map Register.lowered).map fun r => snakeCase r.name).map camelCase =
      registers.map fun r => camelCase r.name := by
    simp only [List.map_map, Function.comp_def, Register.lowered_name]
    exact List.map_congr_left fun r inside =>
      camelCase_snakeCase_asciiLower (identifiers.register r inside)
  have types : (registers.map Register.lowered).map (fun r => camelCase r.name) =
      registers.map fun r => camelCase r.name := by
    simp only [List.map_map, Function.comp_def, Register.lowered_name, camelCase_asciiLower]
  have fields (r : Register) : r.lowered.fields.map (fun f => camelCase f.name) =
      r.fields.map fun f => camelCase f.name := by
    simp only [Register.lowered_fields, List.map_map, Function.comp_def, Field.lowered_name,
      camelCase_asciiLower]
  have values (f : Field) : f.lowered.values.map (fun v => camelCase v.name) =
      f.values.map fun v => camelCase v.name := by
    simp only [Field.lowered_values, List.map_map, Function.comp_def, NamedValue.lowered_name,
      camelCase_asciiLower]
  refine ⟨.of_map camelCase ?_, ?_, ?_, ?_⟩
  · rw [members]
    exact bindings.types
  · rw [types]
    exact bindings.types
  · refine List.forall_mem_map.mpr fun r inside => ?_
    rw [fields]
    exact bindings.fields r inside
  · refine List.forall_mem_map.mpr fun r inside => List.forall_mem_map.mpr fun f within => ?_
    rw [values]
    exact bindings.values r inside f within

theorem SymbolsApart.lowered (identifiers : Identifiers registers) :
    SymbolsApart (registers.map .lowered) := by
  refine symbolsApart_iff.mpr fun scope => ?_
  by_cases bindings : scope = .bindings
  · subst bindings
    exact (BindingsDiffer.lowered differ apart identifiers).apart identifiers.lowered
  · rw [items_lowered]
    refine Apart.of_map ?_
    simp only [Item.names_lowered bindings]
    exact symbolsApart_iff.mp apart scope

end

section

variable (case : NameCase)

theorem ValueEntry.built_lower (v : ValueEntry) : v.built .lower = (v.built case).lowered := by
  simp [built, NamedValue.lowered, NameCase.apply_lower case]

theorem FieldEntry.built_lower (f : FieldEntry) : f.built .lower = (f.built case).lowered := by
  simp [built, Field.lowered, NameCase.apply_lower case, ValueEntry.built_lower case]

theorem RegisterEntry.built_lower (r : RegisterEntry) : r.built .lower = (r.built case).lowered := by
  simp [built, Register.lowered, NameCase.apply_lower case, FieldEntry.built_lower case]

theorem Description.built_lower (d : Description) :
    d.built .lower = (d.built case).map .lowered := by
  simp [built, RegisterEntry.built_lower case]

end

section

variable {case : NameCase}

theorem ValueEntry.Sound.lower {width : Nat} {v : ValueEntry} (sound : v.Sound case width) :
    v.Sound .lower width where
  name := NameCase.apply_lower case _ ▸ isIdentifier_asciiLower sound.name
  description := sound.description
  fits := sound.fits

theorem FieldEntry.Sound.lower {bits : Nat} {f : FieldEntry} (sound : f.Sound case bits)
    (names : ((f.built .lower).values.map NamedValue.name).Nodup) : f.Sound .lower bits where
  name := NameCase.apply_lower case _ ▸ isIdentifier_asciiLower sound.name
  description := sound.description
  width_pos := sound.width_pos
  inside := sound.inside
  reset := sound.reset
  modifiers := sound.modifiers
  values v part := (sound.values v part).lower
  valueNames := by rwa [FieldEntry.built, List.map_map] at names
  valueNumbers := sound.valueNumbers

theorem RegisterEntry.Sound.lower {bits : Nat} {r : RegisterEntry} (sound : r.Sound case bits)
    (fields : ((r.built .lower).fields.map Field.name).Nodup)
    (values : ∀ f ∈ (r.built .lower).fields, (f.values.map NamedValue.name).Nodup) :
    r.Sound .lower bits where
  name := NameCase.apply_lower case _ ▸ isIdentifier_asciiLower sound.name
  description := sound.description
  fields_ne_nil := sound.fields_ne_nil
  fields f part := (sound.fields f part).lower (values _ (List.mem_map_of_mem part))
  fieldNames := by rwa [RegisterEntry.built, List.map_map] at fields
  apart := sound.apart

end

theorem byAddress_lowered (registers : List Register) :
    byAddress (registers.map .lowered) = (byAddress registers).map .lowered := by
  rw [byAddress, byAddress, List.map_mergeSort]
  exact fun _ _ _ _ => rfl

theorem reserved_lowered (word : Word) (cursor : Nat) (registers : List Register) :
    (slotLine word cursor (registers.map .lowered)).filterMap Slot.reserved? =
      (slotLine word cursor registers).filterMap Slot.reserved? := by
  induction registers generalizing cursor with
  | nil => rfl
  | cons r rest ih => simp [slotLine, List.filterMap_cons, ih]

section

variable {config : Config} {word : Word} {d : Description}

theorem Description.mapOf_lower :
    d.mapOf { config with nameCase := .lower } word = (d.mapOf config word).lowered := by
  simp only [mapOf, AddressMap.lowered, built_lower config.nameCase, byAddress_lowered,
    Config.baseOf, reserved_lowered]

theorem Placed.lowered {base : Nat} {registers : List Register}
    (placed : Placed base word registers) (names : NamesDiffer (registers.map .lowered)) :
    Placed base word (registers.map .lowered) where
  names := names.register
  baseAligned := placed.baseAligned
  inRange := List.forall_mem_map.mpr fun r inside =>
    let inRange := placed.inRange r inside
    ⟨inRange.aligned, inRange.above, inRange.ends⟩
  addresses := by
    rw [List.map_map]
    exact placed.addresses

theorem Description.Sound.lower (sound : d.Sound config word) :
    d.Sound { config with nameCase := .lower } word := by
  have before : NamesDiffer (d.built config.nameCase) :=
    namesDiffer_built sound.registers sound.placed.names
  have names := before.lowered sound.symbols
  have symbols := sound.symbols.lowered before (identifiers_built sound.registers)
  have placed := sound.placed.lowered names
  rw [← built_lower config.nameCase] at names symbols placed
  refine ⟨sound.width, sound.name, fun r member => ?_, placed, symbols⟩
  have inside : r.built .lower ∈ d.built .lower := List.mem_map_of_mem member
  exact (sound.registers r member).lower (names.field _ inside) (names.value _ inside)

end

/-- A description that is accepted under any case of names is accepted in small letters as well,
and makes the same map but for its names. Two names that only fall together in small letters would
have been refused before, for other names that are derived from them. -/
theorem compile_lower {config : Config} {d : Description} {m : AddressMap}
    (compiled : compile config d = .ok m) :
    compile { config with nameCase := .lower } d = .ok m.lowered := by
  obtain ⟨word, sound, rfl⟩ := compile_eq_ok_iff.mp compiled
  exact compile_eq_ok_iff.mpr ⟨word, sound.lower, Description.mapOf_lower⟩

/-- Names in both cases, one with more than one underscore between its words. -/
def fifo : Description where
  name := "fifo"
  registers :=
    [{ name := "rxData", address := 4, fields := [{ name := "Byte", width := 8 }] },
      { name := "TX__Data", address := 0,
        fields :=
          [{ name := "BYTE", width := 8, reset := 0xff,
             values := [{ name := "None", value := 0xff }] }] }]

theorem compile_lower_fifo :
    compile {} fifo = .ok (fifo.mapOf {} .w32) ∧
      compile { nameCase := .lower } fifo = .ok (fifo.mapOf {} .w32).lowered ∧
      (fifo.built .asWritten).map (·.lowered.name) = ["rxdata", "tx__data"] := by
  have compiled : compile {} fifo = .ok (fifo.mapOf {} .w32) :=
    compile_eq_ok_iff.mpr ⟨.w32, by decide +kernel, rfl⟩
  exact ⟨compiled, compile_lower compiled, by cbv⟩

end RegisterMap
