import RegisterMap.Accessors
import RegisterMap.Proofs.HeaderScope

namespace RegisterMap

/-- The two properties of a register: its word and its fields. -/
def Register.properties (r : Register) : List String :=
  [attributeName r.name, attributeName r.name ++ "_bf"]

/-- What it takes for the names of accessors to differ: the two properties of each register, the
classes of registers, and in a class the properties of its fields. -/
structure AttributesDiffer (registers : List Register) : Prop where
  properties : Apart Register.properties registers
  classes : (registers.map fun r => camelCase r.name).Nodup
  fields : ∀ r ∈ registers, (r.fields.map fun f => attributeName f.name).Nodup

theorem dot_not_mem_className {name : String} (identifier : isIdentifier name = true) :
    '.' ∉ (Accessors.fieldClassName name).toList := by
  intro inside
  rw [Accessors.fieldClassName, String.toList_append, List.mem_append] at inside
  rcases inside with start | later
  · exact absurd start (by decide)
  · exact absurd (isNameChar_of_mem_camelCase identifier later) (by decide)

theorem className_opens (name : String) : Opens (· == '_') (Accessors.fieldClassName name) :=
  .append ⟨'_', "Reg".toList, by decide, rfl⟩ _

theorem Register.properties_open {r : Register} {n : String}
    (identifier : isIdentifier r.name = true) (named : n ∈ r.properties) :
    Opens Char.isLower n := by
  have property := attributeName_opens identifier
  rcases List.mem_cons.mp named with rfl | view
  · exact property
  · rw [List.mem_singleton.mp view]
    exact property.append "_bf"

theorem Item.mem_registerAttributes_iff {r : Register} {n : String} :
    n ∈ (Item.register r).attributes ↔
      n ∈ r.properties ∨ n = Accessors.fieldClassName r.name := by
  simp only [attributes, Register.properties, Accessors.fieldClassName, List.mem_cons,
    List.not_mem_nil, or_false]
  exact or_left_comm.trans or_assoc.symm

theorem fieldPath_not_mem_register {r s : Register} (identifier : isIdentifier r.name = true)
    (rest : String) :
    Accessors.fieldClassName s.name ++ "." ++ rest ∉ (Item.register r).attributes := by
  intro named
  rcases Item.mem_registerAttributes_iff.mp named with property | fields
  · have path := ((className_opens s.name).append ".").append rest
    exact path.underscore_ne (Register.properties_open identifier property) rfl rfl
  · exact ne_append_mark rfl (dot_not_mem_className identifier) fields.symm

theorem properties_nodup_iff {registers : List Register} (differ : NamesDiffer registers) :
    (registers.flatMap Register.properties).Nodup ↔ Apart Register.properties registers := by
  refine Apart.nodup_iff (List.Nodup.of_map _ differ.register) fun r _ => ?_
  rw [Register.properties, List.nodup_cons, List.mem_singleton]
  exact ⟨name_ne_view _, List.nodup_singleton _⟩

namespace AttributesDiffer

theorem of_apart {registers : List Register} (differ : NamesDiffer registers)
    (apart : Apart Item.attributes (items registers)) : AttributesDiffer registers where
  properties := by
    intro r left s right n ofR ofS
    have fewer {t : Register} : t.properties ⊆ (Item.register t).attributes := by
      simp [Register.properties, Item.attributes]
    have same := apart (.register r) (mem_items_iff.mpr left) (.register s)
      (mem_items_iff.mpr right) n (fewer ofR) (fewer ofS)
    injection same
  classes := by
    refine List.Nodup.of_map (fun n => "_Reg" ++ n) ?_
    rw [List.map_map]
    exact differ.registers_nodup apart fun r => by simp [Item.attributes]
  fields r inside := by
    refine List.Nodup.of_map (fun n => "_Reg" ++ camelCase r.name ++ "." ++ n) ?_
    rw [List.map_map]
    exact differ.fields_nodup apart inside fun f => List.mem_singleton_self _

variable {registers : List Register} (differ : AttributesDiffer registers)
  (identifiers : Identifiers registers)
include differ identifiers

theorem register_of_name {r s : Register} {n : String} (left : r ∈ registers)
    (right : s ∈ registers) (ofR : n ∈ (Item.register r).attributes)
    (ofS : n ∈ (Item.register s).attributes) : r = s := by
  have lower {t : Register} (inside : t ∈ registers) (property : n ∈ t.properties) :=
    Register.properties_open (identifiers.register t inside) property
  rw [Item.mem_registerAttributes_iff] at ofR ofS
  rcases ofR with ofR | ofR <;> rcases ofS with ofS | ofS
  · exact differ.properties r left s right n ofR ofS
  · exact absurd ofS.symm ((className_opens s.name).underscore_ne (lower left ofR) rfl)
  · exact absurd ofR.symm ((className_opens r.name).underscore_ne (lower right ofS) rfl)
  · have same := (String.append_right_inj _).mp (ofR.symm.trans ofS)
    exact List.inj_on_of_nodup_map differ.classes left right same

/-- Two items of one name among attributes are one item. -/
theorem apart : Apart Item.attributes (items registers) := by
  intro i left j right n ofI ofJ
  rw [mem_items_iff] at left right
  cases i with
  | base | value => cases ofI
  | register r => cases j with
    | base | value => cases ofJ
    | register s => rw [differ.register_of_name identifiers left right ofI ofJ]
    | field s g =>
      rw [List.mem_singleton.mp ofJ] at ofI
      exact absurd ofI (fieldPath_not_mem_register (identifiers.register r left) _)
  | field r f => cases j with
    | base | value => cases ofJ
    | register s =>
      rw [List.mem_singleton.mp ofI] at ofJ
      exact absurd ofJ (fieldPath_not_mem_register (identifiers.register s right) _)
    | field s g =>
      rw [List.mem_singleton.mp ofI] at ofJ
      obtain ⟨sameClass, sameField⟩ := append_mark_inj '.' [] rfl
        (dot_not_mem_className (identifiers.register r left.1))
        (dot_not_mem_className (identifiers.register s right.1)) (List.mem_singleton.mp ofJ)
      cases List.inj_on_of_nodup_map differ.classes left.1 right.1
        ((String.append_right_inj _).mp sameClass)
      rw [List.inj_on_of_nodup_map (differ.fields r left.1) left.2 right.2 sameField]

end AttributesDiffer

theorem Item.constants_open {registers : List Register} (identifiers : Identifiers registers)
    {chosen : List String} {i : Item} {n : String} (inside : i ∈ items registers)
    (named : n ∈ i.constants chosen) : Opens Char.isUpper n := by
  rw [mem_items_iff] at inside
  cases i with
  | base =>
    rw [List.mem_singleton.mp named]
    exact ⟨'B', "ASE_ADDR".toList, by decide, rfl⟩
  | register r =>
    have upper := asciiUpper_opens (identifiers.register r inside)
    simp only [constants, List.mem_cons, List.not_mem_nil, or_false] at named
    rcases named with rfl | rfl <;> exact upper.append _
  | field r f =>
    have upper := asciiUpper_opens (identifiers.register r inside.1)
    obtain ⟨suffix, _, rfl⟩ := List.mem_map.mp named
    exact (((upper.append _).append _).append _).append _
  | value r f v =>
    have upper := asciiUpper_opens (identifiers.register r inside.1)
    rw [List.mem_singleton.mp named]
    exact (((upper.append _).append _).append _).append _

namespace Accessors

/-- What the constants of a field end in here. -/
def suffixes : List String := ["POS", "MSK"]

/-- All attributes of the class of a map, its interface to the bus among them. -/
def attributes (a : Accessors) : List String :=
  "BASE_ADDR" :: (a.constants.flatMap Constants.constants).map Constant.name ++
    "_if" :: a.registers.flatMap fun p => [p.word.name, p.word.name ++ "_bf"]

/-- No scope of the generated classes has a name twice: not the file, nor the class of the map,
nor the class for the fields of a register. -/
structure ScopesDiffer (a : Accessors) : Prop where
  classes : ("RegMap" :: a.fieldClasses.map FieldClass.name).Nodup
  attributes : a.attributes.Nodup
  properties : ∀ c ∈ a.fieldClasses, ("_rmap" :: c.properties.map Property.name).Nodup

theorem attributes_eq (m : AddressMap) :
    (ofMap m).attributes = (items m.registers).flatMap (Item.constants suffixes) ++
      "_if" :: m.registers.flatMap Register.properties := by
  have properties : Register.properties =
    fun r => [attributeName r.name, attributeName r.name ++ "_bf"] := rfl
  rw [items_flatMap, properties]
  simp [attributes, ofMap, registerConstants, fieldConstants, Item.constants, suffixes,
    List.map_flatMap, List.flatMap_map, String.append_assoc, Property.ofRegister,
    ← List.map_eq_flatMap, Function.comp_def]

/-- Constants begin in capitals, the interface with an underscore and properties in small letters,
so that only names of one kind can be equal. -/
theorem attributes_nodup_iff {m : AddressMap} (identifiers : Identifiers m.registers)
    (differ : NamesDiffer m.registers) :
    (ofMap m).attributes.Nodup ↔
      Apart (Item.constants suffixes) (items m.registers) ∧
        Apart Register.properties m.registers := by
  have bus : Opens (· == '_') "_if" := ⟨'_', "if".toList, by decide, rfl⟩
  have upper : ∀ n ∈ (items m.registers).flatMap (Item.constants suffixes),
      Opens Char.isUpper n := by
    intro n named
    obtain ⟨i, inside, ofItem⟩ := List.mem_flatMap.mp named
    exact Item.constants_open identifiers inside ofItem
  have lower : ∀ n ∈ m.registers.flatMap Register.properties, Opens Char.isLower n := by
    intro n named
    obtain ⟨r, inside, ofRegister⟩ := List.mem_flatMap.mp named
    exact Register.properties_open (identifiers.register r inside) ofRegister
  rw [attributes_eq, List.nodup_append, List.nodup_cons, properties_nodup_iff differ,
    Apart.nodup_iff differ.items_nodup fun i _ => i.constants_nodup (by decide)]
  constructor
  · rintro ⟨constants, ⟨_, properties⟩, _⟩
    exact ⟨constants, properties⟩
  · rintro ⟨constants, properties⟩
    refine ⟨constants, ⟨fun named => ?_, properties⟩, fun n named k other => ?_⟩
    · exact bus.underscore_ne (lower _ named) rfl rfl
    · rcases List.mem_cons.mp other with rfl | other
      · exact (bus.underscore_ne (upper n named) rfl).symm
      · exact (upper n named).upper_ne_lower (lower k other)

/-- The scopes of accessors are those that the names of items speak of. -/
theorem scopesDiffer_iff {m : AddressMap} (identifiers : Identifiers m.registers)
    (differ : NamesDiffer m.registers) :
    (ofMap m).ScopesDiffer ↔
      Apart (Item.constants suffixes) (items m.registers) ∧ AttributesDiffer m.registers := by
  have classNames : (ofMap m).fieldClasses.map FieldClass.name =
      m.registers.map fun r => fieldClassName r.name := List.map_map ..
  have classes : ("RegMap" :: (ofMap m).fieldClasses.map FieldClass.name).Nodup ↔
      (m.registers.map fun r => camelCase r.name).Nodup := by
    have ofMap : Opens Char.isUpper "RegMap" := ⟨'R', "egMap".toList, by decide, rfl⟩
    rw [classNames, List.nodup_cons]
    constructor
    · rintro ⟨_, distinct⟩
      refine List.Nodup.of_map (fun n => "_Reg" ++ n) ?_
      rwa [List.map_map]
    · intro distinct
      refine ⟨fun named => ?_, ?_⟩
      · obtain ⟨r, _, same⟩ := List.mem_map.mp named
        exact (className_opens r.name).underscore_ne ofMap rfl same
      · have prefixed := distinct.map fun _ _ same =>
          (String.append_right_inj "_Reg").mp same
        rwa [List.map_map] at prefixed
  have propertyNames (r : Register) : (r.fields.map (Property.ofField r.name)).map Property.name =
      r.fields.map fun f => attributeName f.name := List.map_map ..
  constructor
  · rintro ⟨distinct, attributes, properties⟩
    obtain ⟨constants, ofRegisters⟩ := (attributes_nodup_iff identifiers differ).mp attributes
    refine ⟨constants, ofRegisters, classes.mp distinct, fun r inside => ?_⟩
    have own := properties _ (List.mem_map_of_mem inside)
    rw [propertyNames] at own
    exact (List.nodup_cons.mp own).2
  · rintro ⟨constants, ofRegisters, distinct, fields⟩
    refine ⟨classes.mpr distinct,
      (attributes_nodup_iff identifiers differ).mpr ⟨constants, ofRegisters⟩, fun c declared => ?_⟩
    obtain ⟨r, inside, rfl⟩ := List.mem_map.mp declared
    rw [propertyNames]
    refine List.nodup_cons.mpr ⟨fun named => ?_, fields r inside⟩
    obtain ⟨f, within, same⟩ := List.mem_map.mp named
    have map : Opens (· == '_') "_rmap" := ⟨'_', "rmap".toList, by decide, rfl⟩
    exact map.underscore_ne (attributeName_opens (identifiers.field r inside f within)) rfl
      same.symm

end Accessors

end RegisterMap
