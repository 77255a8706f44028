import RegisterMap.Bindings
import RegisterMap.Proofs.HeaderScope
import RegisterMap.Proofs.FieldLayout
import RegisterMap.Proofs.SlotNames

namespace RegisterMap

/-- What it takes for the names of bindings to differ: those of registers as members and as types,
and in camel case those of fields and values within what they belong to. -/
structure BindingsDiffer (registers : List Register) : Prop where
  members : (registers.map fun r => snakeCase r.name).Nodup
  types : (registers.map fun r => camelCase r.name).Nodup
  fields : ∀ r ∈ registers, (r.fields.map fun f => camelCase f.name).Nodup
  values : ∀ r ∈ registers, ∀ f ∈ r.fields, (f.values.map fun v => camelCase v.name).Nodup

theorem colon_not_mem_camelCase {name : String} (identifier : isIdentifier name = true) :
    ':' ∉ (camelCase name).toList := fun inside =>
  absurd (isNameChar_of_mem_camelCase identifier inside) (by decide)

theorem path_opens {name : String} (identifier : isIdentifier name = true) (rest : String) :
    Opens Char.isUpper (camelCase name ++ "::" ++ rest) :=
  ((camelCase_opens identifier).append "::").append rest

theorem valuePath_eq (register field value : String) :
    register ++ "::" ++ field ++ "::" ++ value = register ++ "::" ++ (field ++ "::" ++ value) := by
  simp only [String.append_assoc]

theorem path_not_mem_register {r s : Register} (left : isIdentifier r.name = true)
    (right : isIdentifier s.name = true) (rest : String) :
    camelCase s.name ++ "::" ++ rest ∉ (Item.register r).bindings := by
  intro named
  rcases List.mem_cons.mp named with member | type
  · exact (path_opens right rest).upper_ne_lower (snakeCase_opens left) member
  · exact ne_append_mark rfl (colon_not_mem_camelCase left) (List.mem_singleton.mp type).symm

namespace BindingsDiffer

theorem of_apart {registers : List Register} (differ : NamesDiffer registers)
    (apart : Apart Item.bindings (items registers)) : BindingsDiffer registers where
  members := differ.registers_nodup apart fun r => by simp [Item.bindings]
  types := differ.registers_nodup apart fun r => by simp [Item.bindings]
  fields r inside := by
    refine List.Nodup.of_map (fun n => camelCase r.name ++ "::" ++ n) ?_
    rw [List.map_map]
    exact differ.fields_nodup apart inside fun f => List.mem_singleton_self _
  values r inside f within := by
    refine List.Nodup.of_map
      (fun n => camelCase r.name ++ "::" ++ camelCase f.name ++ "::" ++ n) ?_
    rw [List.map_map]
    exact differ.values_nodup apart inside within fun v => List.mem_singleton_self _

variable {registers : List Register} (differ : BindingsDiffer registers)
  (identifiers : Identifiers registers)
include differ identifiers

/-- The type of a register tells the register, wherever it stands in front of a path. -/
theorem register_of_path {r s : Register} {x y : String} (left : r ∈ registers)
    (right : s ∈ registers)
    (same : camelCase r.name ++ "::" ++ x = camelCase s.name ++ "::" ++ y) : r = s ∧ x = y := by
  obtain ⟨first, second⟩ := append_mark_inj ':' [':'] rfl
    (colon_not_mem_camelCase (identifiers.register r left))
    (colon_not_mem_camelCase (identifiers.register s right)) same
  exact ⟨List.inj_on_of_nodup_map differ.types left right first, second⟩

theorem register_of_name {r s : Register} {n : String} (left : r ∈ registers)
    (right : s ∈ registers) (ofR : n ∈ (Item.register r).bindings)
    (ofS : n ∈ (Item.register s).bindings) : r = s := by
  have upper {t : Register} (inside : t ∈ registers) := camelCase_opens (identifiers.register t inside)
  have lower {t : Register} (inside : t ∈ registers) := snakeCase_opens (identifiers.register t inside)
  simp only [Item.bindings, List.mem_cons, List.not_mem_nil, or_false] at ofR ofS
  rcases ofR with rfl | rfl <;> rcases ofS with same | same
  · exact List.inj_on_of_nodup_map differ.members left right same
  · exact absurd same.symm ((upper right).upper_ne_lower (lower left))
  · exact absurd same ((upper left).upper_ne_lower (lower right))
  · exact List.inj_on_of_nodup_map differ.types left right same

/-- Two items of one name among bindings are one item. -/
theorem apart : Apart Item.bindings (items registers) := by
  intro i left j right n ofI ofJ
  rw [mem_items_iff] at left right
  cases i with
  | base => cases ofI
  | register r => cases j with
    | base => cases ofJ
    | register s => rw [differ.register_of_name identifiers left right ofI ofJ]
    | field s g =>
      rw [List.mem_singleton.mp ofJ] at ofI
      exact absurd ofI (path_not_mem_register (identifiers.register r left)
        (identifiers.register s right.1) _)
    | value s g w =>
      rw [List.mem_singleton.mp ofJ, valuePath_eq] at ofI
      exact absurd ofI (path_not_mem_register (identifiers.register r left)
        (identifiers.register s right.1) _)
  | field r f => cases j with
    | base => cases ofJ
    | register s =>
      rw [List.mem_singleton.mp ofI] at ofJ
      exact absurd ofJ (path_not_mem_register (identifiers.register s right)
        (identifiers.register r left.1) _)
    | field s g =>
      rw [List.mem_singleton.mp ofI] at ofJ
      obtain ⟨rfl, same⟩ := differ.register_of_path identifiers left.1 right.1
        (List.mem_singleton.mp ofJ)
      rw [List.inj_on_of_nodup_map (differ.fields r left.1) left.2 right.2 same]
    | value s g w =>
      rw [List.mem_singleton.mp ofI] at ofJ
      obtain ⟨rfl, same⟩ := differ.register_of_path identifiers left.1 right.1
        ((List.mem_singleton.mp ofJ).trans (valuePath_eq ..))
      exact absurd same (ne_append_mark rfl
        (colon_not_mem_camelCase (identifiers.field r left.1 f left.2)))
  | value r f v => cases j with
    | base => cases ofJ
    | register s =>
      rw [List.mem_singleton.mp ofI, valuePath_eq] at ofJ
      exact absurd ofJ (path_not_mem_register (identifiers.register s right)
        (identifiers.register r left.1) _)
    | field s g =>
      rw [List.mem_singleton.mp ofI] at ofJ
      obtain ⟨rfl, same⟩ := differ.register_of_path identifiers left.1 right.1
        ((valuePath_eq ..).symm.trans (List.mem_singleton.mp ofJ))
      exact absurd same.symm (ne_append_mark rfl
        (colon_not_mem_camelCase (identifiers.field r left.1 g right.2)))
    | value s g w =>
      rw [List.mem_singleton.mp ofI] at ofJ
      obtain ⟨rfl, same⟩ := differ.register_of_path identifiers left.1 right.1
        ((valuePath_eq ..).symm.trans ((List.mem_singleton.mp ofJ).trans (valuePath_eq ..)))
      obtain ⟨sameField, sameValue⟩ := append_mark_inj ':' [':'] rfl
        (colon_not_mem_camelCase (identifiers.field r left.1 f left.2.1))
        (colon_not_mem_camelCase (identifiers.field r left.1 g right.2.1)) same
      cases List.inj_on_of_nodup_map (differ.fields r left.1) left.2.1 right.2.1 sameField
      rw [List.inj_on_of_nodup_map (differ.values r left.1 f left.2.1) left.2.2 right.2.2 sameValue]

end BindingsDiffer

namespace Bindings

/-- The name of a member of the structure of a map. -/
def Content.name : Content → String
  | .reserved index => "_reserved" ++ decimal index
  | .register name _ _ => name

/-- No scope of the generated code has a name twice: not the module of constants, nor that of
types, nor a type, nor a field, nor the structure of the map. -/
structure ScopesDiffer (b : Bindings) : Prop where
  constants : ((b.constants.flatMap Constants.constants).map Constant.name).Nodup
  types : (b.bits.map BitsType.name).Nodup
  fields : ∀ t ∈ b.bits, (t.fields.map BitsField.name).Nodup
  values : ∀ t ∈ b.bits, ∀ f ∈ t.fields, (f.values.map BitsValue.name).Nodup
  members : (b.entries.map fun e => e.content.name).Nodup

/-- The constants of an item that bindings have: they leave out the base and all values. -/
def itemConstants : Item → List String
  | .register r => (Item.register r).constants Header.suffixes
  | .field r f => (Item.field r f).constants Header.suffixes
  | _ => []

theorem constants_eq (m : AddressMap) :
    ((ofMap m).constants.flatMap Constants.constants).map Constant.name =
      (items m.registers).flatMap itemConstants := by
  rw [items_flatMap]
  simp [ofMap, registerConstants, fieldConstants, itemConstants, Item.constants, Header.suffixes,
    List.map_flatMap, List.flatMap_map, String.append_assoc, flatMap_nil]

theorem constants_nodup {m : AddressMap} (distinct : (items m.registers).Nodup)
    (apart : Apart (Item.constants Header.suffixes) (items m.registers)) :
    (((ofMap m).constants.flatMap Constants.constants).map Constant.name).Nodup := by
  have fewer (i : Item) : itemConstants i ⊆ i.constants Header.suffixes := by
    cases i <;> simp [itemConstants]
  have own (i : Item) : (itemConstants i).Nodup := by
    cases i with
    | base | value => exact List.nodup_nil
    | register r => exact Item.constants_nodup (show Header.suffixes.Nodup by decide) (.register r)
    | field r f => exact Item.constants_nodup (show Header.suffixes.Nodup by decide) (.field r f)
  rw [constants_eq, Apart.nodup_iff distinct fun i _ => own i]
  exact apart.mono fun i _ => fewer i

theorem members_eq (word : Word) (base index : Nat) (slots : List Slot) :
    (entriesOf word base index slots).map (fun e => e.content.name) =
      slotNames ("_reserved" ++ decimal ·) (fun r => [snakeCase r.name]) index slots := by
  induction slots generalizing index with
  | nil => rfl
  | cons slot rest ih => cases slot with
    | register r => exact congrArg (snakeCase r.name :: ·) (ih index)
    | reserved s => exact congrArg (("_reserved" ++ decimal index) :: ·) (ih (index + 1))

/-- A register without a type of its own has one field, and that has no values. -/
theorem field_of_not_hasBits {word : Word} {r : Register} (plain : ¬ hasBits word r = true) :
    ∃ f, r.fields = [f] ∧ f.values = [] := by
  unfold hasBits at plain
  split at plain
  · rename_i f only
    refine ⟨f, only, ?_⟩
    simp_all
  · exact absurd rfl plain

/-- The scopes of bindings are those that the paths of items speak of. A register without a type
of its own has no fields or values to mistake for each other. -/
theorem scopesDiffer_iff {m : AddressMap} (identifiers : Identifiers m.registers)
    (distinct : (items m.registers).Nodup)
    (constants : Apart (Item.constants Header.suffixes) (items m.registers))
    (types : (m.registers.map fun r => camelCase r.name).Nodup) :
    (ofMap m).ScopesDiffer ↔ BindingsDiffer m.registers := by
  have typed {r : Register} (inside : r ∈ m.registers) (bits : hasBits m.word r = true) :
      BitsType.of r ∈ (ofMap m).bits :=
    List.mem_map_of_mem (List.mem_filter.mpr ⟨inside, bits⟩)
  have declared {f : Field} {r : Register} (within : f ∈ r.fields) :
      BitsField.of f ∈ (BitsType.of r).fields :=
    List.mem_map_of_mem (r.fieldsByLsb_perm.mem_iff.mpr within)
  have bitsNames : (ofMap m).bits.map BitsType.name =
      (m.registers.filter (hasBits m.word)).map fun r => camelCase r.name := List.map_map ..
  have fieldNames (r : Register) : ((BitsType.of r).fields.map BitsField.name).Nodup ↔
      (r.fields.map fun f => camelCase f.name).Nodup := by
    rw [BitsType.of, List.map_map]
    exact (r.fieldsByLsb_perm.map _).nodup_iff
  have valueNames (f : Field) : (BitsField.of f).values.map BitsValue.name =
      f.values.map fun v => camelCase v.name := List.map_map ..
  have memberNames : ((ofMap m).entries.map fun e => e.content.name).Nodup ↔
      (m.registers.map fun r => snakeCase r.name).Nodup := by
    have injective : Function.Injective ("_reserved" ++ decimal ·) := fun _ _ same =>
      decimal_injective ((String.append_right_inj _).mp same)
    rw [ofMap, members_eq, slotNames_nodup_iff _ _ injective, ← List.map_eq_flatMap]
    refine and_iff_left fun r inside n named i _ => ?_
    rw [List.mem_singleton.mp named]
    have reserved : Opens (· == '_') ("_reserved" ++ decimal i) :=
      .append ⟨'_', "reserved".toList, by decide, rfl⟩ _
    exact (reserved.underscore_ne (snakeCase_opens (identifiers.register r inside)) rfl).symm
  constructor
  · rintro ⟨_, _, fields, values, members⟩
    refine ⟨memberNames.mp members, types, fun r inside => ?_, fun r inside f within => ?_⟩
    · by_cases bits : hasBits m.word r = true
      · exact (fieldNames r).mp (fields _ (typed inside bits))
      · obtain ⟨f, only, _⟩ := field_of_not_hasBits bits
        rw [only]
        exact List.nodup_singleton _
    · by_cases bits : hasBits m.word r = true
      · rw [← valueNames]
        exact values _ (typed inside bits) _ (declared within)
      · obtain ⟨g, only, none⟩ := field_of_not_hasBits bits
        rw [only] at within
        rw [List.mem_singleton.mp within, none]
        exact List.nodup_nil
  · rintro ⟨members, types, fields, values⟩
    refine ⟨constants_nodup distinct constants, ?_, ?_, ?_, memberNames.mpr members⟩
    · rw [bitsNames]
      exact types.sublist (List.filter_sublist.map _)
    · intro t inside
      obtain ⟨r, among, rfl⟩ := List.mem_map.mp inside
      exact (fieldNames r).mpr (fields r (List.mem_filter.mp among).1)
    · intro t inside g within
      obtain ⟨r, among, rfl⟩ := List.mem_map.mp inside
      obtain ⟨f, part, rfl⟩ := List.mem_map.mp within
      rw [valueNames]
      exact values r (List.mem_filter.mp among).1 f (r.fieldsByLsb_perm.mem_iff.mp part)

end Bindings

end RegisterMap
