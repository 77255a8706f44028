import RegisterMap.Proofs.Items
import RegisterMap.Proofs.NameForms

namespace RegisterMap

/-- No two members of a list share a name. -/
def Apart {α β : Type} (names : α → List β) (l : List α) : Prop :=
  ∀ a ∈ l, ∀ b ∈ l, ∀ n ∈ names a, n ∈ names b → a = b

namespace Apart

variable {α β γ : Type} {names more : α → List β} {l : List α}

theorem mono (apart : Apart names l) (fewer : ∀ a ∈ l, more a ⊆ names a) : Apart more l :=
  fun a left b right n ofA ofB => apart a left b right n (fewer a left ofA) (fewer b right ofB)

/-- Names that are written one after the other all differ exactly when no two members share one,
where the members differ and none has a name twice. -/
theorem nodup_iff (distinct : l.Nodup) (own : ∀ a ∈ l, (names a).Nodup) :
    (l.flatMap names).Nodup ↔ Apart names l := by
  rw [List.nodup_flatMap]
  constructor
  · rintro ⟨_, disjoint⟩ a left b right n ofA ofB
    by_contra differ
    have symmetric : Std.Symm (Function.onFun List.Disjoint names) := ⟨fun _ _ => List.disjoint_symm⟩
    exact disjoint.forall left right differ ofA ofB
  · intro apart
    exact ⟨own, distinct.pairwise_of_forall_ne fun a left b right differ n ofA ofB =>
      differ (apart a left b right n ofA ofB)⟩

/-- Where no two members share a name, one name taken of each of some members makes a list of
names that differ. -/
theorem nodup_map {k : List γ} {name : γ → β} (place : γ → α) (apart : Apart names l)
    (injective : Function.Injective place) (distinct : k.Nodup) (inside : ∀ c ∈ k, place c ∈ l)
    (named : ∀ c ∈ k, name c ∈ names (place c)) : (k.map name).Nodup := by
  rw [List.nodup_map_iff_inj_on distinct]
  intro c left d right same
  refine injective (apart _ (inside c left) _ (inside d right) (name c) (named c left) ?_)
  rw [same]
  exact named d right

/-- Two kinds of names that never meet can be looked at one by one. -/
theorem append_iff (meet : ∀ a ∈ l, ∀ b ∈ l, ∀ n ∈ names a, n ∉ more b) :
    Apart (fun a => names a ++ more a) l ↔ Apart names l ∧ Apart more l := by
  constructor
  · intro apart
    exact ⟨apart.mono fun a _ => List.subset_append_left _ _,
      apart.mono fun a _ => List.subset_append_right _ _⟩
  · rintro ⟨first, second⟩ a left b right n ofA ofB
    rcases List.mem_append.mp ofA with ofA | ofA <;> rcases List.mem_append.mp ofB with ofB | ofB
    · exact first a left b right n ofA ofB
    · exact absurd ofB (meet a left b right n ofA)
    · exact absurd ofA (meet b right a left n ofB)
    · exact second a left b right n ofA ofB

theorem map_iff {f : β → γ} (injective : Function.Injective f) :
    Apart (fun a => (names a).map f) l ↔ Apart names l := by
  constructor
  · intro apart a left b right n ofA ofB
    exact apart a left b right (f n) (List.mem_map_of_mem ofA) (List.mem_map_of_mem ofB)
  · intro apart a left b right n ofA ofB
    obtain ⟨m, first, rfl⟩ := List.mem_map.mp ofA
    obtain ⟨k, second, same⟩ := List.mem_map.mp ofB
    rw [injective same] at second
    exact apart a left b right m first second

end Apart

namespace Item

/-- The constants of an item, where those of a field end in `suffixes`. -/
def constants (suffixes : List String) : Item → List String
  | base => ["BASE_ADDR"]
  | register r => [asciiUpper r.name ++ "_ADDR", asciiUpper r.name ++ "_RESET"]
  | field r f =>
    suffixes.map fun suffix => asciiUpper r.name ++ "_" ++ asciiUpper f.name ++ "_" ++ suffix
  | value r f v => [asciiUpper r.name ++ "_" ++ asciiUpper f.name ++ "_" ++ asciiUpper v.name]

def types : Item → List String
  | register r => [asciiLower r.name ++ "_t"]
  | field r f =>
    if f.values.isEmpty then [] else [asciiLower r.name ++ "_" ++ asciiLower f.name ++ "_t"]
  | _ => []

def bindings : Item → List String
  | base => []
  | register r => [snakeCase r.name, camelCase r.name]
  | field r f => [camelCase r.name ++ "::" ++ camelCase f.name]
  | value r f v => [camelCase r.name ++ "::" ++ camelCase f.name ++ "::" ++ camelCase v.name]

def attributes : Item → List String
  | register r => [attributeName r.name ++ "_bf", attributeName r.name, "_Reg" ++ camelCase r.name]
  | field r f => ["_Reg" ++ camelCase r.name ++ "." ++ attributeName f.name]
  | _ => []

/-- The names that an item has in a scope. -/
def names : Scope → Item → List String
  | .constants => constants fieldSuffixes
  | .types => types
  | .bindings => bindings
  | .attributes => attributes

theorem mem_names_iff {scope : Scope} {i : Item} {n : String} :
    n ∈ i.names scope ↔ (scope, n) ∈ i.symbols := by
  cases scope <;> cases i <;>
    simp [names, constants, types, bindings, attributes, symbols, fieldSuffixes, or_comm]

theorem constants_nodup {chosen : List String} (distinct : chosen.Nodup) (i : Item) :
    (i.constants chosen).Nodup := by
  cases i with
  | base => exact List.nodup_singleton _
  | register r => simp [constants, String.append_right_inj]
  | field r f => exact distinct.map fun _ _ same => (String.append_right_inj _).mp same
  | value r f v => exact List.nodup_singleton _

theorem types_nodup (i : Item) : i.types.Nodup := by
  cases i <;> simp only [types, List.nodup_nil, List.nodup_singleton]
  split <;> simp

theorem length_of_mem_types {i : Item} {n : String} (type : n ∈ i.types) : 2 ≤ n.length := by
  have ends : ∃ start, n = start ++ "_t" := by
    cases i with
    | base | value => cases type
    | register r => exact ⟨_, List.mem_singleton.mp type⟩
    | field r f =>
      rw [types] at type
      split at type
      · cases type
      · exact ⟨_, List.mem_singleton.mp type⟩
  obtain ⟨start, rfl⟩ := ends
  rw [String.length_append]
  exact Nat.le_add_left _ _

end Item

theorem symbolsApart_iff {registers : List Register} :
    SymbolsApart registers ↔ ∀ scope, Apart (Item.names scope) (items registers) := by
  constructor
  · intro apart scope i left j right n ofI ofJ
    exact apart i left j right _ (Item.mem_names_iff.mp ofI) (Item.mem_names_iff.mp ofJ)
  · rintro apart i left j right ⟨scope, n⟩ ofI ofJ
    exact apart scope i left j right n (Item.mem_names_iff.mpr ofI) (Item.mem_names_iff.mpr ofJ)

theorem flatMap_nil {α β : Type} (l : List α) : (l.flatMap fun _ => ([] : List β)) = [] :=
  List.flatMap_eq_nil_iff.mpr fun _ _ => rfl

theorem items_flatMap {α : Type} (names : Item → List α) (registers : List Register) :
    (items registers).flatMap names = names .base ++ registers.flatMap fun r =>
      names (.register r) ++ r.fields.flatMap fun f =>
        names (.field r f) ++ f.values.flatMap fun v => names (.value r f v) := by
  simp only [items, Register.items, Field.items, List.flatMap_cons, List.flatMap_assoc,
    List.flatMap_map]

namespace NamesDiffer

variable {α : Type} {registers : List Register} {names : Item → List α}
  (differ : NamesDiffer registers) (apart : Apart names (items registers))
include differ apart

theorem registers_nodup {name : Register → α} (named : ∀ r, name r ∈ names (.register r)) :
    (registers.map name).Nodup :=
  apart.nodup_map Item.register (fun _ _ same => by injection same)
    (List.Nodup.of_map _ differ.register) (fun _ inside => mem_items_iff.mpr inside)
    fun r _ => named r

theorem fields_nodup {r : Register} (inside : r ∈ registers) {name : Field → α}
    (named : ∀ f, name f ∈ names (.field r f)) : (r.fields.map name).Nodup :=
  apart.nodup_map (Item.field r) (fun _ _ same => by injection same)
    (List.Nodup.of_map _ (differ.field r inside))
    (fun _ within => mem_items_iff.mpr ⟨inside, within⟩) fun f _ => named f

theorem values_nodup {r : Register} {f : Field} (inside : r ∈ registers) (within : f ∈ r.fields)
    {name : NamedValue → α} (named : ∀ v, name v ∈ names (.value r f v)) :
    (f.values.map name).Nodup :=
  apart.nodup_map (Item.value r f) (fun _ _ same => by injection same)
    (List.Nodup.of_map _ (differ.value r inside f within))
    (fun _ part => mem_items_iff.mpr ⟨inside, within, part⟩) fun v _ => named v

end NamesDiffer

end RegisterMap
