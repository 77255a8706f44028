import RegisterMap.Symbol
import Mathlib.Data.List.Nodup
import Mathlib.Data.List.Pairwise

namespace RegisterMap

/-- What a map gives names to: its base address, and its registers, fields and values. -/
inductive Item where
  | base
  | register (r : Register)
  | field (r : Register) (f : Field)
  | value (r : Register) (f : Field) (v : NamedValue)
  deriving DecidableEq

namespace Item

def owner : Item → Owner
  | base => .base
  | register r => .register r.name
  | field r f => .field r.name f.name
  | value r f v => .value r.name f.name v.name

/-- The names that artifacts derive for an item, with their scopes. The type of a field is for
its values, so there is none without them. -/
def symbols : Item → List (Scope × String)
  | base => [(.constants, "BASE_ADDR")]
  | register r =>
    [(.constants, asciiUpper r.name ++ "_ADDR"),
      (.constants, asciiUpper r.name ++ "_RESET"),
      (.types, asciiLower r.name ++ "_t"),
      (.bindings, snakeCase r.name),
      (.bindings, camelCase r.name),
      (.attributes, attributeName r.name ++ "_bf"),
      (.attributes, attributeName r.name),
      (.attributes, "_Reg" ++ camelCase r.name)]
  | field r f =>
    fieldSuffixes.map (fun suffix =>
      (.constants, asciiUpper r.name ++ "_" ++ asciiUpper f.name ++ "_" ++ suffix)) ++
    [(.bindings, camelCase r.name ++ "::" ++ camelCase f.name),
      (.attributes, "_Reg" ++ camelCase r.name ++ "." ++ attributeName f.name)] ++
    if f.values.isEmpty then []
    else [(.types, asciiLower r.name ++ "_" ++ asciiLower f.name ++ "_t")]
  | value r f v =>
    [(.constants,
        asciiUpper r.name ++ "_" ++ asciiUpper f.name ++ "_" ++ asciiUpper v.name),
      (.bindings, camelCase r.name ++ "::" ++ camelCase f.name ++ "::" ++ camelCase v.name)]

end Item

/-- A field of a register with its values. -/
def Field.items (r : Register) (f : Field) : List Item :=
  .field r f :: f.values.map (.value r f)

/-- A register with its fields and their values. -/
def Register.items (r : Register) : List Item := .register r :: r.fields.flatMap (Field.items r)

/-- All items of a map. -/
def items (registers : List Register) : List Item := .base :: registers.flatMap Register.items

section

variable {registers : List Register}

theorem mem_items_iff {i : Item} :
    i ∈ items registers ↔ match i with
      | .base => True
      | .register r => r ∈ registers
      | .field r f => r ∈ registers ∧ f ∈ r.fields
      | .value r f v => r ∈ registers ∧ f ∈ r.fields ∧ v ∈ f.values := by
  cases i <;> simp [items, Register.items, Field.items]

end

/-- Claims are made item by item, each for all names of its item. -/
def Item.claims (i : Item) : List Claim := i.symbols.map fun s => ⟨s.1, s.2, i.owner⟩

theorem Field.claims_eq (r : Register) (f : Field) :
    f.claims r.name = (f.items r).flatMap Item.claims := by
  have values : f.values.flatMap (NamedValue.claims r.name f.name
      (asciiUpper r.name ++ "_" ++ asciiUpper f.name)
      (camelCase r.name ++ "::" ++ camelCase f.name)) =
        (f.values.map (Item.value r f)).flatMap Item.claims := by
    rw [List.flatMap_map]
    rfl
  unfold Field.claims items
  rw [List.flatMap_cons, ← values]
  by_cases typed : f.values.isEmpty <;>
    simp [typed, Item.claims, Item.symbols, Item.owner, fieldSuffixes]

theorem Register.claims_eq (r : Register) : r.claims = r.items.flatMap Item.claims := by
  have fields : Field.claims r.name = fun f => (f.items r).flatMap Item.claims :=
    funext (Field.claims_eq r)
  unfold claims items
  rw [List.flatMap_cons, List.flatMap_assoc, fields]
  rfl

theorem claims_eq (registers : List Register) :
    claims registers = (items registers).flatMap Item.claims := by
  have all : Register.claims = fun r => r.items.flatMap Item.claims := funext Register.claims_eq
  unfold claims items
  rw [List.flatMap_cons, List.flatMap_assoc, all]
  rfl

/-- Every item is called by an identifier. -/
structure Identifiers (registers : List Register) : Prop where
  register : ∀ r ∈ registers, isIdentifier r.name = true
  field : ∀ r ∈ registers, ∀ f ∈ r.fields, isIdentifier f.name = true
  value : ∀ r ∈ registers, ∀ f ∈ r.fields, ∀ v ∈ f.values, isIdentifier v.name = true

/-- Names differ among registers, among the fields of a register and among the values of a
field. -/
structure NamesDiffer (registers : List Register) : Prop where
  register : (registers.map Register.name).Nodup
  field : ∀ r ∈ registers, (r.fields.map Field.name).Nodup
  value : ∀ r ∈ registers, ∀ f ∈ r.fields, (f.values.map NamedValue.name).Nodup

namespace NamesDiffer

variable {registers : List Register} (differ : NamesDiffer registers)
include differ

theorem register_inj {r s : Register} (left : r ∈ registers) (right : s ∈ registers)
    (same : r.name = s.name) : r = s :=
  List.inj_on_of_nodup_map differ.register left right same

theorem field_inj {r : Register} {f g : Field} (inside : r ∈ registers) (left : f ∈ r.fields)
    (right : g ∈ r.fields) (same : f.name = g.name) : f = g :=
  List.inj_on_of_nodup_map (differ.field r inside) left right same

theorem value_inj {r : Register} {f : Field} {v w : NamedValue} (inside : r ∈ registers)
    (within : f ∈ r.fields) (left : v ∈ f.values) (right : w ∈ f.values)
    (same : v.name = w.name) : v = w :=
  List.inj_on_of_nodup_map (differ.value r inside f within) left right same

/-- An item is known by the names that lead to it. -/
theorem owner_inj {i j : Item} (left : i ∈ items registers) (right : j ∈ items registers)
    (same : i.owner = j.owner) : i = j := by
  rw [mem_items_iff] at left right
  cases i <;> cases j <;> simp only [Item.owner, Owner.register.injEq, Owner.field.injEq,
    Owner.value.injEq, reduceCtorEq] at same
  case base.base => rfl
  case register.register r s => rw [differ.register_inj left right same]
  case field.field r f s g =>
    cases differ.register_inj left.1 right.1 same.1
    rw [differ.field_inj left.1 left.2 right.2 same.2]
  case value.value r f v s g w =>
    cases differ.register_inj left.1 right.1 same.1
    cases differ.field_inj left.1 left.2.1 right.2.1 same.2.1
    rw [differ.value_inj left.1 left.2.1 left.2.2 right.2.2 same.2.2]

theorem fieldItems_nodup {r : Register} {f : Field} (inside : r ∈ registers)
    (within : f ∈ r.fields) : (f.items r).Nodup := by
  have values := (List.Nodup.of_map _ (differ.value r inside f within)).map
    (f := Item.value r f) fun _ _ same => by injection same
  exact List.nodup_cons.mpr ⟨by simp, values⟩

theorem registerItems_nodup {r : Register} (inside : r ∈ registers) : r.items.Nodup := by
  refine List.nodup_cons.mpr ⟨by simp [Field.items], List.nodup_flatMap.mpr ⟨?_, ?_⟩⟩
  · exact fun f within => differ.fieldItems_nodup inside within
  · refine (List.Nodup.of_map _ (differ.field r inside)).imp fun apart => ?_
    intro i left right
    simp only [Field.items, List.mem_cons, List.mem_map] at left right
    rcases left with rfl | ⟨v, _, rfl⟩ <;> rcases right with same | ⟨w, _, same⟩ <;>
      simp_all

theorem items_nodup : (items registers).Nodup := by
  refine List.nodup_cons.mpr ⟨by simp [Register.items, Field.items], List.nodup_flatMap.mpr
    ⟨fun r inside => differ.registerItems_nodup inside, ?_⟩⟩
  refine (List.Nodup.of_map _ differ.register).imp fun apart => ?_
  intro i left right
  simp only [Register.items, Field.items, List.mem_cons, List.mem_flatMap, List.mem_map]
    at left right
  rcases left with rfl | ⟨f, _, rfl | ⟨v, _, rfl⟩⟩ <;>
    rcases right with same | ⟨g, _, same | ⟨w, _, same⟩⟩ <;> simp_all

end NamesDiffer

/-- No two items derive one name in one scope. -/
def SymbolsApart (registers : List Register) : Prop :=
  ∀ i ∈ items registers, ∀ j ∈ items registers, ∀ s ∈ i.symbols, s ∈ j.symbols → i = j

/-- It is enough to compare each item with the later ones. -/
theorem symbolsApart_iff_pairwise {registers : List Register} : SymbolsApart registers ↔
    (items registers).Pairwise fun i j => (∀ s ∈ i.symbols, s ∉ j.symbols) ∨ i = j := by
  constructor
  · intro apart
    refine List.pairwise_of_forall_mem_list fun i left j right => ?_
    by_cases same : i = j
    · exact .inr same
    · exact .inl fun s own other => same (apart i left j right s own other)
  · intro apart i left j right s own other
    have : Std.Symm fun i j : Item => (∀ s ∈ i.symbols, s ∉ j.symbols) ∨ i = j :=
      ⟨fun i j disjoint => disjoint.imp (fun none s own other => none s other own) Eq.symm⟩
    rcases apart.forall_of_forall (fun i _ => .inr rfl) left right with disjoint | same
    · exact absurd other (disjoint s own)
    · exact same

instance {registers : List Register} : Decidable (SymbolsApart registers) :=
  decidable_of_iff _ symbolsApart_iff_pairwise.symm

section

variable {registers others : List Register}

/-- What is asked of names is about which items there are, in whatever order. -/
theorem SymbolsApart.congr (same : registers.Perm others) :
    SymbolsApart registers ↔ SymbolsApart others := by
  have inside (i : Item) : i ∈ items registers ↔ i ∈ items others := by
    rw [mem_items_iff, mem_items_iff]
    cases i <;> simp only [same.mem_iff]
  simp only [SymbolsApart, inside]

theorem NamesDiffer.congr (same : registers.Perm others) (differ : NamesDiffer registers) :
    NamesDiffer others where
  register := (same.map _).nodup_iff.mp differ.register
  field r inside := differ.field r (same.mem_iff.mpr inside)
  value r inside := differ.value r (same.mem_iff.mpr inside)

theorem Identifiers.congr (same : registers.Perm others) (identifiers : Identifiers registers) :
    Identifiers others where
  register r inside := identifiers.register r (same.mem_iff.mpr inside)
  field r inside := identifiers.field r (same.mem_iff.mpr inside)
  value r inside := identifiers.value r (same.mem_iff.mpr inside)

end

/-- A name that was free and is now held by the owner of a claim does no harm to another claim,
unless that one asks for the same name on behalf of another item. -/
theorem insert_agrees_iff {held : Holders} {c d : Claim}
    (free : held[(c.scope, c.symbol)]? = none) :
    (∀ o, (held.insert (c.scope, c.symbol) c.owner)[(d.scope, d.symbol)]? = some o →
        o = d.owner) ↔
      (∀ o, held[(d.scope, d.symbol)]? = some o → o = d.owner) ∧
        ((c.scope, c.symbol) = (d.scope, d.symbol) → c.owner = d.owner) := by
  rw [Std.HashMap.getElem?_insert]
  by_cases same : (c.scope, c.symbol) = (d.scope, d.symbol)
  · rw [if_pos (by simpa using same), ← same, free]
    simp
  · rw [if_neg (by simpa using same)]
    exact ⟨fun agrees => ⟨agrees, fun equal => absurd equal same⟩, fun both => both.1⟩

/-- Names are granted one by one. All of them are granted exactly when each is free, or held by
the item that asks for it, and equal names are asked for by one item. -/
theorem grant_eq_ok_iff {held : Holders} {asked : List Claim} :
    grant held asked = .ok () ↔
      (∀ c ∈ asked, ∀ o, held[(c.scope, c.symbol)]? = some o → o = c.owner) ∧
        asked.Pairwise fun c d => (c.scope, c.symbol) = (d.scope, d.symbol) → c.owner = d.owner := by
  induction asked generalizing held with
  | nil => simp [grant]
  | cons c rest ih =>
    rw [List.forall_mem_cons, List.pairwise_cons, grant]
    split
    · rename_i free
      have unheld : ∀ o, held[(c.scope, c.symbol)]? = some o → o = c.owner := by
        intro o taken
        rw [free] at taken
        cases taken
      rw [ih]
      constructor
      · rintro ⟨granted, others⟩
        have agrees d inside := (insert_agrees_iff free).mp (granted d inside)
        exact ⟨⟨unheld, fun d inside => (agrees d inside).1⟩,
          fun d inside => (agrees d inside).2, others⟩
      · rintro ⟨⟨_, granted⟩, first, others⟩
        exact ⟨fun d inside => (insert_agrees_iff free).mpr ⟨granted d inside, first d inside⟩,
          others⟩
    · rename_i holder taken
      split
      · rename_i own
        rw [ih]
        subst own
        constructor
        · rintro ⟨granted, others⟩
          refine ⟨⟨fun o again => ?_, granted⟩, fun d inside same => ?_, others⟩
          · exact Option.some.inj (again.symm.trans taken)
          · exact granted d inside _ (same ▸ taken)
        · rintro ⟨⟨_, granted⟩, _, others⟩
          exact ⟨granted, others⟩
      · rename_i other
        simp only [reduceCtorEq, false_iff]
        rintro ⟨⟨granted, _⟩, _⟩
        exact other (granted holder taken)

theorem mem_itemClaims_iff {i : Item} {c : Claim} :
    c ∈ i.claims ↔ (c.scope, c.symbol) ∈ i.symbols ∧ c.owner = i.owner := by
  simp only [Item.claims, List.mem_map]
  constructor
  · rintro ⟨s, derived, rfl⟩
    exact ⟨derived, rfl⟩
  · rintro ⟨derived, own⟩
    exact ⟨_, derived, own ▸ rfl⟩

/-- The symbol check passes exactly where no two items derive one name in one scope. -/
theorem checkSymbols_eq_ok_iff {registers : List Register} (differ : NamesDiffer registers) :
    checkSymbols registers = .ok () ↔ SymbolsApart registers := by
  simp only [checkSymbols, grant_eq_ok_iff, Std.HashMap.getElem?_empty, reduceCtorEq,
    false_implies, implies_true, true_and, claims_eq]
  constructor
  · intro granted i left j right s ofI ofJ
    have symmetric : Std.Symm fun c d : Claim =>
        (c.scope, c.symbol) = (d.scope, d.symbol) → c.owner = d.owner :=
      ⟨fun _ _ own same => (own same.symm).symm⟩
    have asked (k : Item) (inside : k ∈ items registers) (derived : s ∈ k.symbols) :
        (⟨s.1, s.2, k.owner⟩ : Claim) ∈ (items registers).flatMap Item.claims :=
      List.mem_flatMap.mpr ⟨k, inside, mem_itemClaims_iff.mpr ⟨derived, rfl⟩⟩
    have own := granted.forall_of_forall (fun _ _ _ => rfl) (asked i left ofI) (asked j right ofJ)
      rfl
    exact differ.owner_inj left right own
  · intro apart
    refine List.pairwise_of_forall_mem_list fun c asked d wanted same => ?_
    obtain ⟨i, left, ofI⟩ := List.mem_flatMap.mp asked
    obtain ⟨j, right, ofJ⟩ := List.mem_flatMap.mp wanted
    obtain ⟨first, ownerI⟩ := mem_itemClaims_iff.mp ofI
    obtain ⟨second, ownerJ⟩ := mem_itemClaims_iff.mp ofJ
    rw [ownerI, ownerJ, apart i left j right _ first (same ▸ second)]

end RegisterMap
