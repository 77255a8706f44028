import RegisterMap.Header
import RegisterMap.Proofs.Scopes

namespace RegisterMap.Header

/-- The names that a declaration brings into its file. Those of named values are among them, for
an enumeration has no scope of its own. -/
def Declaration.names : Declaration → List String
  | .define name _ | .bits name _ | .map name _ | .overlay name _ _ => [name]
  | .values name enumerators => name :: enumerators.map Enumerator.name
  | .remark _ _ | .space => []

/-- All names of a header. -/
def fileScope (lead : Lead) (m : AddressMap) : List String :=
  (declarations lead m).flatMap Declaration.names

/-- What the constants of a field end in here. -/
def suffixes : List String := ["WIDTH", "LSB", "MASK", "RESET"]

/-- Constants begin in capitals and types in small letters, each with the lead. -/
def itemNames (lead : Lead) (i : Item) : List String :=
  (i.constants suffixes).map (fun n => lead.capital ++ "_" ++ n) ++
    i.types.map fun n => lead.small ++ "_" ++ n

theorem fieldDeclarations_names (lead : Lead) (r : Register) (f : Field) :
    (fieldDeclarations lead r f).flatMap Declaration.names =
      itemNames lead (.field r f) ++ f.values.flatMap fun v => itemNames lead (.value r f v) := by
  by_cases typed : f.values = []
  · simp [typed, fieldDeclarations, Declaration.names, itemNames, Item.constants, Item.types,
      suffixes, Lead.constant, String.intercalate_cons_cons, String.append_assoc]
  · simp [typed, fieldDeclarations, Declaration.names, itemNames, Item.constants, Item.types,
      suffixes, Lead.constant, Lead.typeName, String.intercalate_cons_cons, String.append_assoc,
      ← List.map_eq_flatMap]

theorem registerDeclarations_names (lead : Lead) (word : Word) (r : Register) :
    (registerDeclarations lead word r).flatMap Declaration.names =
      itemNames lead (.register r) ++ r.fields.flatMap fun f =>
        itemNames lead (.field r f) ++ f.values.flatMap fun v => itemNames lead (.value r f v) := by
  simp only [registerDeclarations, List.flatMap_append, List.flatMap_assoc, fieldDeclarations_names]
  congr 1
  simp [Declaration.names, itemNames, Item.constants, Item.types, Lead.constant, Lead.typeName,
    String.intercalate_cons_cons, String.append_assoc]

/-- A header names the items of its map one after the other, and at its end the map itself. -/
theorem fileScope_eq (lead : Lead) (m : AddressMap) :
    fileScope lead m = (items m.registers).flatMap (itemNames lead) ++
      [lead.typeName [], lead.capital] := by
  simp only [fileScope, declarations, List.flatMap_append, List.flatMap_assoc,
    registerDeclarations_names, items_flatMap]
  simp [Declaration.names, itemNames, Item.constants, Item.types, Lead.constant, Lead.typeName,
    String.intercalate_cons_cons, String.append_assoc]

theorem capital_of_isAlpha {c : Char} (letter : c.isAlpha = true) : capital c = [c.toUpper] := by
  have ranges := isAlpha_ranges letter
  exact if_pos (by omega)

theorem small_of_isAlpha {c : Char} (letter : c.isAlpha = true) : small c = [c.toLower] := by
  have ranges := isAlpha_ranges letter
  exact if_pos (by omega)

theorem toCapitals_opens {name : String} (identifier : isIdentifier name = true) :
    Opens Char.isUpper (toCapitals name) := by
  obtain ⟨c, rest, letters, first, _⟩ := isIdentifier_iff.mp identifier
  refine ⟨c.toUpper, rest.flatMap capital, ?_, by rwa [Char.isUpper_toUpper_eq_isAlpha]⟩
  rw [toCapitals, String.toList_ofList, letters, List.flatMap_cons, capital_of_isAlpha first]
  rfl

theorem toSmallLetters_opens {name : String} (opens : Opens Char.isUpper name) :
    Opens Char.isLower (toSmallLetters name) := by
  obtain ⟨c, rest, letters, first⟩ := opens
  have letter : c.isAlpha = true := by rw [Char.isAlpha, first, Bool.true_or]
  have latin : c ≠ 'Σ' := by
    rintro rfl
    have ranges := isAlpha_ranges letter
    revert ranges
    decide
  refine ⟨c.toLower, smallAfter [c] rest, ?_, by rwa [Char.isLower_toLower_eq_isAlpha]⟩
  rw [toSmallLetters, String.toList_ofList, letters, smallAfter, if_neg latin,
    small_of_isAlpha letter]
  rfl

theorem typeName_nil (lead : Lead) : lead.typeName [] = lead.small ++ "_" ++ "t" := by
  simp [Lead.typeName, String.intercalate_cons_cons, String.append_assoc]

section

variable {lead : Lead} (capital : Opens Char.isUpper lead.capital)
  (small : Opens Char.isLower lead.small)
include capital small

theorem constant_ne_type (n k : String) : lead.capital ++ "_" ++ n ≠ lead.small ++ "_" ++ k :=
  ((capital.append "_").append n).upper_ne_lower ((small.append "_").append k)

theorem itemNames_nodup (i : Item) : (itemNames lead i).Nodup := by
  refine List.nodup_append.mpr ⟨?_, ?_, ?_⟩
  · exact (i.constants_nodup (by decide)).map fun _ _ same => (String.append_right_inj _).mp same
  · exact i.types_nodup.map fun _ _ same => (String.append_right_inj _).mp same
  · intro n constant k type
    obtain ⟨_, _, rfl⟩ := List.mem_map.mp constant
    obtain ⟨_, _, rfl⟩ := List.mem_map.mp type
    exact constant_ne_type capital small _ _

/-- No item is called like the map itself. -/
theorem itemNames_ne_map {i : Item} {n : String} (named : n ∈ itemNames lead i) :
    n ≠ lead.typeName [] ∧ n ≠ lead.capital := by
  rw [typeName_nil]
  rcases List.mem_append.mp named with constant | type
  · obtain ⟨k, _, rfl⟩ := List.mem_map.mp constant
    refine ⟨constant_ne_type capital small _ _, fun same => ?_⟩
    have lengths := congrArg String.length same
    rw [String.length_append, String.length_append, show "_".length = 1 from rfl] at lengths
    omega
  · obtain ⟨k, member, rfl⟩ := List.mem_map.mp type
    refine ⟨fun same => ?_, fun same => ?_⟩
    · rw [String.append_right_inj] at same
      subst same
      exact absurd (Item.length_of_mem_types member) (by decide)
    · exact capital.upper_ne_lower ((small.append "_").append k) same.symm

end

/-- The names of a header differ exactly when no two items share a constant or a type. -/
theorem fileScope_nodup_iff {lead : Lead} {m : AddressMap}
    (capital : Opens Char.isUpper lead.capital) (small : Opens Char.isLower lead.small)
    (distinct : (items m.registers).Nodup) :
    (fileScope lead m).Nodup ↔
      Apart (Item.constants suffixes) (items m.registers) ∧
        Apart Item.types (items m.registers) := by
  have injective (start : String) : Function.Injective fun n => start ++ "_" ++ n :=
    fun _ _ same => (String.append_right_inj _).mp same
  have ofMap : [lead.typeName [], lead.capital].Nodup := by
    rw [List.nodup_cons, List.mem_singleton, typeName_nil]
    exact ⟨(capital.upper_ne_lower ((small.append "_").append "t")).symm, List.nodup_singleton _⟩
  have others : ∀ n ∈ (items m.registers).flatMap (itemNames lead),
      ∀ k ∈ [lead.typeName [], lead.capital], n ≠ k := by
    intro n named k outer
    obtain ⟨i, _, named⟩ := List.mem_flatMap.mp named
    obtain ⟨type, overlay⟩ := itemNames_ne_map capital small named
    rcases List.mem_cons.mp outer with rfl | outer
    · exact type
    · rwa [List.mem_singleton.mp outer]
  have meet (i j : Item) : ∀ n ∈ (i.constants suffixes).map (fun n => lead.capital ++ "_" ++ n),
      n ∉ j.types.map fun n => lead.small ++ "_" ++ n := by
    intro n constant type
    obtain ⟨_, _, rfl⟩ := List.mem_map.mp constant
    obtain ⟨_, _, same⟩ := List.mem_map.mp type
    exact constant_ne_type capital small _ _ same.symm
  calc (fileScope lead m).Nodup
      ↔ ((items m.registers).flatMap (itemNames lead)).Nodup := by
        rw [fileScope_eq, List.nodup_append]
        exact ⟨fun all => all.1, fun own => ⟨own, ofMap, others⟩⟩
    _ ↔ Apart (itemNames lead) (items m.registers) :=
        Apart.nodup_iff distinct fun i _ => itemNames_nodup capital small i
    _ ↔ _ := Apart.append_iff fun i _ j _ => meet i j
    _ ↔ _ := and_congr (Apart.map_iff (injective _)) (Apart.map_iff (injective _))

end RegisterMap.Header
