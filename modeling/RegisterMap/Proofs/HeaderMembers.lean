import RegisterMap.Proofs.Compiled
import RegisterMap.Proofs.HeaderMacros
import RegisterMap.Proofs.SlotNames

namespace RegisterMap

namespace Header

/-- What it takes to reach every register of a map by its name, as the text of a header shows it: no
two members of the structure of the map, which is the last one, have one name, and no macro takes the
place of a register or of a field. -/
structure WellNamed (content : String) : Prop where
  members : ∀ s ∈ (structuresIn content).getLast?, (s.2.flatMap Component.names).Nodup
  registers : ∀ s ∈ (structuresIn content).getLast?,
    ∀ a ∈ s.2.flatMap Component.alternatives, a.2 ∉ macrosIn content
  fields : ∀ s ∈ (structuresIn content).dropLast,
    ∀ n ∈ s.2.flatMap Component.names, n ∉ macrosIn content

theorem names_mapComponents (lead : Lead) (m : AddressMap) :
    (mapComponents lead m).flatMap Component.names =
      slotNames ("RESERVED" ++ decimal ·) (fun r => [r.name, r.name ++ "_bf"]) 0 m.slots := by
  rw [mapComponents]
  generalize 0 = index
  induction m.slots generalizing index with
  | nil => rfl
  | cons slot rest ih => cases slot with
    | register r => exact congrArg ([r.name, r.name ++ "_bf"] ++ ·) (ih index)
    | reserved s => exact congrArg (("RESERVED" ++ decimal index) :: ·) (ih (index + 1))

theorem alternatives_mapComponents (lead : Lead) (m : AddressMap) :
    (mapComponents lead m).flatMap Component.alternatives =
      m.registers.flatMap fun r =>
        [(storage m.word, r.name), (lead.typeName [asciiLower r.name], r.name ++ "_bf")] := by
  rw [← register?_mergeSlots m.reserved m.registers, mapComponents, AddressMap.slots]
  generalize 0 = index
  induction mergeSlots m.reserved m.registers generalizing index with
  | nil => rfl
  | cons slot rest ih => cases slot with
    | register r => exact congrArg ([_, _] ++ ·) (ih index)
    | reserved s => exact ih (index + 1)

/-- Padding parts fields and has no name. -/
theorem names_bitComponents (word : Word) (r : Register) :
    (bitComponents word r).flatMap Component.names = r.fieldsByLsb.map Field.name := by
  have each : ∀ run ∈ r.bitRuns word,
      (BitMember.ofRun run).component.names = (run.field?.map Field.name).toList := by
    intro run _
    cases run <;> rfl
  rw [bitComponents, List.flatMap_map, List.flatMap_congr each, ← List.filterMap_eq_flatMap_toList,
    ← BitRun.filterMap_field?_cover word 0 r.fieldsByLsb, List.map_filterMap]
  rfl

/-- The accessors of a register keep its bit view free, as long as its name is no keyword there. -/
theorem view_ne_name {registers : List Register} (apart : SymbolsApart registers)
    {r s : Register} (left : r ∈ registers) (right : s ∈ registers)
    (plain : asciiLower r.name ∉ attributeKeywords) : s.name ≠ r.name ++ "_bf" := by
  intro same
  have lower : asciiLower s.name = asciiLower r.name ++ "_bf" := by
    rw [same, asciiLower_append, show asciiLower "_bf" = "_bf" by decide +kernel]
  have unmarked : ∀ k ∈ attributeKeywords, '_' ∉ k.toList := by decide
  have view : attributeName s.name = attributeName r.name ++ "_bf" := by
    have free : asciiLower s.name ∉ attributeKeywords := by
      intro keyword
      refine unmarked _ keyword ?_
      rw [lower, String.toList_append]
      exact List.mem_append_right _ (by decide)
    rw [attributeName, attributeName, avoiding, avoiding, if_neg plain, if_neg free, lower]
  have equal := apart (.register r) (mem_items_iff.mpr left) (.register s)
    (mem_items_iff.mpr right) (.attributes, attributeName s.name) (by simp [Item.symbols, view])
    (by simp [Item.symbols])
  injection equal with equal
  exact name_ne_view r.name (equal ▸ same)

/-- What names of registers and fields have to avoid for a header, beyond what the symbol check
asks for: numbers of reserved spans, the view of a register that is called like a keyword of the
accessors, and macros. -/
@[mk_iff]
structure Plain (m : AddressMap) : Prop where
  numbers : ∀ r ∈ m.registers, ∀ i < m.reserved.length, r.name ≠ "RESERVED" ++ decimal i
  views : ∀ r ∈ m.registers, asciiLower r.name ∈ attributeKeywords →
    ∀ s ∈ m.registers, s.name ≠ r.name ++ "_bf"
  registers : ∀ r ∈ m.registers, r.name ∉ mapMacros m
  fields : ∀ r ∈ m.registers, ∀ f ∈ r.fields, f.name ∉ mapMacros m

instance {m : AddressMap} : Decidable (Plain m) := decidable_of_iff _ (plain_iff m).symm

/-- A number has no underscore, so that no view is called like a reserved span. -/
theorem view_ne_reserved (name : String) (index : Nat) :
    name ++ "_bf" ≠ "RESERVED" ++ decimal index := by
  intro same
  have inside : '_' ∈ ("RESERVED" ++ decimal index).toList := by
    rw [← same, String.toList_append]
    exact List.mem_append_right _ (by decide)
  rw [String.toList_append, List.mem_append] at inside
  rcases inside with word | number
  · exact absurd word (by decide)
  · rw [decimal, Nat.repr, String.toList_ofList] at number
    exact Nat.underscore_not_in_toDigits number

theorem memberNames_nodup_iff {registers : List Register}
    (distinct : (registers.map Register.name).Nodup) :
    (registers.flatMap fun r => [r.name, r.name ++ "_bf"]).Nodup ↔
      ∀ r ∈ registers, ∀ s ∈ registers, s.name ≠ r.name ++ "_bf" := by
  rw [Apart.nodup_iff (List.Nodup.of_map _ distinct) fun r _ => by simp [name_ne_view]]
  constructor
  · intro apart r left s right same
    have equal := apart r left s right s.name (by simp [same]) (by simp)
    exact name_ne_view r.name (equal ▸ same)
  · intro views r left s right n ofR ofS
    simp only [List.mem_cons, List.not_mem_nil, or_false] at ofR ofS
    rcases ofR with rfl | rfl <;> rcases ofS with same | same
    · exact List.inj_on_of_nodup_map distinct left right same
    · exact absurd same (views s right r left)
    · exact absurd same.symm (views r left s right)
    · exact List.inj_on_of_nodup_map distinct left right ((String.append_left_inj _).mp same)

theorem members_nodup_iff {lead : Lead} {m : AddressMap}
    (distinct : (m.registers.map Register.name).Nodup) :
    ((mapComponents lead m).flatMap Component.names).Nodup ↔
      (∀ r ∈ m.registers, ∀ s ∈ m.registers, s.name ≠ r.name ++ "_bf") ∧
        ∀ r ∈ m.registers, ∀ i < m.reserved.length, r.name ≠ "RESERVED" ++ decimal i := by
  have injective : Function.Injective ("RESERVED" ++ decimal ·) := fun _ _ same =>
    decimal_injective ((String.append_right_inj _).mp same)
  rw [names_mapComponents, slotNames_nodup_iff _ _ injective, memberNames_nodup_iff distinct]
  refine and_congr_right fun _ => ⟨fun apart r inside => ?_, fun apart r inside n named i below => ?_⟩
  · exact apart r inside r.name (List.mem_cons_self ..)
  · rcases List.mem_cons.mp named with rfl | view
    · exact apart r inside i below
    · rw [List.mem_singleton.mp view]
      exact view_ne_reserved r.name i

/-- What the text of a header shows comes to the names that its map was given. -/
theorem wellNamed_artifact_iff {m : AddressMap} (whole : m.Unbroken) (path : Path) :
    WellNamed (artifact path none m).content ↔
      ((mapComponents (.of m.name) m).flatMap Component.names).Nodup ∧
        (∀ r ∈ m.registers, r.name ∉ macros path m ∧ r.name ++ "_bf" ∉ macros path m) ∧
        ∀ r ∈ m.registers, ∀ f ∈ r.fields, f.name ∉ macros path m := by
  have given : ∀ name ∈ (none : Option String), IsWord name := nofun
  have found := structuresIn_artifact whole path given
  rw [Option.getD_none] at found
  have last : (structuresIn (artifact path none m).content).getLast? =
      some ((Lead.of m.name).typeName [], mapComponents (.of m.name) m) := by
    rw [found, List.getLast?_concat]
  have others : (structuresIn (artifact path none m).content).dropLast =
      m.registers.map fun r =>
        ((Lead.of m.name).typeName [asciiLower r.name], bitComponents m.word r) := by
    rw [found, List.dropLast_concat]
  constructor
  · rintro ⟨members, registers, fields⟩
    rw [macrosIn_artifact whole] at registers fields
    refine ⟨members _ last, fun r inside => ?_, fun r inside f within => ?_⟩
    · have offered := registers _ last
      rw [alternatives_mapComponents] at offered
      have own := fun a part => offered a (List.mem_flatMap.mpr ⟨r, inside, part⟩)
      exact ⟨own (_, r.name) (.head _), own (_, r.name ++ "_bf") (.tail _ (.head _))⟩
    · have named := fields _ (others ▸ List.mem_map_of_mem inside)
      rw [names_bitComponents] at named
      exact named f.name (List.mem_map_of_mem (r.fieldsByLsb_perm.mem_iff.mpr within))
  · rintro ⟨members, registers, fields⟩
    refine ⟨fun s final => ?_, fun s final a offered => ?_, fun s among n named => ?_⟩
    · rw [last, Option.mem_some_iff] at final
      subst final
      exact members
    · rw [last, Option.mem_some_iff] at final
      subst final
      rw [alternatives_mapComponents] at offered
      obtain ⟨r, inside, part⟩ := List.mem_flatMap.mp offered
      rw [macrosIn_artifact whole]
      rcases List.mem_cons.mp part with rfl | view
      · exact (registers r inside).1
      · rw [List.mem_singleton.mp view]
        exact (registers r inside).2
    · rw [others] at among
      obtain ⟨r, inside, rfl⟩ := List.mem_map.mp among
      rw [names_bitComponents] at named
      obtain ⟨f, sorted, rfl⟩ := List.mem_map.mp named
      rw [macrosIn_artifact whole]
      exact fields r inside f (r.fieldsByLsb_perm.mem_iff.mp sorted)

/-- Where the symbol check passes, members are well named exactly when the names are plain. -/
theorem wellNamed_iff_plain {path : Path} {m : AddressMap} (whole : m.Unbroken)
    (distinct : (m.registers.map Register.name).Nodup) (apart : SymbolsApart m.registers) :
    WellNamed (artifact path none m).content ↔ Plain m := by
  have outside {n : String} (identifier : isIdentifier n = true) :
      n ∉ macros path m ↔ n ∉ mapMacros m := (mem_macros_iff (isAlpha_opens identifier)).not
  have identifiers := whole.identifiers
  rw [wellNamed_artifact_iff whole path, members_nodup_iff distinct]
  constructor
  · rintro ⟨⟨views, numbers⟩, registers, fields⟩
    refine ⟨numbers, fun r inside _ => views r inside, fun r inside => ?_, fun r inside f within => ?_⟩
    · exact (outside (identifiers.register r inside)).mp (registers r inside).1
    · exact (outside (identifiers.field r inside f within)).mp (fields r inside f within)
  · rintro ⟨numbers, views, registers, fields⟩
    refine ⟨⟨fun r left s right => ?_, numbers⟩, fun r inside => ?_, fun r inside f within => ?_⟩
    · by_cases keyword : asciiLower r.name ∈ attributeKeywords
      · exact views r left keyword s right
      · exact view_ne_name apart left right keyword
    · have opens := isAlpha_opens (identifiers.register r inside)
      refine ⟨(outside (identifiers.register r inside)).mpr (registers r inside), ?_⟩
      rw [mem_macros_iff (opens.append "_bf")]
      exact view_not_mem_mapMacros whole.name r.name
    · exact (outside (identifiers.field r inside f within)).mpr (fields r inside f within)

/-- The members of the structure of a compiled map are well named exactly when the names of the
map are plain. -/
theorem compile_wellNamed_iff {config : Config} {d : Description} {m : AddressMap}
    (compiled : compile config d = .ok m) (path : Path) :
    WellNamed (artifact path none m).content ↔ Plain m := by
  obtain ⟨word, sound, rfl⟩ := compile_eq_ok_iff.mp compiled
  exact wellNamed_iff_plain sound.unbroken sound.namesDiffer.register sound.symbolsApart

theorem compile_wellNamed_pwm :
    compile {} pwm = .ok (pwm.mapOf {} .w32) ∧
      WellNamed (artifact ⟨"pwm.h"⟩ none (pwm.mapOf {} .w32)).content := by
  have plain : Plain (pwm.mapOf {} .w32) := of_decide_eq_true (by cbv)
  exact ⟨compile_pwm, (compile_wellNamed_iff compile_pwm _).mpr plain⟩

/-- A register that is called like the reserved span in front of it. -/
def numbered : Description where
  name := "uart"
  registers := [{ name := "RESERVED0", address := 4, fields := [{ name := "F" }] }]

/-- The symbol check knows nothing of reserved spans, so that this map compiles, and two members of
its structure have one name. -/
theorem numbered_not_wellNamed :
    compile {} numbered = .ok (numbered.mapOf {} .w32) ∧
      ¬ WellNamed (artifact ⟨"uart.h"⟩ none (numbered.mapOf {} .w32)).content := by
  have sound : numbered.Sound {} .w32 := by decide +kernel
  refine ⟨compile_eq_ok_iff.mpr ⟨.w32, sound, rfl⟩, fun wellNamed => ?_⟩
  have members : (mapComponents (.of "uart") (numbered.mapOf {} .w32)).flatMap Component.names =
      ["RESERVED0", "RESERVED0", "RESERVED0_bf"] := by cbv
  have differ := ((wellNamed_artifact_iff sound.unbroken _).mp wellNamed).1
  rw [show (numbered.mapOf {} .w32).name = "uart" from rfl, members] at differ
  exact absurd differ (by decide)

end Header

end RegisterMap
