import RegisterMap.Proofs.AccessorScope
import RegisterMap.Proofs.BindingScope
import RegisterMap.Proofs.Compiled

namespace RegisterMap

/-- A constant of an item in all artifacts together is one of the header and one of the accessors,
unless it is one of a field: then the ending tells where it belongs. -/
theorem Item.mem_constants_cases {i : Item} {n : String} (named : n ∈ i.constants fieldSuffixes) :
    (n ∈ i.constants Header.suffixes ∧ n ∈ i.constants Accessors.suffixes) ∨
      (n ∈ i.constants Header.suffixes ∧ ∃ stem, ∃ s ∈ Header.suffixes, n = stem ++ s) ∨
      (n ∈ i.constants Accessors.suffixes ∧ ∃ stem, ∃ s ∈ Accessors.suffixes, n = stem ++ s) := by
  cases i with
  | base | register | value => exact .inl ⟨named, named⟩
  | field r f =>
    obtain ⟨suffix, ending, rfl⟩ := List.mem_map.mp named
    have parts : suffix ∈ Header.suffixes ++ Accessors.suffixes := ending
    rcases List.mem_append.mp parts with ofHeader | ofAccessors
    · exact .inr (.inl ⟨List.mem_map_of_mem ofHeader, _, suffix, ofHeader, rfl⟩)
    · exact .inr (.inr ⟨List.mem_map_of_mem ofAccessors, _, suffix, ofAccessors, rfl⟩)

theorem suffixes_apart : ∀ s ∈ Header.suffixes, ∀ t ∈ Accessors.suffixes,
    ¬ s.toList <:+ t.toList ∧ ¬ t.toList <:+ s.toList := by
  decide

/-- Constants that no two items share in the header or in the accessors are shared nowhere. -/
theorem constants_apart_iff {l : List Item} :
    Apart (Item.constants fieldSuffixes) l ↔
      Apart (Item.constants Header.suffixes) l ∧ Apart (Item.constants Accessors.suffixes) l := by
  have fewer {chosen : List String} (among : chosen ⊆ fieldSuffixes) (i : Item) :
      i.constants chosen ⊆ i.constants fieldSuffixes := by
    cases i with
    | base | register | value => exact List.Subset.refl _
    | field r f => exact List.map_subset _ among
  constructor
  · intro apart
    exact ⟨apart.mono fun i _ => fewer (by decide) i, apart.mono fun i _ => fewer (by decide) i⟩
  · rintro ⟨header, accessors⟩ i left j right n ofI ofJ
    rcases Item.mem_constants_cases ofI with
      ⟨i₁, i₂⟩ | ⟨i₁, a, s, ending, rfl⟩ | ⟨i₂, a, s, ending, rfl⟩ <;>
    rcases Item.mem_constants_cases ofJ with
      ⟨j₁, j₂⟩ | ⟨j₁, b, t, other, same⟩ | ⟨j₂, b, t, other, same⟩
    · exact header i left j right n i₁ j₁
    · exact header i left j right n i₁ j₁
    · exact accessors i left j right n i₂ j₂
    · exact header i left j right _ i₁ j₁
    · exact header i left j right _ i₁ j₁
    · have unlike := suffixes_apart s ending t other
      exact absurd same (append_ne_of_endings unlike.1 unlike.2 a b)
    · exact accessors i left j right _ i₂ j₂
    · have unlike := suffixes_apart t other s ending
      exact absurd same (append_ne_of_endings unlike.2 unlike.1 a b)
    · exact accessors i left j right _ i₂ j₂

/-- Items share no name of any artifact exactly when no scope of any artifact has a name twice. -/
theorem symbolsApart_iff_scopesDiffer {m : AddressMap} {lead : Header.Lead}
    (identifiers : Identifiers m.registers) (differ : NamesDiffer m.registers)
    (capital : Opens Char.isUpper lead.capital) (small : Opens Char.isLower lead.small) :
    SymbolsApart m.registers ↔
      (Header.fileScope lead m).Nodup ∧ (Bindings.ofMap m).ScopesDiffer ∧
        (Accessors.ofMap m).ScopesDiffer := by
  rw [symbolsApart_iff, Header.fileScope_nodup_iff capital small differ.items_nodup,
    Accessors.scopesDiffer_iff identifiers differ]
  constructor
  · intro apart
    obtain ⟨ofHeader, ofAccessors⟩ := constants_apart_iff.mp (apart .constants)
    have attributes := AttributesDiffer.of_apart differ (apart .attributes)
    have bindings := (Bindings.scopesDiffer_iff identifiers differ.items_nodup ofHeader
      attributes.classes).mpr (.of_apart differ (apart .bindings))
    exact ⟨⟨ofHeader, apart .types⟩, bindings, ofAccessors, attributes⟩
  · rintro ⟨⟨ofHeader, types⟩, bindings, ofAccessors, attributes⟩ scope
    cases scope with
    | constants => exact constants_apart_iff.mpr ⟨ofHeader, ofAccessors⟩
    | types => exact types
    | bindings =>
      exact ((Bindings.scopesDiffer_iff identifiers differ.items_nodup ofHeader
        attributes.classes).mp bindings).apart identifiers
    | attributes => exact attributes.apart identifiers

/-- The symbol check accepts checked registers exactly when no name stands twice in a scope of the
generated files: the file scope of the header under any lead, the modules, types and structure of
the bindings, the classes of the accessors. -/
theorem checkSymbols_eq_ok_iff_scopesDiffer {case : NameCase} {entries : List RegisterEntry}
    {registers : List Register} {lead : String} {m : AddressMap}
    (made : entries.mapM (checkedRegister m.word case) = .ok registers)
    (placed : checkRegisters m.base m.word registers = .ok ())
    (identifier : isIdentifier lead = true) (ordered : m.registers = byAddress registers) :
    checkSymbols registers = .ok () ↔
      (Header.fileScope (.of lead) m).Nodup ∧ (Bindings.ofMap m).ScopesDiffer ∧
        (Accessors.ofMap m).ScopesDiffer := by
  obtain ⟨sound, rfl⟩ := (mapM_eq_ok_iff fun _ _ => checkedRegister_eq_ok_iff).mp made
  have differ := namesDiffer_built sound (checkRegisters_eq_ok_iff.mp placed).names
  have same := (byAddress_perm (entries.map (·.built case))).symm
  have capital : Opens Char.isUpper (Header.Lead.of lead).capital :=
    Header.toCapitals_opens identifier
  rw [checkSymbols_eq_ok_iff differ, SymbolsApart.congr same, ← ordered]
  exact symbolsApart_iff_scopesDiffer (ordered ▸ (identifiers_built sound).congr same)
    (ordered ▸ differ.congr same) capital (Header.toSmallLetters_opens capital)

theorem scopesDiffer_pwm :
    pwm.registers.mapM (checkedRegister .w32 .asWritten) = .ok (pwm.built .asWritten) ∧
    checkRegisters 0x100 .w32 (pwm.built .asWritten) = .ok () ∧
    isIdentifier "pwm" = true ∧
    (pwm.mapOf {} .w32).registers = byAddress (pwm.built .asWritten) ∧
    checkSymbols (pwm.built .asWritten) = .ok () ∧
    (Header.fileScope (.of "pwm") (pwm.mapOf {} .w32)).Nodup ∧
    (Bindings.ofMap (pwm.mapOf {} .w32)).ScopesDiffer ∧
    (Accessors.ofMap (pwm.mapOf {} .w32)).ScopesDiffer := by
  have made : pwm.registers.mapM (checkedRegister .w32 .asWritten) = .ok (pwm.built .asWritten) :=
    (mapM_eq_ok_iff fun _ _ => checkedRegister_eq_ok_iff).mpr ⟨sound_pwm.registers, rfl⟩
  have placed : checkRegisters 0x100 .w32 (pwm.built .asWritten) = .ok () :=
    checkRegisters_eq_ok_iff.mpr sound_pwm.placed
  have granted : checkSymbols (pwm.built .asWritten) = .ok () :=
    (checkSymbols_eq_ok_iff (namesDiffer_built sound_pwm.registers sound_pwm.placed.names)).mpr
      sound_pwm.symbols
  exact ⟨made, placed, sound_pwm.name, rfl, granted, (checkSymbols_eq_ok_iff_scopesDiffer
    (m := pwm.mapOf {} .w32) made placed sound_pwm.name rfl).mp granted⟩

end RegisterMap
