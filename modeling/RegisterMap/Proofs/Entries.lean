import RegisterMap.Compile
import RegisterMap.Proofs.Checking
import RegisterMap.Proofs.FieldLayout
import RegisterMap.Proofs.Modifiers

namespace RegisterMap

/-- A description without the white space around it. -/
def trimmed (text : String) : String := String.ofList (trimBlank text.toList)

/-- Nothing that is left of a description after trimming ends a line. -/
def SingleLine (text : String) : Prop := ∀ c ∈ (trimmed text).toList, c ≠ '\n' ∧ c ≠ '\r'

-- Over the characters of the text: all characters there are would be far too many.
instance {text : String} : Decidable (SingleLine text) :=
  decidable_of_iff ((trimmed text).toList.all (fun c => c != '\n' && c != '\r') = true)
    (by simp [SingleLine])

theorem singleLine_eq_ok_iff {kind : Named} {name text line : String} :
    singleLine kind name text = .ok line ↔ SingleLine text ∧ trimmed text = line := by
  unfold singleLine SingleLine trimmed
  simp only [String.toList_ofList]
  split
  · rename_i broken
    obtain ⟨c, inside, ends⟩ := List.any_eq_true.mp broken
    simp only [reduceCtorEq, false_iff, not_and]
    intro single
    have apart := single c inside
    simp [apart] at ends
  · rename_i whole
    simp only [Except.ok.injEq, iff_and_self]
    intro _ c inside
    simp only [List.any_eq_true, not_exists, not_and] at whole
    simpa using whole c inside

/-- What a value of a field becomes, checked or not. -/
def ValueEntry.built (case : NameCase) (v : ValueEntry) : NamedValue where
  name := case.apply v.name
  value := v.value.toNat
  description := trimmed v.description

/-- What a value has to satisfy by itself in a field of `width` bits. -/
@[mk_iff]
structure ValueEntry.Sound (case : NameCase) (width : Nat) (v : ValueEntry) : Prop where
  name : isIdentifier (case.apply v.name) = true
  description : SingleLine v.description
  fits : v.value.toNat < 2 ^ width

instance {case : NameCase} {width : Nat} {v : ValueEntry} : Decidable (v.Sound case width) :=
  decidable_of_iff _ (ValueEntry.sound_iff case width v).symm

theorem NamedValue.ofEntry_eq_ok_iff {register field : String} {width : Nat} {case : NameCase}
    {entry : ValueEntry} {v : NamedValue} :
    ofEntry register field width case entry = .ok v ↔
      entry.Sound case width ∧ entry.built case = v := by
  unfold ofEntry
  simp only [bind_eq_ok_iff, require_eq_ok_iff, exists_const, singleLine_eq_ok_iff,
    Nat.one_shiftLeft, pure_eq_ok_iff]
  constructor
  · rintro ⟨name, _, ⟨single, rfl⟩, fits, made⟩
    exact ⟨⟨name, single, fits⟩, made⟩
  · rintro ⟨⟨name, single, fits⟩, rfl⟩
    exact ⟨name, _, ⟨single, rfl⟩, fits, rfl⟩

/-- Values are taken one by one, each against those before it. What results is a condition on
them all that knows no order. -/
theorem NamedValue.collect_eq_ok_iff {register field : String} {width : Nat} {case : NameCase}
    {earlier : List NamedValue} {entries : List ValueEntry} {values : List NamedValue} :
    collect register field width case earlier entries = .ok values ↔
      (∀ v ∈ entries, v.Sound case width) ∧
      ((entries.map (·.built case)).map NamedValue.name).Nodup ∧
      ((entries.map (·.built case)).map NamedValue.value).Nodup ∧
      (∀ w ∈ earlier, ∀ v ∈ entries.map (·.built case), w.name ≠ v.name ∧ w.value ≠ v.value) ∧
      entries.map (·.built case) = values := by
  induction entries generalizing earlier values with
  | nil => simp [collect]
  | cons entry entries ih =>
    simp only [collect, bind_eq_ok_iff, require_eq_ok_iff, exists_const, pure_eq_ok_iff,
      ofEntry_eq_ok_iff, ih, List.forall_mem_cons, List.map_cons, List.nodup_cons]
    constructor
    · rintro ⟨_, ⟨sound, rfl⟩, names, numbers, _,
        ⟨others, distinct, unequal, ⟨fresh, apart⟩, rfl⟩, made⟩
      refine ⟨⟨sound, others⟩, ⟨?_, distinct⟩, ⟨?_, unequal⟩, ?_, made⟩
      · intro repeated
        obtain ⟨v, inside, same⟩ := List.mem_map.mp repeated
        exact (fresh v inside).1 same.symm
      · intro repeated
        obtain ⟨v, inside, same⟩ := List.mem_map.mp repeated
        exact (fresh v inside).2 same.symm
      · exact fun w before => ⟨⟨names w before, numbers w before⟩, apart w before⟩
    · rintro ⟨⟨sound, others⟩, ⟨name, distinct⟩, ⟨number, unequal⟩, apart, rfl⟩
      refine ⟨_, ⟨sound, rfl⟩, fun w before => (apart w before).1.1,
        fun w before => (apart w before).1.2, _, ⟨others, distinct, unequal, ⟨?_, ?_⟩, rfl⟩, rfl⟩
      · intro v inside
        refine ⟨fun same => name ?_, fun same => number ?_⟩
        · exact List.mem_map.mpr ⟨v, inside, same.symm⟩
        · exact List.mem_map.mpr ⟨v, inside, same.symm⟩
      · exact fun w before => (apart w before).2

namespace FieldEntry

/-- What a field becomes, checked or not. -/
def built (case : NameCase) (f : FieldEntry) : Field where
  name := case.apply f.name
  description := trimmed f.description
  width := f.width.toNat
  lsb := f.lsb.toNat
  access := f.access
  modifiers := f.modifiers
  reset := f.reset.toNat
  values := f.values.map (·.built case)

/-- The bits that a field asks for. -/
def bits (f : FieldEntry) : Finset Nat := Finset.Ico f.lsb.toNat (f.lsb.toNat + f.width.toNat)

/-- What a field has to satisfy by itself in a word of `word` bits. -/
@[mk_iff]
structure Sound (case : NameCase) (word : Nat) (f : FieldEntry) : Prop where
  name : isIdentifier (case.apply f.name) = true
  description : SingleLine f.description
  width_pos : 1 ≤ f.width.toNat
  inside : f.lsb.toNat + f.width.toNat ≤ word
  reset : f.reset.toNat < 2 ^ f.width.toNat
  modifiers : (f.modifiers : Multiset Modifier) ∈ Modifier.documented f.access
  values : ∀ v ∈ f.values, v.Sound case f.width.toNat
  valueNames : (f.values.map fun v => case.apply v.name).Nodup
  valueNumbers : (f.values.map fun v => v.value.toNat).Nodup

instance {case : NameCase} {word : Nat} {f : FieldEntry} : Decidable (f.Sound case word) :=
  decidable_of_iff _ (sound_iff case word f).symm

end FieldEntry

theorem Field.ofEntry_eq_ok_iff {register : String} {word : Word} {case : NameCase}
    {entry : FieldEntry} {f : Field} :
    ofEntry register word case entry = .ok f ↔
      entry.Sound case word.bits ∧ entry.built case = f := by
  unfold ofEntry
  simp only [bind_eq_ok_iff, require_eq_ok_iff, exists_const, singleLine_eq_ok_iff,
    Nat.one_shiftLeft, pure_eq_ok_iff, Modifier.supported_iff, NamedValue.collect_eq_ok_iff,
    List.map_map, List.not_mem_nil, false_implies, implies_true, true_and]
  constructor
  · rintro ⟨name, _, ⟨single, rfl⟩, positive, _, inside, reset, modifiers, _,
      ⟨values, names, numbers, rfl⟩, made⟩
    exact ⟨⟨name, single, positive, inside, reset, modifiers, values, names, numbers⟩, made⟩
  · rintro ⟨sound, rfl⟩
    have narrow : entry.width.toNat ≤ word.bits := (Nat.le_add_left ..).trans sound.inside
    exact ⟨sound.name, _, ⟨sound.description, rfl⟩, sound.width_pos, narrow, sound.inside,
      sound.reset, sound.modifiers, _,
      ⟨sound.values, sound.valueNames, sound.valueNumbers, rfl⟩, rfl⟩

namespace RegisterEntry

/-- What a register becomes, checked or not. -/
def built (case : NameCase) (r : RegisterEntry) : Register where
  name := case.apply r.name
  description := trimmed r.description
  address := r.address.toNat
  fields := r.fields.map (·.built case)

/-- What a register has to satisfy whatever the other registers are. -/
@[mk_iff]
structure Sound (case : NameCase) (word : Nat) (r : RegisterEntry) : Prop where
  name : isIdentifier (case.apply r.name) = true
  description : SingleLine r.description
  fields_ne_nil : r.fields ≠ []
  fields : ∀ f ∈ r.fields, f.Sound case word
  fieldNames : (r.fields.map fun f => case.apply f.name).Nodup
  apart : r.fields.Pairwise fun f g => Disjoint f.bits g.bits

instance {case : NameCase} {word : Nat} {r : RegisterEntry} : Decidable (r.Sound case word) :=
  decidable_of_iff _ (sound_iff case word r).symm

end RegisterEntry

/-- The check of a register, that of its fields among themselves included. -/
theorem checkedRegister_eq_ok_iff {word : Word} {case : NameCase} {entry : RegisterEntry}
    {r : Register} :
    checkedRegister word case entry = .ok r ↔
      entry.Sound case word.bits ∧ entry.built case = r := by
  have builtFields : ∀ {fields : List Field}, entry.fields.mapM
      (Field.ofEntry (case.apply entry.name) word case) = .ok fields ↔
        (∀ f ∈ entry.fields, f.Sound case word.bits) ∧
          entry.fields.map (·.built case) = fields :=
    mapM_eq_ok_iff fun _ _ => Field.ofEntry_eq_ok_iff
  have among (sound : ∀ f ∈ entry.fields, f.Sound case word.bits) :
      checkFields (entry.built case) = .ok () ↔
        (entry.fields.map fun f => case.apply f.name).Nodup ∧
          entry.fields.Pairwise fun f g => Disjoint f.bits g.bits := by
    have positive : ∀ f ∈ (entry.built case).fields, 0 < f.width := by
      intro f inside
      obtain ⟨e, member, rfl⟩ := List.mem_map.mp inside
      exact (sound e member).width_pos
    rw [checkFields_eq_ok_iff positive, RegisterEntry.built, List.map_map, List.pairwise_map]
    rfl
  unfold checkedRegister Register.ofEntry
  simp only [bind_eq_ok_iff, require_eq_ok_iff, exists_const, singleLine_eq_ok_iff,
    pure_eq_ok_iff, builtFields]
  constructor
  · rintro ⟨_, ⟨name, _, ⟨single, rfl⟩, nonempty, _, ⟨sound, rfl⟩, rfl⟩, _, checked, rfl⟩
    obtain ⟨names, apart⟩ := (among sound).mp checked
    exact ⟨⟨name, single, nonempty, sound, names, apart⟩, rfl⟩
  · rintro ⟨sound, rfl⟩
    have checked := (among sound.fields).mpr ⟨sound.fieldNames, sound.apart⟩
    exact ⟨_, ⟨sound.name, _, ⟨sound.description, rfl⟩, sound.fields_ne_nil, _,
      ⟨sound.fields, rfl⟩, rfl⟩, (), checked, rfl⟩

end RegisterMap
