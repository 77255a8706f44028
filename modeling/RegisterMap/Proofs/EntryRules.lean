import RegisterMap.Proofs.Entries
import RegisterMap.Proofs.Rules

namespace RegisterMap

theorem singleLine_of_not {kind : Named} {name text : String} (broken : ¬ SingleLine text) :
    singleLine kind name text = .error (.multiLineDescription kind name) := by
  have failed : ∀ line, singleLine kind name text ≠ .ok line := fun line made =>
    broken (singleLine_eq_ok_iff.mp made).1
  simp only [singleLine] at failed ⊢
  split
  · rfl
  · rename_i whole
    exact absurd (if_neg whole) (failed _)

namespace Obeys

variable {β : Type} {rules : List Rule} {b : β}

theorem line {kind : Named} {name text : String} {next : String → Except Violation β}
    (after : SingleLine text → Obeys (next (trimmed text)) rules b) :
    Obeys (singleLine kind name text >>= next)
      (⟨SingleLine text, .multiLineDescription kind name⟩ :: rules) b := by
  by_cases single : SingleLine text
  · rw [show singleLine kind name text = .ok (trimmed text) from
      singleLine_eq_ok_iff.mpr ⟨single, rfl⟩]
    exact (after single).keeps (kept_singleton.mpr single)
  · have broken : ¬ (Rule.mk (SingleLine text) (.multiLineDescription kind name)).holds := single
    rw [singleLine_of_not single]
    exact .fails broken

theorem unrepeated {α : Type} [DecidableEq α] (told : α → Violation) (before l : List α)
    {check next : Except Violation β}
    (found : ∀ a, firstRepeated? before l = some a → check = .error (told a))
    (none : firstRepeated? before l = none → check = next) (after : Obeys next rules b) :
    Obeys check (inTurn (fun before a => [⟨a ∉ before, told a⟩]) before l ++ rules) b := by
  induction l generalizing before with
  | nil => exact none rfl ▸ after
  | cons a rest ih =>
    rw [inTurn, List.append_assoc]
    rw [firstRepeated?] at found none
    by_cases repeated : a ∈ before
    · have broken : ¬ (Rule.mk (a ∉ before) (told a)).holds := not_not.mpr repeated
      rw [found a (if_pos repeated)]
      exact .fails broken
    · rw [if_neg repeated] at found none
      exact (ih (a :: before) found none).keeps (kept_singleton.mpr repeated)

end Obeys

namespace ValueEntry

variable (case : NameCase) (register field : String) (width : Nat)

/-- What a value of a field has to keep by itself. -/
def ownRules (v : ValueEntry) : List Rule :=
  let name := case.apply v.name
  let value := v.value.toNat
  [⟨isIdentifier name = true, .invalidName .value name⟩,
    ⟨SingleLine v.description,
      .multiLineDescription .value (register ++ "." ++ field ++ "." ++ name)⟩,
    ⟨value < 2 ^ width, .valueOutOfRange register field name value width⟩]

/-- What a value has to keep by itself, and then towards the values before it. -/
def rules (before : List ValueEntry) (v : ValueEntry) : List Rule :=
  v.ownRules case register field width ++
  [⟨∀ w ∈ before, case.apply w.name ≠ case.apply v.name,
      .duplicateValueName register field (case.apply v.name)⟩,
    ⟨∀ w ∈ before, w.value.toNat ≠ v.value.toNat,
      .duplicateValue register field v.value.toNat⟩]

end ValueEntry

section

variable {register field : String} {width : Nat} {case : NameCase}

theorem NamedValue.ofEntry_obeys (entry : ValueEntry) :
    Obeys (ofEntry register field width case entry) (entry.ownRules case register field width)
      (entry.built case) :=
  .guard Iff.rfl fun _ => .line fun _ =>
    .guard (by rw [Nat.one_shiftLeft]) fun _ => .pure _

theorem NamedValue.collect_obeys {before entries : List ValueEntry} :
    Obeys (collect register field width case (before.map (·.built case)) entries)
      (inTurn (ValueEntry.rules case register field width) before entries)
      (entries.map (·.built case)) := by
  induction entries generalizing before with
  | nil => exact .pure []
  | cons entry entries ih =>
    rw [inTurn, ValueEntry.rules, List.append_assoc]
    refine (ofEntry_obeys entry).bind fun _ => ?_
    refine .guard List.forall_mem_map fun _ => .guard List.forall_mem_map fun _ => ?_
    exact (@ih (entry :: before)).last fun _ => rfl

end

/-- What a field has to keep whatever the other fields of its register are: first by itself, then
its values one by one. -/
def FieldEntry.rules (case : NameCase) (bits : Nat) (register : String) (f : FieldEntry) :
    List Rule :=
  let name := case.apply f.name
  let width := f.width.toNat
  let lsb := f.lsb.toNat
  let reset := f.reset.toNat
  [⟨isIdentifier name = true, .invalidName .field name⟩,
    ⟨SingleLine f.description, .multiLineDescription .field (register ++ "." ++ name)⟩,
    ⟨0 < width, .zeroWidth register name⟩,
    ⟨width ≤ bits, .widthTooLarge register name width bits⟩,
    ⟨lsb + width ≤ bits, .fieldOutOfRange register name lsb width bits⟩,
    ⟨reset < 2 ^ width, .resetOutOfRange register name reset width⟩,
    ⟨(f.modifiers : Multiset Modifier) ∈ Modifier.documented f.access,
      .unsupportedModifiers register name f.access f.modifiers⟩] ++
  inTurn (ValueEntry.rules case register name width) [] f.values

theorem Field.ofEntry_obeys {register : String} {word : Word} {case : NameCase}
    (entry : FieldEntry) :
    Obeys (ofEntry register word case entry) (entry.rules case word.bits register)
      (entry.built case) := by
  have fits : entry.reset.toNat < 1 <<< entry.width.toNat ↔
      entry.reset.toNat < 2 ^ entry.width.toNat := by rw [Nat.one_shiftLeft]
  refine .guard Iff.rfl fun _ => .line fun _ => .guard Iff.rfl fun _ => .guard Iff.rfl fun _ => ?_
  refine .guard Iff.rfl fun _ => .guard fits fun _ => .guard Modifier.supported_iff fun _ => ?_
  exact (@NamedValue.collect_obeys _ _ _ _ [] entry.values).last fun _ => rfl

/-- Two fields share no bit. -/
def Field.apart (register : String) (f g : Field) : Rule :=
  ⟨Disjoint f.bits g.bits, .overlap register f.name f.lsb f.width g.name g.lsb g.width⟩

theorem Field.disjoint_bits_of_le {f g : Field} (follows : f.stop ≤ g.lsb) :
    Disjoint f.bits g.bits := by
  refine Finset.disjoint_left.mpr fun bit left right => ?_
  have below := (Finset.mem_Ico.mp left).2
  have above := (Finset.mem_Ico.mp right).1
  omega

/-- The look at neighbours finds the first field, from the lowest bit upwards, that shares a bit
with one before it, and of those before it there is only the nearest that it can share a bit with. -/
theorem firstOverlap?_obeys {register : String} {before rest : List Field} {a : Field}
    (positive : ∀ f ∈ a :: rest, 0 < f.width)
    (sorted : (a :: rest).Pairwise fun f g => f.lsb ≤ g.lsb)
    (apart : ∀ f ∈ before, f.stop ≤ a.lsb) :
    Obeys (match firstOverlap? (a :: rest) with
        | some (a, b) => .error (.overlap register a.name a.lsb a.width b.name b.lsb b.width)
        | none => .ok ())
      (inTurn (fun before g => before.map fun f => f.apart register g) (a :: before) rest) () := by
  induction rest generalizing a before with
  | nil => exact .pure ()
  | cons b rest ih =>
    obtain ⟨first, others⟩ := List.forall_mem_cons.mp positive
    obtain ⟨least, ordered⟩ := List.pairwise_cons.mp sorted
    have low := least b (List.mem_cons_self ..)
    rw [firstOverlap?, inTurn]
    by_cases overlaps : b.lsb < a.stop
    · have broken : ¬ (a.apart register b).holds := fun disjoint => by
        have wide := others b (List.mem_cons_self ..)
        rcases (Field.disjoint_bits_iff first wide).mp disjoint with follows | precedes
        · omega
        · simp only [Field.stop] at precedes
          omega
      rw [if_pos overlaps]
      exact .fails broken
    · have behind : ∀ f ∈ a :: before, f.stop ≤ b.lsb := by
        refine List.forall_mem_cons.mpr ⟨not_lt.mp overlaps, fun f inside => ?_⟩
        exact (apart f inside).trans low
      rw [if_neg overlaps]
      refine (ih others ordered behind).keeps fun rule inside => ?_
      obtain ⟨f, member, rfl⟩ := List.mem_map.mp inside
      exact Field.disjoint_bits_of_le (behind f member)

/-- What the fields of a register have to keep towards each other: their names as they are declared,
then their bits from the lowest field upwards. -/
def Register.fieldRules (r : Register) : List Rule :=
  inTurn (fun before name => [⟨name ∉ before, .duplicateFieldName r.name name⟩]) []
    (r.fields.map Field.name) ++
  inTurn (fun before g => before.map fun f => f.apart r.name g) [] (inOrderOf Field.lsb r.fields)

theorem checkFields_obeys {r : Register} (positive : ∀ f ∈ r.fields, 0 < f.width) :
    Obeys (checkFields r) r.fieldRules () := by
  refine .unrepeated (.duplicateFieldName r.name) [] (r.fields.map Field.name)
    (fun name found => by rw [checkFields, found]) (fun none => by rw [checkFields, none]) ?_
  have ordered : r.fieldsByLsb = inOrderOf Field.lsb r.fields :=
    mergeSort_key_eq_inOrderOf Field.lsb r.fields
  rw [← ordered]
  have wide : ∀ f ∈ r.fieldsByLsb, 0 < f.width := fun f inside =>
    positive f (r.fieldsByLsb_perm.mem_iff.mp inside)
  have sorted := r.fieldsByLsb_sorted
  cases fields : r.fieldsByLsb with
  | nil => exact .pure ()
  | cons a rest =>
    rw [fields] at wide sorted
    exact firstOverlap?_obeys wide sorted fun f none => absurd none List.not_mem_nil

/-- What a register has to keep whatever the other registers are: first by itself, then its fields
one by one, then its fields towards each other. -/
def RegisterEntry.rules (case : NameCase) (bits : Nat) (r : RegisterEntry) : List Rule :=
  let name := case.apply r.name
  [⟨isIdentifier name = true, .invalidName .register name⟩,
    ⟨SingleLine r.description, .multiLineDescription .register name⟩,
    ⟨r.fields ≠ [], .noFields name⟩] ++
  r.fields.flatMap (FieldEntry.rules case bits name) ++
  (r.built case).fieldRules

theorem Register.ofEntry_obeys {word : Word} {case : NameCase} (entry : RegisterEntry) :
    Obeys (ofEntry word case entry)
      ([⟨isIdentifier (case.apply entry.name) = true,
            .invalidName .register (case.apply entry.name)⟩,
          ⟨SingleLine entry.description, .multiLineDescription .register (case.apply entry.name)⟩,
          ⟨entry.fields ≠ [], .noFields (case.apply entry.name)⟩] ++
        entry.fields.flatMap (FieldEntry.rules case word.bits (case.apply entry.name)))
      (entry.built case) := by
  refine .guard Iff.rfl fun _ => .line fun _ => .guard Iff.rfl fun _ => ?_
  exact (Obeys.mapM fun f _ => Field.ofEntry_obeys f).last fun _ => rfl

theorem checkedRegister_obeys {word : Word} {case : NameCase} (entry : RegisterEntry) :
    Obeys (checkedRegister word case entry) (entry.rules case word.bits) (entry.built case) := by
  refine (Register.ofEntry_obeys entry).bind fun kept => ?_
  have positive : ∀ f ∈ (entry.built case).fields, 0 < f.width := by
    intro f inside
    obtain ⟨e, member, rfl⟩ := List.mem_map.mp inside
    have own := kept_flatMap.mp (kept_append.mp kept).2 e member
    exact own _ (List.mem_append_left _ (.tail _ (.tail _ (.head _))))
  exact (checkFields_obeys positive).last fun _ => rfl

end RegisterMap
