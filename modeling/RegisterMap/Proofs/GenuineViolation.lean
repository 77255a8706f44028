import RegisterMap.Proofs.FirstViolation
import Mathlib.Data.List.Duplicate

namespace RegisterMap

/-- Some register goes by the name, and of it something is so. -/
def OfRegister (registers : List Register) (name : String) (so : Register → Prop) : Prop :=
  ∃ r ∈ registers, r.name = name ∧ so r

/-- Some field goes by the name in a register that goes by the other name, and of it something is
so. -/
def OfField (registers : List Register) (register name : String) (so : Field → Prop) : Prop :=
  OfRegister registers register fun r => ∃ f ∈ r.fields, f.name = name ∧ so f

/-- Some item of a kind goes by the name. -/
def Named.Calls (d : Description) (registers : List Register) (name : String) : Named → Prop
  | map => d.name = name
  | register => ∃ r ∈ registers, r.name = name
  | field => ∃ r ∈ registers, ∃ f ∈ r.fields, f.name = name
  | value => ∃ r ∈ registers, ∃ f ∈ r.fields, ∃ v ∈ f.values, v.name = name

/-- The text has more than one line. -/
def Broken (text : String) : Prop := ∃ c ∈ text.toList, c = '\n' ∨ c = '\r'

/-- Some item of a kind that is found by the path is described in more than one line. -/
def Named.DescribesBroken (registers : List Register) (path : String) : Named → Prop
  | map => False
  | register => OfRegister registers path fun r => Broken r.description
  | field => ∃ r ∈ registers, ∃ f ∈ r.fields, r.name ++ "." ++ f.name = path ∧ Broken f.description
  | value => ∃ r ∈ registers, ∃ f ∈ r.fields, ∃ v ∈ f.values,
      r.name ++ "." ++ f.name ++ "." ++ v.name = path ∧ Broken v.description

/-- What a violation tells of a description is so: it names members that are there, each with its
own numbers, and they are at odds in the way it says. The layout has nothing to tell. -/
def Violation.Genuine (config : Config) (d : Description) : Violation → Prop :=
  let bits := config.dataWidth.toNat
  let registers := d.built config.nameCase
  fun
  | unsupportedWord told => told = bits ∧ bits ∉ [8, 16, 32, 64]
  | invalidName kind name => kind.Calls d registers name ∧ ¬ isIdentifier name
  | multiLineDescription kind path => kind.DescribesBroken registers path
  | symbolClash symbol first second => first ≠ second ∧
      ∃ i ∈ items registers, ∃ j ∈ items registers, i.owner = first ∧ j.owner = second ∧
        ∃ scope, (scope, symbol) ∈ i.symbols ∧ (scope, symbol) ∈ j.symbols
  | zeroWidth register field => OfField registers register field fun f => f.width = 0
  | widthTooLarge register field width wordBits => wordBits = bits ∧
      OfField registers register field fun f => f.width = width ∧ bits < width
  | fieldOutOfRange register field lsb width wordBits => wordBits = bits ∧
      OfField registers register field fun f => f.lsb = lsb ∧ f.width = width ∧ bits < lsb + width
  | resetOutOfRange register field reset width =>
      OfField registers register field fun f =>
        f.reset = reset ∧ f.width = width ∧ 2 ^ width ≤ reset
  | valueOutOfRange register field name value width =>
      OfField registers register field fun f => f.width = width ∧ 2 ^ width ≤ value ∧
        ∃ v ∈ f.values, v.name = name ∧ v.value = value
  | duplicateValueName register field name =>
      OfField registers register field fun f => List.Duplicate name (f.values.map NamedValue.name)
  | duplicateValue register field value =>
      OfField registers register field fun f => List.Duplicate value (f.values.map NamedValue.value)
  | unsupportedModifiers register field access modifiers =>
      OfField registers register field fun f => f.access = access ∧ f.modifiers = modifiers ∧
        (modifiers : Multiset Modifier) ∉ Modifier.documented access
  | duplicateFieldName register name =>
      OfRegister registers register fun r => List.Duplicate name (r.fields.map Field.name)
  | noFields register => OfRegister registers register fun r => r.fields = []
  | duplicateRegisterName name => List.Duplicate name (registers.map Register.name)
  | misalignedBase base wordBytes => base = config.baseOf d ∧ wordBytes = bits / 8 ∧
      ¬ wordBytes ∣ base
  | addressBelowBase register address base => base = config.baseOf d ∧
      OfRegister registers register fun r => r.address = address ∧ address < base
  | addressOutOfRange register address =>
      OfRegister registers register fun r => r.address = address ∧ 2 ^ 64 ≤ address + bits / 8
  | overlap register first firstLsb firstWidth second secondLsb secondWidth =>
      OfRegister registers register fun r => ∃ f g, [f, g].Subperm r.fields ∧
        (f.name = first ∧ f.lsb = firstLsb ∧ f.width = firstWidth) ∧
        (g.name = second ∧ g.lsb = secondLsb ∧ g.width = secondWidth) ∧
        firstLsb ≤ secondLsb ∧ ¬ Disjoint f.bits g.bits
  | duplicateAddress address first second =>
      ∃ r s, [r, s].Subperm registers ∧ (r.name = first ∧ r.address = address) ∧
        s.name = second ∧ s.address = address
  | misalignedAddress register address wordBytes => wordBytes = bits / 8 ∧
      OfRegister registers register fun r => r.address = address ∧ ¬ wordBytes ∣ address
  | negativeGap .. => False

theorem broken_of_not {text : String} (broken : ¬ SingleLine text) : Broken (trimmed text) := by
  simp only [SingleLine, not_forall] at broken
  obtain ⟨c, inside, ends⟩ := broken
  exact ⟨c, inside, or_iff_not_and_not.mpr ends⟩

theorem duplicate_of_pair {α β : Type} (f : α → β) {a b : α} {l : List α}
    (pair : [a, b].Sublist l) (same : f a = f b) : List.Duplicate (f b) (l.map f) := by
  have both := pair.map f
  rw [List.map_cons, List.map_singleton, same] at both
  exact List.duplicate_iff_sublist.mpr both

theorem honest_unrepeated {α : Type} {so : Violation → Prop} {told : α → Violation} {l : List α}
    (repeated : ∀ a, List.Duplicate a l → so (told a)) :
    Honest so (inTurn (fun before a => [⟨a ∉ before, told a⟩]) [] l) := by
  refine honest_inTurn fun a _ earlier known => List.forall_mem_singleton.mpr fun twice => ?_
  have pair := known a (not_not.mp twice)
  exact repeated a (List.duplicate_iff_sublist.mpr pair)

section

variable {config : Config} {d : Description} {r : RegisterEntry} (member : r ∈ d.registers)
include member

theorem OfRegister.built {so : Register → Prop} (holds : so (r.built config.nameCase)) :
    OfRegister (d.built config.nameCase) (config.nameCase.apply r.name) so :=
  ⟨_, List.mem_map_of_mem member, rfl, holds⟩

section

variable {f : FieldEntry} (part : f ∈ r.fields)
include part

theorem OfField.built {so : Field → Prop} (holds : so (f.built config.nameCase)) :
    OfField (d.built config.nameCase) (config.nameCase.apply r.name) (config.nameCase.apply f.name)
      so :=
  OfRegister.built member ⟨_, List.mem_map_of_mem part, rfl, holds⟩

theorem ValueEntry.rules_honest {v : ValueEntry} (piece : v ∈ f.values) {before : List ValueEntry}
    (known : ∀ w ∈ before, [w, v].Sublist f.values) :
    Honest (Violation.Genuine config d) (v.rules config.nameCase (config.nameCase.apply r.name)
      (config.nameCase.apply f.name) f.width.toNat before) := by
  have inside : r.built config.nameCase ∈ d.built config.nameCase := List.mem_map_of_mem member
  have within : f.built config.nameCase ∈ (r.built config.nameCase).fields :=
    List.mem_map_of_mem part
  have among : v.built config.nameCase ∈ (f.built config.nameCase).values :=
    List.mem_map_of_mem piece
  simp only [rules, ownRules, honest_append, honest_cons]
  refine ⟨⟨?name, ?description, ?fits, honest_nil⟩, ?names, ?numbers, honest_nil⟩
  case name => exact fun fails => ⟨⟨_, inside, _, within, _, among, rfl⟩, fails⟩
  case description => exact fun fails => ⟨_, inside, _, within, _, among, rfl, broken_of_not fails⟩
  case fits => exact fun fails => .built member part ⟨rfl, not_lt.mp fails, _, among, rfl, rfl⟩
  case names =>
    intro fails
    simp only [not_forall, not_not] at fails
    obtain ⟨w, first, same⟩ := fails
    have pair := (known w first).map (ValueEntry.built config.nameCase)
    exact .built member part (duplicate_of_pair NamedValue.name pair same)
  case numbers =>
    intro fails
    simp only [not_forall, not_not] at fails
    obtain ⟨w, first, same⟩ := fails
    have pair := (known w first).map (ValueEntry.built config.nameCase)
    exact .built member part (duplicate_of_pair NamedValue.value pair same)

theorem FieldEntry.rules_honest :
    Honest (Violation.Genuine config d) (f.rules config.nameCase config.dataWidth.toNat
      (config.nameCase.apply r.name)) := by
  have inside : r.built config.nameCase ∈ d.built config.nameCase := List.mem_map_of_mem member
  have within : f.built config.nameCase ∈ (r.built config.nameCase).fields :=
    List.mem_map_of_mem part
  simp only [rules, honest_append, honest_cons]
  refine ⟨⟨?name, ?description, ?zero, ?width, ?range, ?reset, ?modifiers, honest_nil⟩,
    honest_inTurn fun v piece before known => v.rules_honest member part piece known⟩
  case name => exact fun fails => ⟨⟨_, inside, _, within, rfl⟩, fails⟩
  case description => exact fun fails => ⟨_, inside, _, within, rfl, broken_of_not fails⟩
  case zero => exact fun fails => .built member part (Nat.eq_zero_of_not_pos fails)
  case width => exact fun fails => ⟨rfl, .built member part ⟨rfl, not_le.mp fails⟩⟩
  case range => exact fun fails => ⟨rfl, .built member part ⟨rfl, rfl, not_le.mp fails⟩⟩
  case reset => exact fun fails => .built member part ⟨rfl, rfl, not_lt.mp fails⟩
  case modifiers => exact fun fails => .built member part ⟨rfl, rfl, fails⟩

end

theorem RegisterEntry.fieldRules_honest :
    Honest (Violation.Genuine config d) (r.built config.nameCase).fieldRules := by
  refine honest_append.mpr ⟨honest_unrepeated fun name twice => .built member twice, ?_⟩
  refine honest_inTurn fun g _ before known rule of fails => ?_
  obtain ⟨f, first, rfl⟩ := List.mem_map.mp of
  have pair := known f first
  -- The rules see the fields from the lowest bit upwards, the violation names those declared.
  have ordered := List.pairwise_cons.mp ((pairwise_inOrderOf ..).sublist pair)
  have both := pair.subperm.trans (inOrderOf_perm ..).subperm
  exact .built member ⟨f, g, both, ⟨rfl, rfl, rfl⟩, ⟨rfl, rfl, rfl⟩,
    ordered.1 g (List.mem_singleton_self g), fails⟩

theorem RegisterEntry.rules_honest :
    Honest (Violation.Genuine config d) (r.rules config.nameCase config.dataWidth.toNat) := by
  have inside : r.built config.nameCase ∈ d.built config.nameCase := List.mem_map_of_mem member
  simp only [rules, honest_append, honest_cons, honest_flatMap]
  refine ⟨⟨⟨?name, ?description, ?fields, honest_nil⟩, fun f part => f.rules_honest member part⟩,
    fieldRules_honest member⟩
  case name => exact fun fails => ⟨⟨_, inside, rfl⟩, fails⟩
  case description => exact fun fails => ⟨_, inside, rfl, broken_of_not fails⟩
  case fields =>
    intro fails
    refine .built member ?_
    rw [built, not_not.mp fails]
    rfl

end

section

variable {config : Config} {d : Description}

theorem registerRules_honest :
    Honest (Violation.Genuine config d) (registerRules (config.baseOf d)
      (config.dataWidth.toNat / 8) (d.built config.nameCase)) := by
  refine honest_append.mpr ⟨honest_unrepeated fun name twice => twice, honest_cons.mpr ⟨?_, ?_⟩⟩
  · exact fun fails => ⟨rfl, rfl, fails⟩
  · refine honest_inTurn fun r ordered before known => ?_
    have inside := (inOrderOf_perm ..).mem_iff.mp ordered
    simp only [Register.placeRules, honest_append, honest_cons]
    refine ⟨⟨?aligned, ?above, ?ends, honest_nil⟩, fun rule of fails => ?apart⟩
    case aligned => exact fun fails => ⟨rfl, r, inside, rfl, rfl, fails⟩
    case above => exact fun fails => ⟨rfl, r, inside, rfl, rfl, not_le.mp fails⟩
    case ends => exact fun fails => ⟨r, inside, rfl, rfl, not_lt.mp fails⟩
    case apart =>
      obtain ⟨b, first, rfl⟩ := List.mem_map.mp of
      have both := (known b first).subperm.trans (inOrderOf_perm ..).subperm
      exact ⟨b, r, both, ⟨rfl, not_not.mp fails⟩, rfl, rfl⟩

theorem claimRules_honest :
    Honest (Violation.Genuine config d)
      (inTurn Claim.rules [] (claims (d.built config.nameCase))) := by
  refine honest_inTurn fun c asked before known rule of fails => ?_
  obtain ⟨b, first, rfl⟩ := List.mem_map.mp of
  obtain ⟨same, differ⟩ := Classical.not_imp.mp fails
  have wanted : b ∈ claims (d.built config.nameCase) :=
    (known b first).subset (List.mem_cons_self ..)
  rw [claims_eq] at asked wanted
  obtain ⟨i, left, ofI⟩ := List.mem_flatMap.mp wanted
  obtain ⟨j, right, ofJ⟩ := List.mem_flatMap.mp asked
  obtain ⟨derivedI, ownerI⟩ := mem_itemClaims_iff.mp ofI
  obtain ⟨derivedJ, ownerJ⟩ := mem_itemClaims_iff.mp ofJ
  rw [same] at derivedI
  exact ⟨differ, i, left, j, right, ownerI.symm, ownerJ.symm, c.scope, derivedI, derivedJ⟩

theorem Description.rules_honest : Honest (Violation.Genuine config d) (d.rules config) := by
  simp only [rules, honest_append, honest_cons, honest_flatMap]
  refine ⟨⟨⟨⟨?word, ?name, honest_nil⟩, fun r member => r.rules_honest member⟩,
    registerRules_honest⟩, claimRules_honest⟩
  case word => exact fun fails => ⟨rfl, fails⟩
  case name => exact fun fails => ⟨rfl, fails⟩

end

/-- A compilation fails exactly with what the first broken rule of the description tells, whatever
comes after that rule, and what it tells is so. -/
theorem compile_error_first_genuine (config : Config) (d : Description) (v : Violation) :
    (compile config d = .error v ↔ FirstBroken (d.rules config) v) ∧
      (compile config d = .error v → v.Genuine config d) := by
  refine ⟨compile_eq_error_iff, fun failed => ?_⟩
  exact (compile_eq_error_iff.mp failed).of_honest Description.rules_honest

/-- A register at an odd address with a field that ends past the word and one that has no bits, and
after it a register whose name is none. -/
def faulty : Description where
  name := "uart"
  registers :=
    [{ name := "DATA", address := 1,
       fields := [{ name := "HIGH", width := 8, lsb := 28 }, { name := "NONE", width := 0 }] },
      { name := "2ND", address := 0 }]

theorem compile_faulty :
    compile {} faulty = .error (.fieldOutOfRange "DATA" "HIGH" 28 8 32) ∧
      (Violation.fieldOutOfRange "DATA" "HIGH" 28 8 32).Genuine {} faulty := by
  have failed : compile {} faulty = .error (.fieldOutOfRange "DATA" "HIGH" 28 8 32) := by
    decide +kernel
  exact ⟨failed, (compile_error_first_genuine {} faulty _).2 failed⟩

end RegisterMap
