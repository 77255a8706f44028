import RegisterMap.Accessors.Text
import RegisterMap.Bindings.Text
import RegisterMap.Header.Text
import RegisterMap.Proofs.AlikeLines
import RegisterMap.Proofs.Rewording

namespace RegisterMap

open Line (alike_same alike_append alike_flatMap)

section

variable {P : String → String → Prop} (blank : ∀ a b, P a b → a.isEmpty = b.isEmpty)
include blank

namespace Header

theorem alike_withComment (code mark : String) {a b : String} (text : P a b) :
    (withComment code mark a).Alike [commentText] P (withComment code mark b) := by
  unfold withComment
  rw [blank a b text]
  split
  · exact .same _
  · exact .slot (List.mem_singleton_self _) text

theorem alike_bitMember (word : Word) {run other : BitRun} (same : run.Reworded P other) :
    ((BitMember.ofRun run).line word).Alike [commentText] P ((BitMember.ofRun other).line word) := by
  cases same with
  | padding width => exact .same _
  | field same => cases same with
    | mk text _ => exact alike_withComment blank _ _ text

theorem alike_mapMembers (lead : Lead) (word : Word) {slots others : List Slot}
    (members : slots.Forall₂ (Slot.Reworded P) others) (index : Nat) :
    ((mapMembers lead index slots).flatMap (MapMember.lines word)).Forall₂
      (Line.Alike [commentText] P) ((mapMembers lead index others).flatMap (MapMember.lines word)) := by
  induction members generalizing index with
  | nil => exact .nil
  | cons first _ ih => cases first with
    | reserved span => exact alike_append (alike_same _) (ih (index + 1))
    | register same =>
      have access := same.access_eq
      obtain ⟨text, _⟩ := same
      refine alike_append ?_ (ih index)
      rw [access]
      exact .cons (.same _) (.cons (alike_withComment blank _ _ text) (alike_same _))

/-- Whether the lines of declarations are alike. -/
def Declaration.Alike (P : String → String → Prop) (word : Word) (d e : Declaration) : Prop :=
  (d.lines word).Forall₂ (Line.Alike [commentText] P) (e.lines word)

omit blank in
theorem declarations_same (word : Word) (l : List Declaration) :
    l.Forall₂ (Declaration.Alike P word) l := List.forall₂_same.mpr fun _ _ => alike_same _

omit blank in
theorem alike_block (opening name : String) {members others : List Line}
    (same : members.Forall₂ (Line.Alike [commentText] P) others) :
    (block opening members name).Forall₂ (Line.Alike [commentText] P) (block opening others name) :=
  alike_append (.cons (.same _) same) (alike_same _)

theorem alike_remark (word : Word) (subject : String) {a b : String} (text : P a b) :
    (Declaration.remark subject a).Alike P word (.remark subject b) :=
  .cons (alike_withComment blank _ _ text) .nil

theorem alike_fieldDeclarations (lead : Lead) (word : Word) {r s : Register}
    (name : r.name = s.name) {f g : Field} (same : f.Reworded P g) :
    (fieldDeclarations lead r f).Forall₂ (Declaration.Alike P word)
      (fieldDeclarations lead s g) := by
  obtain ⟨text, each⟩ := same
  have none := isEmpty_eq_of_forall₂ each
  rw [fieldDeclarations, fieldDeclarations, name, none]
  refine List.rel_append (List.rel_append (.cons (alike_remark blank word _ text) ?_) ?_)
    (declarations_same word _)
  · exact declarations_same word _
  · split
    · exact .nil
    · refine .cons (alike_block _ _ ?_) .nil
      rw [List.map_map, List.map_map]
      refine List.rel_map (fun v w same => ?_) each
      obtain ⟨text⟩ := same
      exact alike_withComment blank _ _ text

theorem alike_registerDeclarations (lead : Lead) (word : Word) {r s : Register}
    (same : r.Reworded P s) :
    (registerDeclarations lead word r).Forall₂ (Declaration.Alike P word)
      (registerDeclarations lead word s) := by
  have reset := same.reset_eq
  have runs := same.bitRuns word
  obtain ⟨text, each⟩ := same
  rw [registerDeclarations, registerDeclarations, reset]
  refine List.rel_append ?_ (List.rel_flatMap each fun f g same =>
    alike_fieldDeclarations blank lead word rfl same)
  refine .cons (alike_remark blank word _ text) (.cons (alike_same _) (.cons (alike_same _)
    (.cons (alike_block _ _ ?_) (declarations_same word _))))
  rw [List.map_map, List.map_map]
  exact List.rel_map (fun run other same => alike_bitMember blank word same) runs

theorem alike_declarations (lead : Lead) {m n : AddressMap} (same : m.Reworded P n) :
    (declarations lead m).Forall₂ (Declaration.Alike P m.word) (declarations lead n) := by
  have slots := same.slots
  cases same with
  | mk each =>
    rw [declarations, declarations]
    refine List.rel_append (List.rel_append (declarations_same m.word _) ?_) ?_
    · exact List.rel_flatMap each fun r s same =>
        alike_registerDeclarations blank lead m.word same
    · refine .cons (alike_same _) (.cons (alike_same _) (.cons (alike_block _ _ ?_)
        (declarations_same m.word _)))
      exact alike_mapMembers blank lead m.word slots 0

/-- Lines of a header that differ, whatever its guard and lead are, differ in a comment. -/
theorem alike_lines (lead : Lead) (guard : String) {m n : AddressMap} (same : m.Reworded P n) :
    (lines lead guard m).Forall₂ (Line.Alike [commentText] P) (lines lead guard n) := by
  have all := alike_declarations blank lead same
  have word : m.word = n.word := by
    cases same
    rfl
  rw [lines, lines, ← word]
  exact alike_append (alike_append (alike_same _) (alike_flatMap all fun d e same => same))
    (alike_same _)

end Header

namespace Bindings

theorem alike_docLines (margin : String) {a b : String} (text : P a b) :
    (docLines margin a).Forall₂ (Line.Alike [id] P) (docLines margin b) := by
  unfold docLines
  rw [blank a b text]
  split
  · exact .nil
  · exact .cons (.verbatim (List.mem_singleton_self _) text) .nil

omit blank in
theorem IntType.ofAddresses_reworded {m n : AddressMap} (same : m.Reworded P n) :
    ofAddresses m = ofAddresses n := by
  rw [ofAddresses, ofAddresses, same.stop_eq]

theorem alike_constants (addresses : IntType) (word : Word) {r s : Register}
    (same : r.Reworded P s) :
    (registerConstants addresses word r).lines.Forall₂ (Line.Alike [id] P)
      (registerConstants addresses word s).lines := by
  have reset := same.reset_eq
  cases same with
  | mk text each =>
    have constants := flatMap_eq_of_forall₂ (fieldConstants word r.name) each fun f g same => by
      cases same
      rfl
    simp only [Constants.lines, registerConstants, reset, constants]
    exact .cons (.same _) (alike_append (alike_docLines blank _ text) (alike_same _))

theorem alike_bitsField {f g : Field} (same : f.Reworded P g) :
    (BitsField.of f).lines.Forall₂ (Line.Alike [id] P) (BitsField.of g).lines := by
  cases same with
  | mk text each =>
    have values := map_eq_of_forall₂
      (fun v => BitsValue.mk (camelCase v.name) (.grouped v.value)) each fun v w same => by
        cases same
        rfl
    simp only [BitsField.lines, BitsField.of, values]
    exact alike_append (alike_docLines blank _ text) (alike_same _)

theorem alike_bitsType {r s : Register} (same : r.Reworded P s) :
    (BitsType.of r).lines.Forall₂ (Line.Alike [id] P) (BitsType.of s).lines := by
  have fields := same.fieldsByLsb
  have name : r.name = s.name := by
    cases same
    rfl
  simp only [BitsType.lines, BitsType.of, name, List.flatMap_map]
  exact .cons (.same _) (alike_append (List.rel_flatMap fields fun f g same =>
    alike_bitsField blank same) (alike_same _))

omit blank in
theorem entriesOf_reworded (word : Word) (base index : Nat) {slots others : List Slot}
    (members : slots.Forall₂ (Slot.Reworded P) others) :
    entriesOf word base index slots = entriesOf word base index others := by
  induction members generalizing index with
  | nil => rfl
  | cons first _ ih => cases first with
    | reserved span => rw [entriesOf, entriesOf, ih]
    | register same =>
      have access := same.access_eq
      have bits := same.hasBits_eq word
      cases same
      rw [entriesOf, entriesOf, access, bits, ih]

theorem alike_constantsModule {m n : AddressMap} (same : m.Reworded P n) :
    (ofMap m).constantsModule.Forall₂ (Line.Alike [id] P) (ofMap n).constantsModule := by
  have addresses := IntType.ofAddresses_reworded same
  cases same with
  | mk each =>
    simp only [constantsModule, ofMap, List.flatMap_map, addresses]
    refine alike_append (alike_append (alike_same _) (List.rel_flatMap each fun r s same => ?_))
      (alike_same _)
    exact alike_constants blank _ _ same

theorem alike_bitsModule {m n : AddressMap} (same : m.Reworded P n) :
    (ofMap m).bitsModule.Forall₂ (Line.Alike [id] P) (ofMap n).bitsModule := by
  cases same with
  | @mk registers each =>
    -- Whether a register has a type depends on its fields, but not on what is said about them.
    have types : (m.registers.filter (hasBits m.word)).Forall₂ (Register.Reworded P)
        (registers.filter (hasBits m.word)) := List.rel_filter (fun r s same => by
      beta_reduce
      rw [same.hasBits_eq]) each
    have none := isEmpty_eq_of_forall₂ types
    simp only [bitsModule, ofMap, List.isEmpty_map, List.flatMap_map, none]
    split
    · exact .nil
    · exact alike_append (alike_append (alike_same _) (List.rel_flatMap types fun r s same =>
        alike_bitsType blank same)) (alike_same _)

omit blank in
/-- Whatever has no description is the same. -/
theorem ofMap_reworded {m n : AddressMap} (same : m.Reworded P n) :
    ofMap n = { ofMap m with constants := (ofMap n).constants, bits := (ofMap n).bits } := by
  have addresses := IntType.ofAddresses_reworded same
  have entries := entriesOf_reworded m.word m.base 0 same.slots
  have stop := same.stop_eq
  cases same
  simp only [ofMap, addresses, entries, stop]

/-- Lines of bindings that differ do so in a comment. -/
theorem alike_lines {m n : AddressMap} (same : m.Reworded P n) :
    (ofMap m).lines.Forall₂ (Line.Alike [id] P) (ofMap n).lines := by
  have base : (ofMap m).base = (ofMap n).base := by rw [ofMap_reworded same]
  have registers : (ofMap m).registersModule = (ofMap n).registersModule := by
    rw [ofMap_reworded same]
    rfl
  rw [lines, lines, base, registers]
  exact alike_append (alike_append (alike_append (alike_same _) (alike_constantsModule blank same))
    (alike_bitsModule blank same)) (alike_same _)

end Bindings

namespace Accessors

theorem alike_docLine (margin : String) (access : Access) {a b : String} (text : P a b) :
    (docLine margin a access).Alike [escape, id] P (docLine margin b access) := by
  unfold docLine
  rw [blank a b text]
  split
  · exact .same _
  · exact .slot (List.mem_cons_self ..) text

theorem alike_property (name : String) (access : Access) (place : Place) {a b : String}
    (text : P a b) :
    (Property.mk name a access place).lines.Forall₂ (Line.Alike [escape, id] P)
      (Property.mk name b access place).lines :=
  alike_append (alike_append (alike_append (alike_append (alike_same _)
    (.cons (alike_docLine blank _ access text) .nil)) (alike_same _)) (alike_same _)) (alike_same _)

theorem alike_fieldClass {r s : Register} (same : r.Reworded P s) :
    (FieldClass.mk (fieldClassName r.name) (r.fields.map (Property.ofField r.name))).lines.Forall₂
      (Line.Alike [escape, id] P)
      (FieldClass.mk (fieldClassName s.name) (s.fields.map (Property.ofField s.name))).lines := by
  cases same with
  | mk _ each =>
    simp only [FieldClass.lines, List.flatMap_map]
    refine alike_append (alike_same _) (List.rel_flatMap each fun f g same => ?_)
    cases same with
    | mk text _ => exact .cons (.same _) (alike_property blank _ _ _ text)

theorem alike_group (register : String) (constants : List Constant) {a b : String} (text : P a b) :
    (Constants.mk register a constants).lines.Forall₂ (Line.Alike [escape, id] P)
      (Constants.mk register b constants).lines := by
  unfold Constants.lines
  rw [blank a b text]
  refine .cons (.same _) (.cons ?_ (alike_same _))
  split
  · exact .same _
  · exact .verbatim (List.mem_cons_of_mem _ (List.mem_singleton_self _)) text

omit blank in
theorem fieldConstants_reworded (register : String) {f g : Field} (same : f.Reworded P g) :
    fieldConstants register f = fieldConstants register g := by
  cases same with
  | mk _ each =>
    have names := map_eq_of_forall₂ (fun v => Constant.mk
      (asciiUpper register ++ "_" ++ asciiUpper f.name ++ "_" ++ asciiUpper v.name) (.hex v.value))
      each fun v w same => by
        cases same
        rfl
    rw [fieldConstants, fieldConstants, names]
    rfl

theorem alike_constants {r s : Register} (same : r.Reworded P s) :
    (registerConstants r).lines.Forall₂ (Line.Alike [escape, id] P) (registerConstants s).lines := by
  have reset := same.reset_eq
  cases same with
  | mk text each =>
    have constants := flatMap_eq_of_forall₂ (fieldConstants r.name) each fun f g same =>
      fieldConstants_reworded r.name same
    rw [registerConstants, registerConstants, reset, constants]
    exact alike_group blank _ _ text

theorem alike_registerProperty {r s : Register} (same : r.Reworded P s) :
    (RegisterProperty.mk (.ofRegister r) (fieldClassName r.name)).lines.Forall₂
      (Line.Alike [escape, id] P)
      (RegisterProperty.mk (.ofRegister s) (fieldClassName s.name)).lines := by
  have access := same.access_eq
  cases same with
  | mk text _ =>
    simp only [RegisterProperty.lines, Property.ofRegister, access]
    exact .cons (.same _) (alike_append (alike_property blank _ _ _ text) (alike_same _))

/-- Lines of accessors that differ do so in a docstring or a comment. -/
theorem alike_lines {m n : AddressMap} (same : m.Reworded P n) :
    (ofMap m).lines.Forall₂ (Line.Alike [escape, id] P) (ofMap n).lines := by
  cases same with
  | mk each =>
    simp only [lines, mapClass, ofMap, List.flatMap_map]
    refine alike_append (alike_append (alike_same _) (List.rel_flatMap each fun r s same => ?_))
      (.cons (.same _) (alike_append (alike_append (alike_append (alike_same _)
        (List.rel_flatMap each fun r s same => ?_)) (alike_same _))
          (List.rel_flatMap each fun r s same => ?_)))
    · exact .cons (.same _) (alike_append (alike_fieldClass blank same) (alike_same _))
    · exact alike_constants blank same
    · exact alike_registerProperty blank same

end Accessors

end

end RegisterMap
