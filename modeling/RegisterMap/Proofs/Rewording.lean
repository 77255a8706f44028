import RegisterMap.Bindings
import RegisterMap.BitRun
import RegisterMap.Proofs.Descriptions
import Mathlib.Data.List.Forall2

namespace RegisterMap

def NamedValue.outline (v : NamedValue) : NamedValue := { v with description := "" }

def Field.outline (f : Field) : Field :=
  { f with description := "", values := f.values.map NamedValue.outline }

def Register.outline (r : Register) : Register :=
  { r with description := "", fields := r.fields.map Field.outline }

/-- A map with every description left empty. -/
def AddressMap.outline (m : AddressMap) : AddressMap :=
  { m with registers := m.registers.map Register.outline }

theorem Field.descriptions_outline (f : Field) :
    f.outline.descriptions = f.descriptions.map fun _ => "" := by
  simp [descriptions, outline, NamedValue.outline]

theorem Register.descriptions_outline (r : Register) :
    r.outline.descriptions = r.descriptions.map fun _ => "" := by
  simp [descriptions, outline, List.flatMap_map, List.map_flatMap, Field.descriptions_outline]

theorem AddressMap.descriptions_outline (m : AddressMap) :
    m.outline.descriptions = m.descriptions.map fun _ => "" := by
  simp [descriptions, outline, List.flatMap_map, List.map_flatMap, Register.descriptions_outline]

section

variable (P : String → String → Prop)

inductive NamedValue.Reworded (v : NamedValue) : NamedValue → Prop
  | mk {description : String} (text : P v.description description) :
    Reworded v { v with description }

inductive Field.Reworded (f : Field) : Field → Prop
  | mk {description : String} {values : List NamedValue} (text : P f.description description)
    (each : f.values.Forall₂ (NamedValue.Reworded P) values) :
    Reworded f { f with description, values }

inductive Register.Reworded (r : Register) : Register → Prop
  | mk {description : String} {fields : List Field} (text : P r.description description)
    (each : r.fields.Forall₂ (Field.Reworded P) fields) :
    Reworded r { r with description, fields }

/-- Maps that differ in descriptions alone, where each two texts are in a relation. -/
inductive AddressMap.Reworded (m : AddressMap) : AddressMap → Prop
  | mk {registers : List Register} (each : m.registers.Forall₂ (Register.Reworded P) registers) :
    Reworded m { m with registers }

end

theorem forall₂_append {α : Type} {P : α → α → Prop} {l k more others : List α}
    (length : l.length = k.length) (all : (l ++ more).Forall₂ P (k ++ others)) :
    l.Forall₂ P k ∧ more.Forall₂ P others := by
  have first := List.forall₂_take l.length all
  have second := List.forall₂_drop l.length all
  rw [List.take_left, List.take_left' length.symm] at first
  rw [List.drop_left, List.drop_left' length.symm] at second
  exact ⟨first, second⟩

/-- Lists that are put together of pieces are related piece by piece, where these are as long. -/
theorem forall₂_flatMap {α β : Type} {S : α → α → Prop} {P : β → β → Prop} {texts : α → List β}
    (lengths : ∀ a b, S a b → (texts a).length = (texts b).length) {l k : List α}
    (members : l.Forall₂ S k) (all : (l.flatMap texts).Forall₂ P (k.flatMap texts)) :
    l.Forall₂ (fun a b => S a b ∧ (texts a).Forall₂ P (texts b)) k := by
  induction members with
  | nil => exact .nil
  | @cons a b l k first _ ih =>
    rw [List.flatMap_cons, List.flatMap_cons] at all
    obtain ⟨own, later⟩ := forall₂_append (lengths a b first) all
    exact .cons ⟨first, own⟩ (ih later)

section

variable {P : String → String → Prop}

theorem forall₂_of_map_eq {α β : Type} {f : α → β} {l k : List α} (same : l.map f = k.map f) :
    l.Forall₂ (fun a b => f a = f b) k := by
  rw [← List.forall₂_eq_eq_eq, List.forall₂_map_left_iff, List.forall₂_map_right_iff] at same
  exact same

theorem Field.length_descriptions {f g : Field} (same : f.outline = g.outline) :
    f.descriptions.length = g.descriptions.length := by
  have lengths := congrArg (fun f : Field => f.descriptions.length) same
  simpa [Field.descriptions_outline] using lengths

theorem Register.length_descriptions {r s : Register} (same : r.outline = s.outline) :
    r.descriptions.length = s.descriptions.length := by
  have lengths := congrArg (fun r : Register => r.descriptions.length) same
  simpa [Register.descriptions_outline] using lengths

theorem AddressMap.length_descriptions {m n : AddressMap} (same : m.outline = n.outline) :
    m.descriptions.length = n.descriptions.length := by
  have lengths := congrArg (fun m : AddressMap => m.descriptions.length) same
  simpa [AddressMap.descriptions_outline] using lengths

theorem NamedValue.reworded_of_outline {v w : NamedValue} (same : v.outline = w.outline)
    (text : P v.description w.description) : v.Reworded P w := by
  have shape : w = { v with description := w.description } := by
    cases v
    cases w
    simp_all [outline]
  rw [shape]
  exact .mk text

theorem Field.reworded_of_outline {f g : Field} (same : f.outline = g.outline)
    (texts : f.descriptions.Forall₂ P g.descriptions) : f.Reworded P g := by
  obtain ⟨text, values⟩ := List.forall₂_cons.mp texts
  rw [List.forall₂_map_left_iff, List.forall₂_map_right_iff] at values
  have each := (forall₂_of_map_eq (congrArg Field.values same)).mp
    (fun v w outline text => NamedValue.reworded_of_outline outline text) values
  have shape : g = { f with description := g.description, values := g.values } := by
    cases f
    cases g
    simp_all [outline]
  rw [shape]
  exact .mk text each

theorem Register.reworded_of_outline {r s : Register} (same : r.outline = s.outline)
    (texts : r.descriptions.Forall₂ P s.descriptions) : r.Reworded P s := by
  obtain ⟨text, fields⟩ := List.forall₂_cons.mp texts
  have outlines := forall₂_of_map_eq (congrArg Register.fields same)
  have lengths (f g : Field) (outline : f.outline = g.outline) := Field.length_descriptions outline
  have each := (forall₂_flatMap lengths outlines fields).imp
    fun f g both => Field.reworded_of_outline both.1 both.2
  have shape : s = { r with description := s.description, fields := s.fields } := by
    cases r
    cases s
    simp_all [outline]
  rw [shape]
  exact .mk text each

/-- Maps of one outline differ in their descriptions alone, place by place. -/
theorem AddressMap.reworded_of_outline {m n : AddressMap} (same : m.outline = n.outline)
    (texts : m.descriptions.Forall₂ P n.descriptions) : m.Reworded P n := by
  have outlines := forall₂_of_map_eq (congrArg AddressMap.registers same)
  have lengths (r s : Register) (outline : r.outline = s.outline) :=
    Register.length_descriptions outline
  have each := (forall₂_flatMap lengths outlines texts).imp
    fun r s both => Register.reworded_of_outline both.1 both.2
  have shape : n = { m with registers := n.registers } := by
    cases m
    cases n
    simp_all [outline]
  rw [shape]
  exact .mk each

end

section

variable {P : String → String → Prop}

theorem map_eq_of_forall₂ {α β : Type} {R : α → α → Prop} {l k : List α} (f : α → β)
    (members : l.Forall₂ R k) (same : ∀ a b, R a b → f a = f b) : l.map f = k.map f := by
  induction members with
  | nil => rfl
  | cons first _ ih => rw [List.map_cons, List.map_cons, same _ _ first, ih]

theorem flatMap_eq_of_forall₂ {α β : Type} {R : α → α → Prop} {l k : List α} (f : α → List β)
    (members : l.Forall₂ R k) (same : ∀ a b, R a b → f a = f b) : l.flatMap f = k.flatMap f := by
  rw [List.flatMap_def, map_eq_of_forall₂ f members same, List.flatMap_def]

theorem isEmpty_eq_of_forall₂ {α : Type} {R : α → α → Prop} {l k : List α}
    (members : l.Forall₂ R k) : l.isEmpty = k.isEmpty := by
  cases members <;> rfl

/-- Related lists are sorted alike where the key does not tell related members apart. -/
theorem forall₂_mergeSort {α : Type} {R : α → α → Prop} {l k : List α} (key : α → Nat)
    (members : l.Forall₂ R k) (same : ∀ a b, R a b → key a = key b) :
    (l.mergeSort fun a b => decide (key a ≤ key b)).Forall₂ R
      (k.mergeSort fun a b => decide (key a ≤ key b)) := by
  obtain ⟨length, related⟩ := List.forall₂_iff_zip.mp members
  -- Both lists are halves of one list of pairs, which either half sorts in the same way.
  have keys : ∀ p ∈ l.zip k, key p.1 = key p.2 := fun p inside => same _ _ (related inside)
  have first : l = (l.zip k).map Prod.fst := (List.map_fst_zip length.le).symm
  have second : k = (l.zip k).map Prod.snd := (List.map_snd_zip length.ge).symm
  generalize l.zip k = pairs at first second related keys
  subst first second
  rw [← List.map_mergeSort (r := fun p q : α × α => decide (key p.1 ≤ key q.1)) fun _ _ _ _ => rfl,
    ← List.map_mergeSort (r := fun p q : α × α => decide (key p.1 ≤ key q.1)) fun p left q right => by
      rw [keys p left, keys q right],
    List.forall₂_map_left_iff, List.forall₂_map_right_iff, List.forall₂_same]
  exact fun p inside => related ((List.mergeSort_perm ..).mem_iff.mp inside)

theorem Field.Reworded.lsb_eq {f g : Field} (reworded : f.Reworded P g) : f.lsb = g.lsb := by
  cases reworded
  rfl

namespace Register.Reworded

variable {r s : Register} (reworded : r.Reworded P s)
include reworded

theorem reset_eq : r.reset = s.reset := by
  obtain ⟨_, each⟩ := reworded
  have resets := map_eq_of_forall₂ (fun f : Field => f.reset <<< f.lsb) each fun f g same => by
    cases same
    rfl
  have folded := congrArg (List.foldl (· ||| ·) 0) resets
  rwa [List.foldl_map, List.foldl_map] at folded

theorem access_eq : r.access = s.access := by
  obtain ⟨_, each⟩ := reworded
  have modes := map_eq_of_forall₂ Field.access each fun f g same => by
    cases same
    rfl
  have all (mode : Access) := congrArg (List.all · (· == mode)) modes
  simp only [List.all_map, Function.comp_def] at all
  simp only [access, all]

theorem fieldsByLsb : r.fieldsByLsb.Forall₂ (Field.Reworded P) s.fieldsByLsb := by
  obtain ⟨_, each⟩ := reworded
  exact forall₂_mergeSort Field.lsb each fun f g same => same.lsb_eq

theorem hasBits_eq (word : Word) : Bindings.hasBits word r = Bindings.hasBits word s := by
  obtain ⟨_, each⟩ := reworded
  unfold Bindings.hasBits
  generalize r.fields = fields at each
  cases each with
  | nil => rfl
  | cons first rest => cases rest with
    | nil => cases first with
      | mk _ values =>
        have none := isEmpty_eq_of_forall₂ values
        simp only [none]
    | cons => rfl

end Register.Reworded

variable (P) in
inductive BitRun.Reworded : BitRun → BitRun → Prop
  | field {f g : Field} (same : f.Reworded P g) : Reworded (.field f) (.field g)
  | padding (width : Nat) : Reworded (.padding width) (.padding width)

theorem BitRun.reworded_gap (width : Nat) : (gap width).Forall₂ (Reworded P) (gap width) := by
  unfold gap
  split
  · exact .nil
  · exact .cons (.padding width) .nil

theorem BitRun.reworded_cover (word : Word) {l k : List Field}
    (members : l.Forall₂ (Field.Reworded P) k) (next : Nat) :
    (cover word next l).Forall₂ (Reworded P) (cover word next k) := by
  induction members generalizing next with
  | nil => exact reworded_gap _
  | @cons f g l k first _ ih =>
    have stop : f.stop = g.stop := by cases first; rfl
    rw [cover, cover, first.lsb_eq, stop]
    exact List.rel_append (reworded_gap _) (.cons (.field first) (ih _))

theorem Register.Reworded.bitRuns {r s : Register} (reworded : r.Reworded P s) (word : Word) :
    (r.bitRuns word).Forall₂ (BitRun.Reworded P) (s.bitRuns word) :=
  BitRun.reworded_cover word reworded.fieldsByLsb 0

variable (P) in
inductive Slot.Reworded : Slot → Slot → Prop
  | register {r s : Register} (same : r.Reworded P s) : Reworded (.register r) (.register s)
  | reserved (span : ReservedSpan) : Reworded (.reserved span) (.reserved span)

theorem reworded_mergeSlots {l k : List Register} (members : l.Forall₂ (Register.Reworded P) k)
    (spans : List ReservedSpan) :
    (mergeSlots spans l).Forall₂ (Slot.Reworded P) (mergeSlots spans k) := by
  have reserved (spans : List ReservedSpan) :
      (spans.map Slot.reserved).Forall₂ (Slot.Reworded P) (spans.map Slot.reserved) :=
    List.forall₂_same.mpr (List.forall_mem_map.mpr fun span _ => .reserved span)
  induction members generalizing spans with
  | nil =>
    rw [mergeSlots]
    exact reserved spans
  | @cons r s l k first _ ih =>
    have address : r.address = s.address := by cases first; rfl
    rw [mergeSlots, mergeSlots, address]
    exact List.rel_append (reserved _) (.cons (.register first) (ih _))

theorem AddressMap.stop_eq_getLast (m : AddressMap) :
    m.stop = ((m.registers.map Register.address).getLast?.map (· + m.word.bytes)).getD m.base := by
  rw [stop, List.getLast?_map]
  cases m.registers.getLast? <;> rfl

theorem AddressMap.Reworded.stop_eq {m n : AddressMap} (reworded : m.Reworded P n) :
    m.stop = n.stop := by
  obtain ⟨each⟩ := reworded
  have addresses := map_eq_of_forall₂ Register.address each fun r s same => by
    cases same
    rfl
  rw [stop_eq_getLast, stop_eq_getLast, addresses]

theorem AddressMap.Reworded.slots {m n : AddressMap} (reworded : m.Reworded P n) :
    m.slots.Forall₂ (Slot.Reworded P) n.slots := by
  obtain ⟨each⟩ := reworded
  exact reworded_mergeSlots each m.reserved

end

end RegisterMap
