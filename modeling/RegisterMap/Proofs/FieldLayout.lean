import RegisterMap.Proofs.Checking
import RegisterMap.Proofs.Sorting
import Mathlib.Data.List.Chain
import Mathlib.Order.Interval.Finset.Nat

namespace RegisterMap

/-- The bits of its word that a field holds. -/
def Field.bits (f : Field) : Finset Nat := Finset.Ico f.lsb f.stop

theorem Field.disjoint_bits_iff {f g : Field} (first : 0 < f.width) (second : 0 < g.width) :
    Disjoint f.bits g.bits ↔ f.stop ≤ g.lsb ∨ g.stop ≤ f.lsb := by
  have ends : f.stop = f.lsb + f.width ∧ g.stop = g.lsb + g.width := ⟨rfl, rfl⟩
  simp only [bits, Finset.disjoint_left, Finset.mem_Ico]
  constructor
  · intro apart
    by_contra meets
    exact apart (a := max f.lsb g.lsb) (by omega) (by omega)
  · intro apart bit inside
    omega

/-- Neighbours that follow each other without overlap keep all fields apart. -/
theorem firstOverlap?_eq_none_iff {fields : List Field} :
    firstOverlap? fields = none ↔ fields.Pairwise fun a b => a.stop ≤ b.lsb := by
  have follows : IsTrans Field fun a b => a.stop ≤ b.lsb :=
    ⟨fun a b c first second => first.trans ((Nat.le_add_right ..).trans second)⟩
  rw [← List.isChain_iff_pairwise]
  fun_induction firstOverlap? fields with
  | case1 a b rest overlap =>
    simp only [reduceCtorEq, List.isChain_cons_cons, false_iff, not_and]
    intro apart
    omega
  | case2 a b rest apart ih =>
    have first : a.stop ≤ b.lsb := by omega
    rw [List.isChain_cons_cons]
    exact ih.trans (and_iff_right first).symm
  | case3 fields short =>
    cases fields with
    | nil => simp
    | cons a rest =>
      cases rest with
      | nil => simp
      | cons b rest => exact absurd rfl (short a b rest)

namespace Register

theorem fieldsByLsb_perm (r : Register) : r.fieldsByLsb.Perm r.fields := List.mergeSort_perm ..

theorem fieldsByLsb_sorted (r : Register) : r.fieldsByLsb.Pairwise fun a b => a.lsb ≤ b.lsb :=
  pairwise_mergeSort_key Field.lsb r.fields

/-- In the order of their lowest bits, fields of some width are apart exactly when each one ends
before the later ones begin. -/
theorem fieldsByLsb_pairwise_iff {r : Register} (positive : ∀ f ∈ r.fields, 0 < f.width) :
    (r.fieldsByLsb.Pairwise fun a b => a.stop ≤ b.lsb) ↔
      r.fields.Pairwise fun f g => Disjoint f.bits g.bits := by
  have width : ∀ f ∈ r.fieldsByLsb, 0 < f.width := fun f inside =>
    positive f (r.fieldsByLsb_perm.mem_iff.mp inside)
  rw [← r.fieldsByLsb_perm.pairwise_iff fun apart => apart.symm]
  constructor
  · intro ordered
    refine ordered.imp_of_mem fun left right follows => ?_
    exact (Field.disjoint_bits_iff (width _ left) (width _ right)).mpr (Or.inl follows)
  · intro apart
    refine (apart.and r.fieldsByLsb_sorted).imp_of_mem fun left right both => ?_
    obtain ⟨disjoint, low⟩ := both
    have wide := width _ right
    rcases (Field.disjoint_bits_iff (width _ left) wide).mp disjoint with follows | precedes
    · exact follows
    · simp only [Field.stop] at precedes
      omega

end Register

/-- The check of names and of neighbouring fields says of any two fields that they differ in name
and share no bit. -/
theorem checkFields_eq_ok_iff {r : Register} (positive : ∀ f ∈ r.fields, 0 < f.width) :
    checkFields r = .ok () ↔
      (r.fields.map Field.name).Nodup ∧ r.fields.Pairwise fun f g => Disjoint f.bits g.bits := by
  rw [← Register.fieldsByLsb_pairwise_iff positive, ← firstOverlap?_eq_none_iff,
    ← firstRepeated?_nil_eq_none_iff, checkFields]
  cases firstRepeated? [] (r.fields.map Field.name) with
  | some name => simp
  | none => cases firstOverlap? r.fieldsByLsb <;> simp

end RegisterMap
