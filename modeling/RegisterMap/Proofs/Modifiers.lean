import RegisterMap.Access
import RegisterMap.Proofs.Sorting
import Mathlib.Data.Multiset.Basic

namespace RegisterMap

/-- The sets of side effects that go with an access mode. In a set the order says nothing, and
none of these names a side effect twice. -/
def Modifier.documented : Access → List (Multiset Modifier)
  | .readWrite =>
    [{}, {externalUpdate}, {externalUpdate, write1ToClear}, {externalUpdate, write1ToToggle},
      {memory}]
  | .writeOnly => [{}, {selfClear}, {memory}]
  | .readOnly =>
    [{}, {readConst}, {externalUpdate}, {externalUpdate, readToClear}, {memory}]

namespace Modifier

theorem rank_injective : Function.Injective rank := by
  intro m n same
  cases m <;> cases n <;> first | rfl | cases same

/-- The combinations of the check are the documented sets, each in order of rank. -/
theorem documented_eq_map (access : Access) :
    documented access = (combinations access).map Multiset.ofList := by
  cases access <;> decide

theorem combinations_sorted (access : Access) :
    ∀ set ∈ combinations access, set.Pairwise fun a b => a.rank ≤ b.rank := by
  cases access <;> decide

/-- Two lists in order of rank with the same members are one list, since no two modifiers share
a rank. -/
theorem eq_of_perm_of_sorted {l set : List Modifier} (perm : l.Perm set)
    (left : l.Pairwise fun a b => a.rank ≤ b.rank)
    (right : set.Pairwise fun a b => a.rank ≤ b.rank) : l = set :=
  perm.eq_of_pairwise (fun _ _ _ _ low high => rank_injective (le_antisymm low high)) left right

/-- Modifiers are supported exactly when they are, in whatever order, one of the documented
sets. -/
theorem supported_iff {access : Access} {modifiers : List Modifier} :
    supported access modifiers = true ↔ (modifiers : Multiset Modifier) ∈ documented access := by
  rw [documented_eq_map, supported, List.contains_iff_mem, List.mem_map]
  constructor
  · intro found
    exact ⟨_, found, Multiset.coe_eq_coe.mpr (List.mergeSort_perm ..)⟩
  · rintro ⟨set, found, same⟩
    have perm := (List.mergeSort_perm modifiers fun a b => decide (a.rank ≤ b.rank)).trans
      (Multiset.coe_eq_coe.mp same).symm
    rwa [eq_of_perm_of_sorted perm (pairwise_mergeSort_key rank _) (combinations_sorted _ _ found)]

theorem documented_nodup (access : Access) : ∀ set ∈ documented access, set.Nodup := by
  cases access <;> decide

theorem supported_perm (access : Access) {modifiers other : List Modifier}
    (perm : modifiers.Perm other) : supported access modifiers = supported access other := by
  rw [Bool.eq_iff_iff, supported_iff, supported_iff, Multiset.coe_eq_coe.mpr perm]

/-- Support is the documented table, up to order. -/
theorem supported_up_to_order (access : Access) (modifiers : List Modifier) :
    (supported access modifiers = true ↔ (modifiers : Multiset Modifier) ∈ documented access) ∧
      (∀ other, modifiers.Perm other → supported access other = supported access modifiers) ∧
      (¬ modifiers.Nodup → supported access modifiers = false) := by
  refine ⟨supported_iff, fun other perm => (supported_perm access perm).symm, fun repeated => ?_⟩
  rw [← Bool.not_eq_true, supported_iff]
  exact fun known => repeated (Multiset.coe_nodup.mp (documented_nodup access _ known))

theorem supported_up_to_order_counter :
    [externalUpdate, write1ToClear].Perm [write1ToClear, externalUpdate] ∧
      supported .readWrite [write1ToClear, externalUpdate] = true ∧
      ¬ [memory, memory].Nodup ∧ supported .writeOnly [memory, memory] = false := by
  have turned : [externalUpdate, write1ToClear].Perm [write1ToClear, externalUpdate] := by decide
  have repeated : ¬ [memory, memory].Nodup := by decide
  have clear := supported_up_to_order .readWrite [externalUpdate, write1ToClear]
  exact ⟨turned, (clear.2.1 _ turned).trans (clear.1.mpr (by decide)), repeated,
    (supported_up_to_order .writeOnly [memory, memory]).2.2 repeated⟩

end Modifier

end RegisterMap
