import Mathlib.Data.List.Chain
import Mathlib.Data.Finset.Sort

namespace RegisterMap

variable {α : Type}

theorem key_trans (key : α → Nat) (a b c : α) (first : decide (key a ≤ key b) = true)
    (second : decide (key b ≤ key c) = true) : decide (key a ≤ key c) = true := by
  simp only [decide_eq_true_eq] at first second ⊢
  omega

theorem key_total (key : α → Nat) (a b : α) :
    (decide (key a ≤ key b) || decide (key b ≤ key a)) = true := by
  simp only [Bool.or_eq_true, decide_eq_true_eq]
  omega

theorem pairwise_mergeSort_key (key : α → Nat) (l : List α) :
    (l.mergeSort fun a b => decide (key a ≤ key b)).Pairwise fun a b => key a ≤ key b :=
  (l.pairwise_mergeSort (key_trans key) (key_total key)).imp of_decide_eq_true

/-- In ascending order only neighbours can be equal. -/
theorem pairwise_lt_of_isChain_ne {l : List Nat} (sorted : l.Pairwise (· ≤ ·))
    (differ : l.IsChain (· ≠ ·)) : l.Pairwise (· < ·) := by
  induction l with
  | nil => exact .nil
  | cons a rest ih =>
    obtain ⟨least, others⟩ := List.pairwise_cons.mp sorted
    refine List.pairwise_cons.mpr ⟨fun b inside => ?_, ih others differ.tail⟩
    cases rest with
    | nil => cases inside
    | cons next rest =>
      have first := (List.isChain_cons_cons.mp differ).1
      have low := least next (List.mem_cons_self ..)
      rcases List.mem_cons.mp inside with rfl | later
      · omega
      · have high := (List.pairwise_cons.mp others).1 b later
        omega

/-- The members of a list from the lowest key upwards, those of one key in their own order. -/
def inOrderOf (key : α → Nat) (l : List α) : List α :=
  ((l.map key).toFinset.sort (· ≤ ·)).flatMap fun k => l.filter fun a => key a = k

section

variable (key : α → Nat) (l : List α)

theorem mem_sort_keys_iff {k : Nat} :
    k ∈ (l.map key).toFinset.sort (· ≤ ·) ↔ ∃ a ∈ l, key a = k := by
  rw [Finset.mem_sort, List.mem_toFinset, List.mem_map]

theorem key_eq_of_mem_filter {key : α → Nat} {l : List α} {k : Nat} {a : α}
    (inside : a ∈ l.filter fun a => key a = k) : key a = k :=
  of_decide_eq_true (List.mem_filter.mp inside).2

theorem pairwise_inOrderOf : (inOrderOf key l).Pairwise fun a b => key a ≤ key b := by
  have keys := Finset.pairwise_sort (l.map key).toFinset (· ≤ ·)
  refine List.pairwise_flatMap.mpr ⟨fun k _ => ?_, keys.imp fun low a left b right => ?_⟩
  · refine List.pairwise_of_forall_mem_list fun a left b right => ?_
    rw [key_eq_of_mem_filter left, key_eq_of_mem_filter right]
  · rwa [key_eq_of_mem_filter left, key_eq_of_mem_filter right]

/-- Among the members of one key nothing changes its place. -/
theorem filter_inOrderOf (k : Nat) :
    (inOrderOf key l).filter (fun a => key a = k) = l.filter fun a => key a = k := by
  have blocks {keys : List Nat} (distinct : keys.Nodup) :
      (keys.flatMap fun j => l.filter fun a => key a = j).filter (fun a => key a = k) =
        if k ∈ keys then l.filter fun a => key a = k else [] := by
    induction keys with
    | nil => rfl
    | cons j rest ih =>
      obtain ⟨fresh, others⟩ := List.nodup_cons.mp distinct
      rw [List.flatMap_cons, List.filter_append, ih others, List.filter_filter]
      by_cases same : k = j
      · subst same
        simp [fresh]
      · have none : (l.filter fun a => decide (key a = k) && decide (key a = j)) = [] :=
          List.filter_eq_nil_iff.mpr fun a _ => by simp; omega
        simp [same, none]
  rw [inOrderOf, blocks (Finset.sort_nodup ..)]
  split
  · rfl
  · rename_i absent
    refine (List.filter_eq_nil_iff.mpr fun a inside same => absent ?_).symm
    exact (mem_sort_keys_iff key l).mpr ⟨a, inside, of_decide_eq_true same⟩

theorem filter_mergeSort_key (k : Nat) :
    (l.mergeSort fun a b => decide (key a ≤ key b)).filter (fun a => key a = k) =
      l.filter fun a => key a = k := by
  have level : (l.filter fun a => key a = k).Pairwise
      fun a b => decide (key a ≤ key b) = true := by
    refine List.pairwise_of_forall_mem_list fun a left b right => decide_eq_true ?_
    rw [key_eq_of_mem_filter left, key_eq_of_mem_filter right]
  have kept := List.sublist_mergeSort (key_trans key) (key_total key) level List.filter_sublist
  have block := kept.filter fun a => decide (key a = k)
  simp only [List.filter_filter, Bool.and_self] at block
  exact (block.eq_of_length ((List.mergeSort_perm ..).filter _).length_eq.symm).symm

end

section

variable {key : α → Nat} {s t : List α}
  (same : ∀ k, (s.filter fun a => key a = k) = t.filter fun a => key a = k)
include same

theorem mem_iff_of_filter_key_eq (a : α) : a ∈ s ↔ a ∈ t := by
  have own := same (key a)
  constructor
  · intro inside
    exact List.mem_of_mem_filter (own ▸ List.mem_filter.mpr ⟨inside, decide_eq_true rfl⟩)
  · intro inside
    exact List.mem_of_mem_filter (own.symm ▸ List.mem_filter.mpr ⟨inside, decide_eq_true rfl⟩)

/-- A list in ascending order of keys is known by its members of each key. -/
theorem eq_of_filter_key_eq (left : s.Pairwise fun a b => key a ≤ key b)
    (right : t.Pairwise fun a b => key a ≤ key b) : s = t := by
  induction s generalizing t with
  | nil =>
    refine (List.eq_nil_iff_forall_not_mem.mpr fun a inside => ?_).symm
    exact absurd ((mem_iff_of_filter_key_eq same a).mpr inside) List.not_mem_nil
  | cons a s ih =>
    have inside := mem_iff_of_filter_key_eq same
    cases t with
    | nil => exact absurd ((inside a).mp (List.mem_cons_self ..)) List.not_mem_nil
    | cons b t =>
      obtain ⟨leastA, restA⟩ := List.pairwise_cons.mp left
      obtain ⟨leastB, restB⟩ := List.pairwise_cons.mp right
      have level : key b = key a := by
        rcases List.mem_cons.mp ((inside a).mp (List.mem_cons_self ..)) with rfl | laterA
        · rfl
        · rcases List.mem_cons.mp ((inside b).mpr (List.mem_cons_self ..)) with rfl | laterB
          · rfl
          · exact le_antisymm (leastB a laterA) (leastA b laterB)
      have heads := same (key a)
      simp only [List.filter_cons, level, decide_true, if_true] at heads
      obtain ⟨rfl, _⟩ := List.cons.inj heads
      have tails (k : Nat) : (s.filter fun a => key a = k) = t.filter fun a => key a = k := by
        have both := same k
        simp only [List.filter_cons] at both
        split at both
        · exact (List.cons.inj both).2
        · exact both
      rw [ih tails restA restB]

end

theorem mergeSort_key_eq_inOrderOf (key : α → Nat) (l : List α) :
    (l.mergeSort fun a b => decide (key a ≤ key b)) = inOrderOf key l :=
  eq_of_filter_key_eq
    (fun k => (filter_mergeSort_key key l k).trans (filter_inOrderOf key l k).symm)
    (pairwise_mergeSort_key key l) (pairwise_inOrderOf key l)

theorem inOrderOf_perm (key : α → Nat) (l : List α) : (inOrderOf key l).Perm l :=
  mergeSort_key_eq_inOrderOf key l ▸ List.mergeSort_perm ..

end RegisterMap
