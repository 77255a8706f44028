import RegisterMap.AddressCheck
import RegisterMap.Proofs.Checking
import RegisterMap.Proofs.Sorting
import Mathlib.Data.List.Chain

namespace RegisterMap

theorem byAddress_perm (registers : List Register) : (byAddress registers).Perm registers :=
  List.mergeSort_perm ..

theorem byAddress_sorted (registers : List Register) :
    (byAddress registers).Pairwise fun a b => a.address ≤ b.address :=
  pairwise_mergeSort_key Register.address registers

/-- A register at a place of its own: on the grid of words, not below the base, and with an end
that is still an address. -/
@[mk_iff]
structure Register.InRange (base : Nat) (word : Word) (r : Register) : Prop where
  aligned : word.bytes ∣ r.address
  above : base ≤ r.address
  ends : r.address + word.bytes < UInt64.size

/-- What registers have to satisfy among each other and towards the base, in no order. -/
@[mk_iff]
structure Placed (base : Nat) (word : Word) (registers : List Register) : Prop where
  names : (registers.map Register.name).Nodup
  baseAligned : word.bytes ∣ base
  inRange : ∀ r ∈ registers, r.InRange base word
  addresses : (registers.map Register.address).Nodup

instance {base : Nat} {word : Word} {r : Register} : Decidable (r.InRange base word) :=
  decidable_of_iff _ (Register.inRange_iff base word r).symm

instance {base : Nat} {word : Word} {registers : List Register} :
    Decidable (Placed base word registers) :=
  decidable_of_iff _ (placed_iff base word registers).symm

/-- The scan meets every register, and compares addresses of neighbours only. -/
theorem checkAddresses_eq_ok_iff {base : Nat} {word : Word} {before : Option Register}
    {registers : List Register} :
    checkAddresses base word before registers = .ok () ↔
      (∀ r ∈ registers, r.InRange base word) ∧
        (before.toList ++ registers).IsChain fun a b => a.address ≠ b.address := by
  induction registers generalizing before with
  | nil => cases before <;> simp [checkAddresses]
  | cons r rest ih =>
    have inRange : r.InRange base word ↔ r.address % word.bytes = 0 ∧ base ≤ r.address ∧
        r.address + word.bytes < UInt64.size := by
      rw [← Nat.dvd_iff_mod_eq_zero]
      exact ⟨fun h => ⟨h.aligned, h.above, h.ends⟩, fun ⟨h, k, l⟩ => ⟨h, k, l⟩⟩
    rw [List.forall_mem_cons, inRange]
    cases before with
    | none =>
      simp only [checkAddresses, bind_eq_ok_iff, require_eq_ok_iff, exists_const, ih, and_assoc,
        Option.toList_some, Option.toList_none, List.nil_append, List.singleton_append, true_and]
    | some b =>
      simp only [checkAddresses, bind_eq_ok_iff, require_eq_ok_iff, exists_const, ih, and_assoc,
        Option.toList_some, List.singleton_append, List.isChain_cons_cons, ne_eq]
      constructor
      · rintro ⟨aligned, above, ends, differ, others, chain⟩
        exact ⟨aligned, above, ends, others, differ, chain⟩
      · rintro ⟨aligned, above, ends, others, differ, chain⟩
        exact ⟨aligned, above, ends, differ, others, chain⟩

/-- In the order of addresses it is enough to compare neighbours. -/
theorem byAddress_isChain_iff {registers : List Register} :
    (byAddress registers).IsChain (fun a b => a.address ≠ b.address) ↔
      (registers.map Register.address).Nodup := by
  rw [← ((byAddress_perm registers).map Register.address).nodup_iff]
  constructor
  · intro chain
    have sorted := List.pairwise_map.mpr (byAddress_sorted registers)
    have rising := pairwise_lt_of_isChain_ne sorted ((List.isChain_map Register.address).mpr chain)
    exact rising.imp fun less => less.ne
  · intro distinct
    exact (List.pairwise_map.mp distinct).isChain

/-- Registers pass exactly when each is in range and no two share a name or an address. -/
theorem checkRegisters_eq_ok_iff {base : Nat} {word : Word} {registers : List Register} :
    checkRegisters base word registers = .ok () ↔ Placed base word registers := by
  unfold checkRegisters
  split
  · rename_i name found
    simp only [reduceCtorEq, false_iff]
    intro placed
    rw [firstRepeated?_nil_eq_none_iff.mpr placed.names] at found
    cases found
  · rename_i found
    simp only [bind_eq_ok_iff, require_eq_ok_iff, exists_const, checkAddresses_eq_ok_iff,
      Option.toList_none, List.nil_append, byAddress_isChain_iff, ← Nat.dvd_iff_mod_eq_zero,
      (byAddress_perm registers).mem_iff]
    constructor
    · rintro ⟨aligned, inRange, distinct⟩
      exact ⟨firstRepeated?_nil_eq_none_iff.mp found, aligned, inRange, distinct⟩
    · rintro ⟨_, aligned, inRange, distinct⟩
      exact ⟨aligned, inRange, distinct⟩

/-- Addresses that differ on the grid of words are at least a word apart. -/
theorem Placed.byAddress_apart {base : Nat} {word : Word} {registers : List Register}
    (placed : Placed base word registers) :
    (byAddress registers).Pairwise fun a b => a.address + word.bytes ≤ b.address := by
  have distinct := ((byAddress_perm registers).map Register.address).nodup_iff.mpr placed.addresses
  have differ : (byAddress registers).Pairwise fun a b => a.address ≠ b.address :=
    List.pairwise_map.mp distinct
  refine (differ.and (byAddress_sorted registers)).imp_of_mem fun left right both => ?_
  obtain ⟨m, low⟩ := (placed.inRange _ ((byAddress_perm registers).mem_iff.mp left)).aligned
  obtain ⟨n, high⟩ := (placed.inRange _ ((byAddress_perm registers).mem_iff.mp right)).aligned
  obtain ⟨apart, below⟩ := both
  rw [low, high] at apart below ⊢
  have step : m < n := by
    by_contra reached
    exact apart (le_antisymm below (Nat.mul_le_mul_left _ (not_lt.mp reached)))
  calc word.bytes * m + word.bytes = word.bytes * (m + 1) := (Nat.mul_succ ..).symm
    _ ≤ word.bytes * n := Nat.mul_le_mul_left _ step

end RegisterMap
