import RegisterMap.Proofs.RegisterWord

namespace RegisterMap

/-- What a word holds in the bits of a field. -/
def Field.extract (f : Field) (w : Nat) : Nat := (w >>> f.lsb) &&& (f.mask >>> f.lsb)

/-- A word in which a number has taken the place of what a field held. -/
def Field.insert (f : Field) (n w : Nat) : Nat := w.ldiff f.mask ||| n <<< f.lsb

theorem ldiff_le (w mask : Nat) : w.ldiff mask ≤ w := by
  refine Nat.le_of_testBit fun i set => ?_
  rw [Nat.testBit_ldiff, Bool.and_eq_true] at set
  exact set.1

namespace Field

section

variable {f : Field} (inside : f.stop ≤ 64)
include inside

/-- A mask moved down has all bits of a width. -/
theorem moved_mask : f.mask >>> f.lsb = 2 ^ f.width - 1 := by
  rw [mask_eq inside le_rfl, Nat.shiftRight_eq_div_pow, Nat.mul_div_cancel _ (Nat.two_pow_pos _)]

theorem moved_mask_shiftLeft : f.mask >>> f.lsb <<< f.lsb = f.mask := by
  rw [Nat.shiftLeft_eq, mask_shiftRight inside le_rfl]

theorem testBit_mask_eq (i : Nat) : f.mask.testBit i = decide (i ∈ f.bits) := by
  rw [Bool.eq_iff_iff, testBit_mask inside, decide_eq_true_eq]
  exact Finset.mem_Ico.symm

theorem extract_eq_mod (w : Nat) : f.extract w = (w >>> f.lsb) % 2 ^ f.width := by
  rw [extract, moved_mask inside, Nat.and_two_pow_sub_one_eq_mod]

theorem extract_lt (w : Nat) : f.extract w < 2 ^ f.width := by
  rw [extract_eq_mod inside]
  exact Nat.mod_lt _ (Nat.two_pow_pos _)

theorem testBit_extract (w i : Nat) :
    (f.extract w).testBit i = (decide (i < f.width) && w.testBit (f.lsb + i)) := by
  rw [extract_eq_mod inside, Nat.testBit_mod_two_pow, Nat.testBit_shiftRight]

/-- A number that fits its field shows in the bits of the field, and nowhere else. -/
theorem testBit_insert {n : Nat} (small : n < 2 ^ f.width) (w i : Nat) :
    (f.insert n w).testBit i = if i ∈ f.bits then n.testBit (i - f.lsb) else w.testBit i := by
  rw [insert, Nat.testBit_or, Nat.testBit_ldiff, testBit_mask_eq inside, Nat.testBit_shiftLeft]
  split
  · rename_i held
    have low : f.lsb ≤ i := (Finset.mem_Ico.mp held).1
    simp [held, low]
  · rename_i free
    have silent : (decide (f.lsb ≤ i) && n.testBit (i - f.lsb)) = false := by
      rw [Bool.and_eq_false_iff, decide_eq_false_iff_not, or_iff_not_imp_left, not_not]
      intro low
      have beyond : f.width ≤ i - f.lsb := by
        have high : ¬ i < f.lsb + f.width := fun below => free (Finset.mem_Ico.mpr ⟨low, below⟩)
        omega
      exact Nat.testBit_lt_two_pow (small.trans_le (Nat.pow_le_pow_right (by decide) beyond))
    simp [free, silent]

/-- A field gives back what is put into it. -/
theorem extract_insert {n : Nat} (small : n < 2 ^ f.width) (w : Nat) :
    f.extract (f.insert n w) = n := by
  refine Nat.eq_of_testBit_eq fun i => ?_
  rw [testBit_extract inside, testBit_insert inside small]
  by_cases within : i < f.width
  · have held : f.lsb + i ∈ f.bits := Finset.mem_Ico.mpr ⟨Nat.le_add_right .., by rw [stop]; omega⟩
    simp [within, held]
  · have beyond : n.testBit i = false :=
      Nat.testBit_lt_two_pow (small.trans_le (Nat.pow_le_pow_right (by decide) (not_lt.mp within)))
    simp [within, beyond]

/-- What a field holds can be put back into it. -/
theorem insert_extract (w : Nat) : f.insert (f.extract w) w = w := by
  refine Nat.eq_of_testBit_eq fun i => ?_
  rw [testBit_insert inside (extract_lt inside w), testBit_extract inside]
  split
  · rename_i held
    obtain ⟨low, high⟩ := Finset.mem_Ico.mp held
    rw [stop] at high
    have within : i - f.lsb < f.width := by omega
    simp [within, Nat.add_sub_cancel' low]
  · rfl

theorem insert_insert {n k : Nat} (small : n < 2 ^ f.width) (first : k < 2 ^ f.width) (w : Nat) :
    f.insert n (f.insert k w) = f.insert n w := by
  refine Nat.eq_of_testBit_eq fun i => ?_
  rw [testBit_insert inside small, testBit_insert inside small, testBit_insert inside first]
  split <;> rfl

end

/-- A word keeps its length. -/
theorem insert_lt {f : Field} {bits n w : Nat} (inside : f.stop ≤ bits) (small : n < 2 ^ f.width)
    (short : w < 2 ^ bits) : f.insert n w < 2 ^ bits :=
  Nat.or_lt_two_pow ((ldiff_le w f.mask).trans_lt short) (shiftLeft_lt small inside)

end Field

namespace Register.Fitted

variable {word : Word} {r : Register} (fitted : r.Fitted word) {f : Field} (within : f ∈ r.fields)
include fitted within

/-- What is put into a field does not show in another one. -/
theorem extract_insert_of_ne {g : Field} (other : g ∈ r.fields) (differ : g ≠ f) {n : Nat}
    (small : n < 2 ^ f.width) (w : Nat) : g.extract (f.insert n w) = g.extract w := by
  have inside := fitted.inside64 within
  have beside := fitted.inside64 other
  refine Nat.eq_of_testBit_eq fun i => ?_
  rw [Field.testBit_extract beside, Field.testBit_extract beside, Field.testBit_insert inside small]
  by_cases own : i < g.width
  · have held : g.lsb + i ∈ g.bits :=
      Finset.mem_Ico.mpr ⟨Nat.le_add_right .., by rw [Field.stop]; omega⟩
    have free : g.lsb + i ∉ f.bits := fun taken =>
      differ (fitted.eq_of_mem_bits other within held taken)
    rw [if_neg free]
  · simp [own]

theorem extract_reset : f.extract r.reset = f.reset := by
  rw [Field.extract, ← Nat.shiftRight_and_distrib, fitted.field_reset within]

end Register.Fitted

end RegisterMap
