import RegisterMap.Proofs.Bounds

namespace RegisterMap

/-- How the fields of a register lie in its word. -/
structure Register.Fitted (word : Word) (r : Register) : Prop where
  nonempty : r.fields ≠ []
  width_pos : ∀ f ∈ r.fields, 0 < f.width
  inside : ∀ f ∈ r.fields, f.stop ≤ word.bits
  reset : ∀ f ∈ r.fields, f.reset < 2 ^ f.width
  apart : r.fields.Pairwise fun f g => Disjoint f.bits g.bits

theorem RegisterEntry.Sound.fitted {case : NameCase} {word : Word} {entry : RegisterEntry}
    (sound : entry.Sound case word.bits) : (entry.built case).Fitted word where
  nonempty none := sound.fields_ne_nil (List.map_eq_nil_iff.mp none)
  width_pos := List.forall_mem_map.mpr fun f part => (sound.fields f part).width_pos
  inside := List.forall_mem_map.mpr fun f part => (sound.fields f part).inside
  reset := List.forall_mem_map.mpr fun f part => (sound.fields f part).reset
  apart := List.pairwise_map.mpr sound.apart

theorem compile_fitted {config : Config} {d : Description} {m : AddressMap}
    (compiled : compile config d = .ok m) : ∀ r ∈ m.registers, r.Fitted m.word := by
  obtain ⟨word, sound, rfl⟩ := compile_eq_ok_iff.mp compiled
  intro r inside
  obtain ⟨entry, member, rfl⟩ := List.mem_map.mp ((byAddress_perm _).mem_iff.mp inside)
  exact (sound.registers entry member).fitted

namespace Field

variable {f g : Field}

/-- The bits of a mask are those of the field. -/
theorem testBit_mask (inside : f.stop ≤ 64) (i : Nat) :
    f.mask.testBit i = true ↔ f.lsb ≤ i ∧ i < f.stop := by
  rw [mask_eq inside le_rfl, ← Nat.shiftLeft_eq, Nat.testBit_shiftLeft, Nat.testBit_two_pow_sub_one,
    Bool.and_eq_true, decide_eq_true_eq, decide_eq_true_eq, stop]
  omega

theorem mask_and_mask (first : f.stop ≤ 64) (second : g.stop ≤ 64)
    (apart : Disjoint f.bits g.bits) : f.mask &&& g.mask = 0 := by
  refine Nat.eq_of_testBit_eq fun i => ?_
  rw [Nat.zero_testBit, Nat.testBit_and, ← Bool.not_eq_true, Bool.and_eq_true,
    testBit_mask first, testBit_mask second]
  rintro ⟨left, right⟩
  exact Finset.disjoint_left.mp apart (Finset.mem_Ico.mpr left) (Finset.mem_Ico.mpr right)

/-- A reset that fits its field sets bits of the field alone. -/
theorem mem_bits_of_testBit (small : f.reset < 2 ^ f.width) {i : Nat}
    (set : (f.reset <<< f.lsb).testBit i = true) : i ∈ f.bits := by
  rw [Nat.testBit_shiftLeft, Bool.and_eq_true, decide_eq_true_eq] at set
  obtain ⟨low, set⟩ := set
  have high : i - f.lsb < f.width := by
    by_contra above
    have beyond : f.reset < 2 ^ (i - f.lsb) :=
      small.trans_le (Nat.pow_le_pow_right (by decide) (by omega))
    rw [Nat.testBit_eq_false_of_lt beyond] at set
    cases set
  exact Finset.mem_Ico.mpr ⟨low, by rw [stop]; omega⟩

end Field

theorem Access.canRead_iff {access : Access} : access.canRead = true ↔ access ≠ .writeOnly := by
  cases access <;> decide

theorem Access.canWrite_iff {access : Access} : access.canWrite = true ↔ access ≠ .readOnly := by
  cases access <;> decide

namespace Register

variable {word : Word} {r : Register}

theorem all_access_iff {access : Access} :
    r.fields.all (·.access == access) = true ↔ ∀ f ∈ r.fields, f.access = access := by simp

theorem access_eq_readOnly_iff : r.access = .readOnly ↔ ∀ f ∈ r.fields, f.access = .readOnly := by
  rw [← all_access_iff, access]
  split
  · simp [*]
  · split <;> simp [*]

theorem canWrite_iff : r.access.canWrite = true ↔ ∃ f ∈ r.fields, f.access.canWrite = true := by
  simp only [Access.canWrite_iff, ne_eq, access_eq_readOnly_iff, not_forall, exists_prop]

theorem testBit_reset (r : Register) (i : Nat) :
    r.reset.testBit i = r.fields.any fun f => (f.reset <<< f.lsb).testBit i := by
  have fold (fields : List Field) (start : Nat) :
      (fields.foldl (fun word f => word ||| (f.reset <<< f.lsb)) start).testBit i =
        (start.testBit i || fields.any fun f => (f.reset <<< f.lsb).testBit i) := by
    induction fields generalizing start with
    | nil => simp
    | cons f rest ih => rw [List.foldl_cons, ih, Nat.testBit_or, List.any_cons, Bool.or_assoc]
  rw [reset, fold, Nat.zero_testBit, Bool.false_or]

/-- The word after a reset, put together in 64 bits. -/
def reset64 (r : Register) : UInt64 :=
  r.fields.foldl (fun word f => word ||| (UInt64.ofNat f.reset <<< UInt64.ofNat f.lsb)) 0

/-- The word of a register gives back what its fields say. -/
structure Faithful (word : Word) (r : Register) : Prop where
  field_reset : ∀ f ∈ r.fields, (r.reset &&& f.mask) >>> f.lsb = f.reset
  outside : ∀ i, (∀ f ∈ r.fields, f.mask.testBit i = false) → r.reset.testBit i = false
  reset_lt : r.reset < 2 ^ word.bits
  /-- No bit is lost in words of 64 bits. -/
  reset64 : r.reset64.toNat = r.reset
  mask_bits : ∀ f ∈ r.fields, ∀ i,
    f.mask.testBit i = true ↔ f.lsb ≤ i ∧ i < f.lsb + f.width
  masks_apart : r.fields.Pairwise fun f g => f.mask &&& g.mask = 0
  canRead : r.access.canRead = true ↔ ∃ f ∈ r.fields, f.access.canRead = true
  canWrite : r.access.canWrite = true ↔ ∃ f ∈ r.fields, f.access.canWrite = true

namespace Fitted

variable (fitted : r.Fitted word)
include fitted

theorem inside64 {f : Field} (within : f ∈ r.fields) : f.stop ≤ 64 :=
  (fitted.inside f within).trans word.bits_le

/-- A bit that two fields of a register have in common makes them one field. -/
theorem eq_of_mem_bits {f g : Field} (first : f ∈ r.fields) (second : g ∈ r.fields) {i : Nat}
    (left : i ∈ f.bits) (right : i ∈ g.bits) : f = g := by
  by_contra differ
  have symmetric : Std.Symm fun f g : Field => Disjoint f.bits g.bits :=
    ⟨fun _ _ disjoint => disjoint.symm⟩
  have apart := fitted.apart.forall first second differ
  exact Finset.disjoint_left.mp apart left right

theorem field_reset {f : Field} (within : f ∈ r.fields) :
    (r.reset &&& f.mask) >>> f.lsb = f.reset := by
  refine Nat.eq_of_testBit_eq fun i => ?_
  rw [Nat.testBit_shiftRight, Nat.testBit_and, testBit_reset, Bool.eq_iff_iff, Bool.and_eq_true,
    List.any_eq_true, Field.testBit_mask (fitted.inside64 within)]
  have own : (f.reset <<< f.lsb).testBit (f.lsb + i) = f.reset.testBit i := by
    simp [Nat.testBit_shiftLeft]
  constructor
  · rintro ⟨⟨g, other, set⟩, held⟩
    -- The bit is one of this field, so that no other field can have set it.
    have meets := Field.mem_bits_of_testBit (fitted.reset g other) set
    obtain rfl := fitted.eq_of_mem_bits within other (Finset.mem_Ico.mpr held) meets
    rwa [own] at set
  · intro set
    rw [← own] at set
    have held := Field.mem_bits_of_testBit (fitted.reset f within) set
    exact ⟨⟨f, within, set⟩, Finset.mem_Ico.mp held⟩

theorem testBit_reset_outside {i : Nat} (outside : ∀ f ∈ r.fields, f.mask.testBit i = false) :
    r.reset.testBit i = false := by
  rw [testBit_reset, List.any_eq_false]
  intro f within set
  have held := Field.mem_bits_of_testBit (fitted.reset f within) set
  have covered := (Field.testBit_mask (fitted.inside64 within) i).mpr (Finset.mem_Ico.mp held)
  cases covered.symm.trans (outside f within)

theorem reset64_eq : r.reset64.toNat = r.reset := by
  have moved : ∀ f ∈ r.fields,
      (UInt64.ofNat f.reset <<< UInt64.ofNat f.lsb).toNat = f.reset <<< f.lsb := by
    intro f within
    have stop : f.lsb + f.width ≤ 64 := fitted.inside64 within
    have positive := fitted.width_pos f within
    have small := shiftLeft_lt (fitted.reset f within) stop
    have whole : f.reset < 2 ^ 64 :=
      (fitted.reset f within).trans_le (Nat.pow_le_pow_right (by decide) (by omega))
    have place : f.lsb < 2 ^ 64 := by omega
    rw [UInt64.toNat_shiftLeft, UInt64.toNat_ofNat_of_lt' whole, UInt64.toNat_ofNat_of_lt' place,
      Nat.mod_eq_of_lt (by omega : f.lsb < 64), Nat.mod_eq_of_lt small]
  have fold (fields : List Field) (start : UInt64) (among : ∀ f ∈ fields, f ∈ r.fields) :
      (fields.foldl (fun word f => word ||| (UInt64.ofNat f.reset <<< UInt64.ofNat f.lsb))
          start).toNat =
        fields.foldl (fun word f => word ||| (f.reset <<< f.lsb)) start.toNat := by
    induction fields generalizing start with
    | nil => rfl
    | cons f rest ih =>
      obtain ⟨own, others⟩ := List.forall_mem_cons.mp among
      rw [List.foldl_cons, List.foldl_cons, ih _ others, UInt64.toNat_or, moved f own]
  exact fold r.fields 0 fun _ inside => inside

/-- A register has a field, which cannot be read only and written only at once. -/
theorem access_eq_writeOnly_iff :
    r.access = .writeOnly ↔ ∀ f ∈ r.fields, f.access = .writeOnly := by
  rw [access]
  split
  · rename_i reads
    obtain ⟨f, within⟩ := List.exists_mem_of_ne_nil _ fitted.nonempty
    simp only [reduceCtorEq, false_iff]
    intro writes
    cases (all_access_iff.mp reads f within).symm.trans (writes f within)
  · rw [← all_access_iff]
    split <;> simp [*]

theorem canRead_iff : r.access.canRead = true ↔ ∃ f ∈ r.fields, f.access.canRead = true := by
  simp only [Access.canRead_iff, ne_eq, fitted.access_eq_writeOnly_iff, not_forall, exists_prop]

theorem faithful : r.Faithful word where
  field_reset _ within := fitted.field_reset within
  outside _ none := fitted.testBit_reset_outside none
  reset_lt := reset_lt fun f within => ⟨fitted.inside f within, fitted.reset f within⟩
  reset64 := fitted.reset64_eq
  mask_bits _ within := Field.testBit_mask (fitted.inside64 within)
  masks_apart := fitted.apart.imp_of_mem fun first second =>
    Field.mask_and_mask (fitted.inside64 first) (fitted.inside64 second)
  canRead := fitted.canRead_iff
  canWrite := canWrite_iff

end Fitted

end Register

/-- In every register of a compiled map, reset and masks keep the fields apart and lose none. -/
theorem compile_faithful {config : Config} {d : Description} {m : AddressMap}
    (compiled : compile config d = .ok m) : ∀ r ∈ m.registers, r.Faithful m.word :=
  fun r inside => (compile_fitted compiled r inside).faithful

/-- Fields at both ends of a word, the upper one first, with gaps around the lower one. -/
def latch : RegisterEntry where
  name := "LATCH"
  address := 8
  fields :=
    [{ name := "HIGH", width := 4, lsb := 60, access := .readOnly, reset := 9 },
      { name := "LOW", width := 3, lsb := 1, access := .writeOnly, reset := 5 }]

/-- A map of long words, one of which is a single field. -/
def counter : Description where
  name := "counter"
  registers :=
    [{ name := "COUNT", address := 0,
       fields := [{ name := "ALL", width := 64, reset := 0xffff_ffff_ffff_ffff }] },
      latch]

theorem compile_counter :
    compile { dataWidth := 64 } counter = .ok (counter.mapOf { dataWidth := 64 } .w64) :=
  compile_eq_ok_iff.mpr ⟨.w64, by decide +kernel, rfl⟩

theorem latch_mem :
    latch.built .asWritten ∈ (counter.mapOf { dataWidth := 64 } .w64).registers :=
  (byAddress_perm _).mem_iff.mpr (List.mem_cons_of_mem _ (List.mem_singleton_self _))

theorem latch_faithful : compile { dataWidth := 64 } counter =
      .ok (counter.mapOf { dataWidth := 64 } .w64) ∧
    latch.built .asWritten ∈ (counter.mapOf { dataWidth := 64 } .w64).registers ∧
    (latch.built .asWritten).Faithful .w64 ∧ (latch.built .asWritten).reset = 0x9000_0000_0000_000a :=
  ⟨compile_counter, latch_mem, compile_faithful compile_counter _ latch_mem, by decide⟩

end RegisterMap
