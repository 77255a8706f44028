import RegisterMap.Proofs.BindingNumbers
import RegisterMap.Proofs.Bounds

namespace RegisterMap.Bindings

/-- The numbers of a file fit: each constant in the type that it is declared with, each value of a
type of registers in the word. -/
structure NumbersFit (word : Word) (content : String) : Prop where
  constants : ∀ c ∈ outerIn content ++ constantsIn content,
    ∃ type : IntType, type.name = c.2.1 ∧ c.2.2 < 2 ^ type.bits
  values : ∀ v ∈ valuesIn content, v.2 < 2 ^ word.bits

theorem IntType.name_injective : Function.Injective IntType.name := by
  intro a b same
  cases a <;> cases b <;> first | rfl | exact absurd same (by decide)

namespace Constant

/-- A constant fits if its number does in the type that it is declared with. -/
def Fits (c : Constant) : Prop := c.value.value < 2 ^ c.type.bits

theorem fits_iff (c : Constant) :
    c.Fits ↔ ∃ type : IntType, type.name = c.read.2.1 ∧ c.read.2.2 < 2 ^ type.bits := by
  constructor
  · exact fun fits => ⟨c.type, rfl, fits⟩
  · rintro ⟨type, named, below⟩
    rwa [IntType.name_injective named] at below

end Constant

/-- Below the end of a map every number fits in the type of addresses. -/
theorem lt_of_lt_stop {m : AddressMap} {n : Nat} (before : n < m.stop) (small : n < 2 ^ 64) :
    n < 2 ^ (IntType.ofAddresses m).bits := by
  unfold IntType.ofAddresses
  split
  · rename_i low
    exact Nat.lt_of_lt_of_le before low
  · exact small

section

variable {m : AddressMap} (bounded : m.Bounded)
include bounded

theorem base_fits_iff :
    (ofMap m).base.Fits ↔ ¬ (m.registers = [] ∧ m.base = 2 ^ 32) := by
  cases registers : m.registers with
  | nil =>
    have ends : m.stop = m.base := by rw [AddressMap.stop, registers]; rfl
    have below := bounded.base
    simp only [Constant.Fits, ofMap, Literal.value, IntType.ofAddresses, ends, true_and]
    split
    · rename_i low
      have bound : m.base ≤ 2 ^ 32 := low
      simp only [IntType.bits]
      omega
    · rename_i high
      have bound : ¬ m.base ≤ 2 ^ 32 := high
      simp only [IntType.bits]
      omega
  | cons r rest =>
    obtain ⟨above, before, _⟩ := bounded.addresses r (by simp [registers])
    have fits : (ofMap m).base.Fits := lt_of_lt_stop (above.trans_lt before) bounded.base
    simp [fits]

theorem field_constants_fit {r : Register} (inside : r ∈ m.registers) {f : Field}
    (within : f ∈ r.fields) : ∀ c ∈ fieldConstants m.word r.name f, c.Fits := by
  have ends := bounded.inside r inside f within
  have wide := m.word.bits_le
  have total : f.stop = f.lsb + f.width := rfl
  have mask := Field.mask_lt ends wide
  have reset : f.reset < 2 ^ m.word.bits :=
    (bounded.resets r inside f within).trans_le (Nat.pow_le_pow_right (by decide) (by omega))
  have small {n : Nat} (low : n ≤ 64) : n < 2 ^ 32 := low.trans_lt (by decide)
  simp only [fieldConstants, List.forall_mem_cons, Constant.Fits, Literal.value, IntType.bits_ofWord]
  exact ⟨small (by omega), small (by omega), mask, reset, by simp⟩

theorem constants_fit : ∀ c ∈ (ofMap m).constants.flatMap Constants.constants, c.Fits := by
  rw [ofMap, List.flatMap_map]
  refine List.forall_mem_flatMap.mpr fun r inside => ?_
  obtain ⟨_, before, small⟩ := bounded.addresses r inside
  have reset : r.reset < 2 ^ m.word.bits := Register.reset_lt fun f within =>
    ⟨bounded.inside r inside f within, bounded.resets r inside f within⟩
  refine List.forall_mem_append.mpr ⟨?_, List.forall_mem_flatMap.mpr fun f within => ?_⟩
  · simp only [List.forall_mem_cons, Constant.Fits, Literal.value, IntType.bits_ofWord]
    exact ⟨lt_of_lt_stop before small, reset, by simp⟩
  · exact field_constants_fit bounded inside within

theorem values_fit : ∀ v ∈ (ofMap m).bits.flatMap BitsType.values, v.2 < 2 ^ m.word.bits := by
  intro v inside
  obtain ⟨t, typed, inside⟩ := List.mem_flatMap.mp inside
  obtain ⟨r, among, rfl⟩ := List.mem_map.mp typed
  replace among := (List.mem_filter.mp among).1
  obtain ⟨g, within, inside⟩ := List.mem_flatMap.mp inside
  obtain ⟨f, part, rfl⟩ := List.mem_map.mp within
  replace part := r.fieldsByLsb_perm.mem_iff.mp part
  obtain ⟨w, piece, rfl⟩ := List.mem_map.mp inside
  obtain ⟨u, of, rfl⟩ := List.mem_map.mp piece
  have ends := bounded.inside r among f part
  have total : f.stop = f.lsb + f.width := rfl
  exact (bounded.values r among f part u of).trans_le (Nat.pow_le_pow_right (by decide) (by omega))

/-- Only the base of a map can be too large for its type. -/
theorem numbersFit_iff (whole : m.Unbroken) (path : Path) :
    NumbersFit m.word (artifact path m).content ↔ (ofMap m).base.Fits := by
  have outer := outerIn_artifact whole path
  have constants := constantsIn_artifact whole path
  rw [Constant.fits_iff]
  constructor
  · intro fit
    refine fit.constants _ (List.mem_append_left _ ?_)
    rw [outer]
    exact List.mem_singleton_self _
  · intro base
    constructor
    · rw [outer, constants]
      refine List.forall_mem_append.mpr ⟨List.forall_mem_singleton.mpr base, ?_⟩
      refine List.forall_mem_map.mpr fun c inside => ?_
      exact c.fits_iff.mp (constants_fit bounded c inside)
    · rw [valuesIn_artifact whole path]
      exact values_fit bounded

end

/-- The constants and values that the bindings of a map state are exactly those of the map, and
they fit in their types with one exception: a map without registers at `2 ^ 32` ends there, so the
type of its addresses is that of 32 bits, while its base needs one more. -/
theorem compile_numbersFit_iff {config : Config} {d : Description} {m : AddressMap}
    (compiled : compile config d = .ok m) (path : Path) :
    outerIn (artifact path m).content = [(ofMap m).base.read] ∧
    constantsIn (artifact path m).content =
      ((ofMap m).constants.flatMap Constants.constants).map Constant.read ∧
    valuesIn (artifact path m).content = (ofMap m).bits.flatMap BitsType.values ∧
    (NumbersFit m.word (artifact path m).content ↔ ¬ (m.registers = [] ∧ m.base = 2 ^ 32)) := by
  obtain ⟨word, sound, rfl⟩ := compile_eq_ok_iff.mp compiled
  have whole := sound.unbroken
  refine ⟨outerIn_artifact whole path, constantsIn_artifact whole path, valuesIn_artifact whole path,
    ?_⟩
  rw [numbersFit_iff sound.bounded whole path, base_fits_iff sound.bounded]

theorem compile_numbersFit_pwm :
    compile {} pwm = .ok (pwm.mapOf {} .w32) ∧
      NumbersFit .w32 (artifact ⟨"pwm.rs"⟩ (pwm.mapOf {} .w32)).content := by
  have registers : (pwm.mapOf {} .w32).base ≠ 2 ^ 32 := by decide
  obtain ⟨_, _, _, fit⟩ := compile_numbersFit_iff compile_pwm ⟨"pwm.rs"⟩
  exact ⟨compile_pwm, fit.mpr fun both => registers both.2⟩

/-- A map without registers, right behind the first `2 ^ 32` addresses. -/
def high : Description where
  name := "uart"
  base := 0x100000000

theorem high_not_numbersFit :
    compile {} high = .ok (high.mapOf {} .w32) ∧
      outerIn (artifact ⟨"uart.rs"⟩ (high.mapOf {} .w32)).content = [("UART_ADDR", "u32", 2 ^ 32)] ∧
      ¬ NumbersFit .w32 (artifact ⟨"uart.rs"⟩ (high.mapOf {} .w32)).content := by
  have sound : high.Sound {} .w32 := by decide +kernel
  refine ⟨compile_eq_ok_iff.mpr ⟨.w32, sound, rfl⟩, ?_, ?_⟩
  · rw [outerIn_artifact sound.unbroken]
    decide +kernel
  · have unfit := (numbersFit_iff sound.bounded sound.unbroken ⟨"uart.rs"⟩).not
    rw [base_fits_iff sound.bounded, not_not] at unfit
    exact unfit.mpr ⟨by decide +kernel, by decide +kernel⟩

end RegisterMap.Bindings
