import RegisterMap.Proofs.SlotLine
import Mathlib.Data.List.Nodup

namespace RegisterMap

/-- No slot is lost where spans and registers come together, whatever the spans are. -/
theorem register?_mergeSlots (spans : List ReservedSpan) (registers : List Register) :
    (mergeSlots spans registers).filterMap Slot.register? = registers := by
  have none (spans : List ReservedSpan) :
      (spans.map Slot.reserved).filterMap Slot.register? = [] := by
    simp [List.filterMap_map, Function.comp_def]
  induction registers generalizing spans with
  | nil => exact none spans
  | cons r rest ih =>
    rw [mergeSlots, List.filterMap_append, none, List.nil_append,
      List.filterMap_cons_some (Slot.register?_register r), ih]

theorem reserved?_mergeSlots (spans : List ReservedSpan) (registers : List Register) :
    (mergeSlots spans registers).filterMap Slot.reserved? = spans := by
  have all (spans : List ReservedSpan) :
      (spans.map Slot.reserved).filterMap Slot.reserved? = spans := by
    simp [List.filterMap_map, Function.comp_def]
  induction registers generalizing spans with
  | nil => exact all spans
  | cons r rest ih =>
    rw [mergeSlots, List.filterMap_append, all,
      List.filterMap_cons_none (Slot.reserved?_register r), ih,
      List.takeWhile_append_dropWhile]

section

variable (reserved : Nat → String) (register : Register → List String)

/-- The names of a structure with a member for each slot: a register has its own ones, a reserved
span has its number. -/
def slotNames (index : Nat) : List Slot → List String
  | [] => []
  | .reserved _ :: rest => reserved index :: slotNames (index + 1) rest
  | .register r :: rest => register r ++ slotNames index rest

theorem slotNames_perm (index : Nat) (slots : List Slot) :
    (slotNames reserved register index slots).Perm
      ((slots.filterMap Slot.register?).flatMap register ++
        (List.range' index (slots.filterMap Slot.reserved?).length).map reserved) := by
  induction slots generalizing index with
  | nil => rfl
  | cons slot rest ih =>
    cases slot with
    | register r =>
      rw [slotNames, List.filterMap_cons_some (Slot.register?_register r),
        List.filterMap_cons_none (Slot.reserved?_register r), List.flatMap_cons, List.append_assoc]
      exact (ih index).append_left _
    | reserved s =>
      rw [slotNames, List.filterMap_cons_none (Slot.register?_reserved s),
        List.filterMap_cons_some (Slot.reserved?_reserved s), List.length_cons, List.range'_succ,
        List.map_cons]
      exact ((ih (index + 1)).cons _).trans List.perm_middle.symm

/-- The members of a structure for all slots of a map differ exactly when those for registers do,
and none is called like one of its reserved spans. -/
theorem slotNames_nodup_iff (injective : Function.Injective reserved) (m : AddressMap) :
    (slotNames reserved register 0 m.slots).Nodup ↔
      (m.registers.flatMap register).Nodup ∧
        ∀ r ∈ m.registers, ∀ n ∈ register r, ∀ i < m.reserved.length, n ≠ reserved i := by
  have numbers : ((List.range' 0 m.reserved.length).map reserved).Nodup :=
    List.Nodup.map injective List.nodup_range'
  rw [(slotNames_perm reserved register 0 m.slots).nodup_iff, AddressMap.slots,
    register?_mergeSlots, reserved?_mergeSlots, List.nodup_append]
  constructor
  · rintro ⟨registers, _, apart⟩
    refine ⟨registers, fun r inside n named i counted => apart n ?_ _ ?_⟩
    · exact List.mem_flatMap.mpr ⟨r, inside, named⟩
    · exact List.mem_map_of_mem (List.mem_range'_1.mpr ⟨Nat.zero_le i, by omega⟩)
  · rintro ⟨registers, apart⟩
    refine ⟨registers, numbers, fun n named k counted => ?_⟩
    obtain ⟨r, inside, named⟩ := List.mem_flatMap.mp named
    obtain ⟨i, within, rfl⟩ := List.mem_map.mp counted
    have bounds := List.mem_range'_1.mp within
    exact apart r inside n named i (by omega)

end

end RegisterMap
