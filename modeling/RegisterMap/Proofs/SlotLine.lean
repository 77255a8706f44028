import RegisterMap.Layout
import RegisterMap.Proofs.Addresses

namespace RegisterMap

/-- Registers that each begin some whole words past the end of the one before, or past the
cursor in front of them all. -/
inductive Ascending (word : Word) : Nat → List Register → Prop
  | nil {cursor} : Ascending word cursor []
  | cons {cursor r rest} :
      cursor ≤ r.address → word.bytes ∣ r.address - cursor →
      Ascending word (r.address + word.bytes) rest → Ascending word cursor (r :: rest)

/-- The words from the cursor up to a register, if there are any. -/
def gapSlots (word : Word) (cursor address : Nat) : List Slot :=
  if address = cursor then [] else [.reserved ⟨cursor, (address - cursor) / word.bytes⟩]

/-- The slots from the cursor on: every register, and before it the gap in front. -/
def slotLine (word : Word) (cursor : Nat) : List Register → List Slot
  | [] => []
  | r :: rest =>
    gapSlots word cursor r.address ++ .register r :: slotLine word (r.address + word.bytes) rest

namespace Slot

def register? : Slot → Option Register
  | .register r => some r
  | .reserved _ => none

def reserved? : Slot → Option ReservedSpan
  | .register _ => none
  | .reserved s => some s

@[simp] theorem register?_register (r : Register) : (register r).register? = some r := rfl

@[simp] theorem register?_reserved (s : ReservedSpan) : (reserved s).register? = none := rfl

@[simp] theorem reserved?_register (r : Register) : (register r).reserved? = none := rfl

@[simp] theorem reserved?_reserved (s : ReservedSpan) : (reserved s).reserved? = some s := rfl

end Slot

@[simp] theorem register?_gapSlots (word : Word) (cursor address : Nat) :
    (gapSlots word cursor address).filterMap Slot.register? = [] := by
  unfold gapSlots
  split <;> rfl

/-- A slot line holds its registers and no others, in their order. -/
theorem register?_slotLine (word : Word) (cursor : Nat) (registers : List Register) :
    (slotLine word cursor registers).filterMap Slot.register? = registers := by
  induction registers generalizing cursor with
  | nil => rfl
  | cons r rest ih => simp [slotLine, ih]

theorem Ascending.of_pairwise {word : Word} {cursor : Nat} {registers : List Register}
    (start : word.bytes ∣ cursor)
    (inRange : ∀ r ∈ registers, r.InRange cursor word)
    (apart : registers.Pairwise fun a b => a.address + word.bytes ≤ b.address) :
    Ascending word cursor registers := by
  induction registers generalizing cursor with
  | nil => exact .nil
  | cons r rest ih =>
    obtain ⟨first, others⟩ := List.forall_mem_cons.mp inRange
    obtain ⟨after, ordered⟩ := List.pairwise_cons.mp apart
    refine .cons first.above (Nat.dvd_sub first.aligned start) (ih ?_ ?_ ordered)
    · exact Nat.dvd_add first.aligned (Nat.dvd_refl _)
    · exact fun s inside => ⟨(others s inside).aligned, after s inside, (others s inside).ends⟩

/-- Checked registers, in the order of their addresses, ascend from the base. -/
theorem Placed.ascending {base : Nat} {word : Word} {registers : List Register}
    (placed : Placed base word registers) : Ascending word base (byAddress registers) :=
  .of_pairwise placed.baseAligned
    (fun r inside => placed.inRange r ((byAddress_perm registers).mem_iff.mp inside))
    placed.byAddress_apart

namespace Ascending

variable {word : Word} {cursor : Nat} {registers : List Register}

theorem cursor_le_start (ascending : Ascending word cursor registers) :
    ∀ s ∈ (slotLine word cursor registers).filterMap Slot.reserved?, cursor ≤ s.start := by
  induction ascending with
  | nil => simp [slotLine]
  | @cons cursor r rest below _ _ ih =>
    intro s inside
    simp only [slotLine, List.filterMap_append, List.mem_append] at inside
    rcases inside with gap | later
    · unfold gapSlots at gap
      split at gap
      · cases gap
      · obtain rfl := List.mem_singleton.mp gap
        exact le_rfl
    · have := ih s later
      omega

/-- Between ascending registers the layout finds just the gaps of their slot line. -/
theorem reservedSpans_eq (ascending : Ascending word cursor registers) :
    reservedSpans word cursor registers =
      .ok ((slotLine word cursor registers).filterMap Slot.reserved?) := by
  induction ascending with
  | nil => rfl
  | @cons cursor r rest below _ _ ih =>
    rw [reservedSpans, if_neg (by omega), ih]
    by_cases meets : r.address = cursor <;>
      simp [slotLine, gapSlots, meets, List.filterMap_cons, bind, Except.bind, pure,
        Except.pure]

/-- The merge puts every gap back in front of its register. -/
theorem mergeSlots_eq (ascending : Ascending word cursor registers) :
    mergeSlots ((slotLine word cursor registers).filterMap Slot.reserved?) registers =
      slotLine word cursor registers := by
  induction ascending with
  | nil => rfl
  | @cons cursor r rest below _ tail ih =>
    set later := (slotLine word (r.address + word.bytes) rest).filterMap Slot.reserved?
    have past : ∀ s ∈ later, ¬ s.start < r.address := fun s inside => by
      have := tail.cursor_le_start s inside
      omega
    have untaken : later.takeWhile (fun s => decide (s.start < r.address)) = [] ∧
        later.dropWhile (fun s => decide (s.start < r.address)) = later := by
      cases found : later with
      | nil => exact ⟨rfl, rfl⟩
      | cons s others => simp [past s (found ▸ List.mem_cons_self ..)]
    by_cases meets : r.address = cursor
    · have all : (slotLine word cursor (r :: rest)).filterMap Slot.reserved? = later := by
        simp [slotLine, gapSlots, meets, List.filterMap_cons, later]
      rw [all, mergeSlots, untaken.1, untaken.2, ih, slotLine, gapSlots, if_pos meets]
      rfl
    · have all : (slotLine word cursor (r :: rest)).filterMap Slot.reserved? =
          ⟨cursor, (r.address - cursor) / word.bytes⟩ :: later := by
        simp [slotLine, gapSlots, meets, List.filterMap_cons, later]
      have before : cursor < r.address := by omega
      rw [all, mergeSlots, slotLine, gapSlots, if_neg meets]
      simp [before, untaken.1, untaken.2, ih]

end Ascending

end RegisterMap
