import RegisterMap.Proofs.Compiled

namespace RegisterMap

namespace Slot

/-- The first address past a slot: one word for a register, all its words for a span. -/
def stop (word : Word) : Slot → Nat
  | .register r => r.address + word.bytes
  | .reserved s => s.stop word

/-- Whether a slot holds the whole word at an address. -/
def holds (word : Word) (address : Nat) (s : Slot) : Bool :=
  decide (s.address ≤ address ∧ address + word.bytes ≤ s.stop word)

end Slot

/-- A walk over slots with a cursor: each slot begins at the cursor and moves it to its own end. -/
inductive Tiles (word : Word) : Nat → List Slot → Nat → Prop
  | nil {cursor} : Tiles word cursor [] cursor
  | cons (slot) {rest stop} :
      Tiles word (slot.stop word) rest stop → Tiles word slot.address (slot :: rest) stop

namespace Tiles

variable {word : Word} {start middle stop : Nat} {slots others : List Slot}

theorem append (first : Tiles word start slots middle) (second : Tiles word middle others stop) :
    Tiles word start (slots ++ others) stop := by
  induction first with
  | nil => exact second
  | cons slot _ ih => exact .cons slot (ih second)

end Tiles

/-- A slot takes at least one word. -/
def Slot.Proper : Slot → Prop
  | .register _ => True
  | .reserved s => 1 ≤ s.words

namespace Slot

theorem stop_eq (word : Word) (s : Slot) :
    ∃ words, s.stop word = s.address + words * word.bytes ∧ (s.Proper → 1 ≤ words) := by
  cases s with
  | register r => exact ⟨1, by simp [stop, address], fun _ => le_rfl⟩
  | reserved s => exact ⟨s.words, rfl, id⟩

end Slot

namespace Tiles

variable {word : Word} {start stop : Nat} {slots : List Slot}

/-- Slots of a walk stand in strictly ascending order behind its start. -/
theorem ascending (tiles : Tiles word start slots stop) (proper : ∀ s ∈ slots, s.Proper) :
    slots.Pairwise (fun a b => a.address < b.address) ∧ ∀ s ∈ slots, start ≤ s.address := by
  induction tiles with
  | nil => exact ⟨.nil, by simp⟩
  | @cons slot rest stop _ ih =>
    obtain ⟨first, others⟩ := List.forall_mem_cons.mp proper
    obtain ⟨ordered, behind⟩ := ih others
    obtain ⟨words, ends, some⟩ := slot.stop_eq word
    have wide := Nat.mul_le_mul (some first) word.bytes_pos
    refine ⟨List.pairwise_cons.mpr ⟨fun s inside => ?_, ordered⟩,
      List.forall_mem_cons.mpr ⟨le_rfl, fun s inside => ?_⟩⟩
    · have := behind s inside
      omega
    · have := behind s inside
      omega

theorem start_le_stop (tiles : Tiles word start slots stop) : start ≤ stop := by
  induction tiles with
  | nil => exact le_rfl
  | cons slot _ ih =>
    obtain ⟨words, ends, _⟩ := slot.stop_eq word
    omega

theorem slot_stop_le (tiles : Tiles word start slots stop) : ∀ s ∈ slots, s.stop word ≤ stop := by
  induction tiles with
  | nil => exact List.forall_mem_nil _
  | cons slot rest ih => exact List.forall_mem_cons.mpr ⟨rest.start_le_stop, ih⟩

/-- No slot of a walk holds a word in front of it. -/
theorem countP_holds_eq_zero (tiles : Tiles word start slots stop)
    (proper : ∀ s ∈ slots, s.Proper) {address : Nat} (before : address < start) :
    slots.countP (Slot.holds word address) = 0 := by
  refine List.countP_eq_zero.mpr fun s inside => ?_
  have := (tiles.ascending proper).2 s inside
  simp only [Slot.holds, decide_eq_true_eq]
  omega

/-- Every word between the ends of a walk is held by one slot and by no other. -/
theorem countP_holds_eq_one (tiles : Tiles word start slots stop)
    (proper : ∀ s ∈ slots, s.Proper) {index : Nat} (within : start + index * word.bytes < stop) :
    slots.countP (Slot.holds word (start + index * word.bytes)) = 1 := by
  induction tiles generalizing index with
  | nil => omega
  | @cons slot rest stop tail ih =>
    obtain ⟨first, others⟩ := List.forall_mem_cons.mp proper
    obtain ⟨words, ends, some⟩ := slot.stop_eq word
    have wide := some first
    by_cases own : index < words
    · have below : (index + 1) * word.bytes ≤ words * word.bytes := Nat.mul_le_mul_right _ own
      have room := word.bytes_pos
      rw [Nat.succ_mul] at below
      have inside : slot.holds word (slot.address + index * word.bytes) = true := by
        simp only [Slot.holds, decide_eq_true_eq]
        omega
      rw [List.countP_cons_of_pos inside, tail.countP_holds_eq_zero others (by omega)]
    · obtain ⟨later, rfl⟩ := Nat.exists_eq_add_of_le (not_lt.mp own)
      have past : slot.address + (words + later) * word.bytes =
          slot.stop word + later * word.bytes := by
        rw [ends, Nat.add_mul, Nat.add_assoc]
      rw [past] at within ⊢
      have outside : ¬ slot.holds word (slot.stop word + later * word.bytes) = true := by
        have room := word.bytes_pos
        simp only [Slot.holds, decide_eq_true_eq]
        omega
      rw [List.countP_cons_of_neg outside]
      exact ih others within

end Tiles

/-- The end of the last register, or the cursor where there is none. -/
def lineStop (word : Word) (cursor : Nat) (registers : List Register) : Nat :=
  match registers.getLast? with
  | some r => r.address + word.bytes
  | none => cursor

theorem lineStop_cons (word : Word) (cursor : Nat) (r : Register) (rest : List Register) :
    lineStop word cursor (r :: rest) = lineStop word (r.address + word.bytes) rest := by
  cases rest with
  | nil => rfl
  | cons s rest =>
    simp only [lineStop, List.getLast?_cons_cons]
    rw [List.getLast?_eq_some_getLast (List.cons_ne_nil s rest)]

section

variable {word : Word} {cursor address : Nat}

theorem gapSlots_tiles (below : cursor ≤ address) (whole : word.bytes ∣ address - cursor) :
    Tiles word cursor (gapSlots word cursor address) address := by
  unfold gapSlots
  split
  · rename_i meets
    subst meets
    exact .nil
  · have ends : (Slot.reserved ⟨cursor, (address - cursor) / word.bytes⟩).stop word = address := by
      simp only [Slot.stop, ReservedSpan.stop, Nat.div_mul_cancel whole]
      omega
    refine .cons (.reserved ⟨cursor, (address - cursor) / word.bytes⟩) ?_
    rw [ends]
    exact .nil

theorem gapSlots_proper (below : cursor ≤ address) (whole : word.bytes ∣ address - cursor) :
    ∀ s ∈ gapSlots word cursor address, s.Proper := by
  unfold gapSlots
  split
  · simp
  · rename_i apart
    intro s inside
    obtain rfl := List.mem_singleton.mp inside
    exact Nat.div_pos (Nat.le_of_dvd (by omega) whole) word.bytes_pos

end

namespace Ascending

variable {word : Word} {cursor : Nat} {registers : List Register}

/-- A slot line leaves nothing out: one slot ends where the next one begins. -/
theorem tiles (ascending : Ascending word cursor registers) :
    Tiles word cursor (slotLine word cursor registers) (lineStop word cursor registers) := by
  induction ascending with
  | nil => exact .nil
  | @cons cursor r rest below whole _ ih =>
    rw [slotLine, lineStop_cons]
    exact (gapSlots_tiles below whole).append (.cons (.register r) ih)

theorem proper (ascending : Ascending word cursor registers) :
    ∀ s ∈ slotLine word cursor registers, s.Proper := by
  induction ascending with
  | nil => simp [slotLine]
  | @cons cursor r rest below whole _ ih =>
    intro s inside
    simp only [slotLine, List.mem_append, List.mem_cons] at inside
    rcases inside with gap | rfl | later
    · exact gapSlots_proper below whole s gap
    · trivial
    · exact ih s later

end Ascending

/-- Behind a gap comes its register, so that gaps never meet. -/
theorem slotLine_isChain (word : Word) (cursor : Nat) (registers : List Register) :
    (slotLine word cursor registers).IsChain fun a b => a.reserved? = none ∨ b.reserved? = none := by
  induction registers generalizing cursor with
  | nil => exact .nil
  | cons r rest ih =>
    have tail : (Slot.register r :: slotLine word (r.address + word.bytes) rest).IsChain
        fun a b => a.reserved? = none ∨ b.reserved? = none :=
      List.isChain_cons.mpr ⟨fun _ _ => Or.inl rfl, ih _⟩
    rw [slotLine, gapSlots]
    split
    · exact tail
    · exact List.isChain_cons_cons.mpr ⟨Or.inr rfl, tail⟩

theorem slotLine_getLast? (word : Word) (cursor : Nat) (registers : List Register) :
    ∀ s ∈ (slotLine word cursor registers).getLast?, s.reserved? = none := by
  induction registers generalizing cursor with
  | nil => simp [slotLine]
  | cons r rest ih =>
    intro s last
    rw [slotLine, List.getLast?_append_of_ne_nil _ (List.cons_ne_nil _ _)] at last
    cases rest with
    | nil =>
      cases last
      rfl
    | cons t rest =>
      refine ih (r.address + word.bytes) s ?_
      rwa [List.getLast?_cons_of_ne_nil (by simp [slotLine])] at last

/-- How registers and reserved spans fill a map from its base to its end. -/
structure AddressMap.Tiled (m : AddressMap) : Prop where
  /-- A cursor that starts at the base meets every slot and stops at the end. -/
  walk : Tiles m.word m.base m.slots m.stop
  covered : ∀ index, m.base + index * m.word.bytes < m.stop →
    m.slots.countP (Slot.holds m.word (m.base + index * m.word.bytes)) = 1
  words_pos : ∀ s ∈ m.reserved, 1 ≤ s.words
  apart : m.slots.IsChain fun a b => a.reserved? = none ∨ b.reserved? = none
  last : ∀ s ∈ m.slots.getLast?, s.reserved? = none
  registers : m.slots.filterMap Slot.register? = m.registers
  reserved : m.slots.filterMap Slot.reserved? = m.reserved
  ordered : m.slots.Pairwise fun a b => a.address < b.address
  empty : m.registers = [] → m.reserved = [] ∧ m.stop = m.base

namespace Description.Sound

variable {config : Config} {word : Word} {d : Description}

/-- The slots of a compiled map are the slot line of its registers. -/
theorem slots_eq (sound : d.Sound config word) :
    (d.mapOf config word).slots =
      slotLine word (config.baseOf d) (byAddress (d.built config.nameCase)) :=
  sound.placed.ascending.mergeSlots_eq

theorem tiles (sound : d.Sound config word) :
    Tiles word (config.baseOf d) (d.mapOf config word).slots (d.mapOf config word).stop :=
  sound.slots_eq ▸ sound.placed.ascending.tiles

theorem base_le_address (sound : d.Sound config word) :
    ∀ s ∈ (d.mapOf config word).slots, config.baseOf d ≤ s.address :=
  (sound.tiles.ascending (sound.slots_eq ▸ sound.placed.ascending.proper)).2

theorem span_stop_le (sound : d.Sound config word) :
    ∀ s ∈ (d.mapOf config word).reserved, s.stop word ≤ (d.mapOf config word).stop := by
  intro s inside
  obtain ⟨slot, among, same⟩ := List.mem_filterMap.mp inside
  rw [← sound.slots_eq] at among
  cases slot with
  | register r => cases same
  | reserved t =>
    cases same
    exact sound.tiles.slot_stop_le _ among

end Description.Sound

/-- Where a map and its reserved spans end is still an address. -/
structure AddressMap.Ends (m : AddressMap) : Prop where
  stop : m.stop < UInt64.size
  reserved : ∀ s ∈ m.reserved, s.start < UInt64.size ∧ s.words < UInt64.size

theorem Description.Sound.ends {config : Config} {word : Word} {d : Description}
    (sound : d.Sound config word) : (d.mapOf config word).Ends := by
  have stop : (d.mapOf config word).stop < UInt64.size := by
    rw [AddressMap.stop]
    split
    · rename_i r last
      have among := (byAddress_perm _).mem_iff.mp (List.mem_of_getLast? last)
      exact (sound.placed.inRange r among).ends
    · exact UInt64.toNat_lt _
  refine ⟨stop, fun s inside => ?_⟩
  have before := sound.span_stop_le s inside
  rw [ReservedSpan.stop] at before
  have words := Nat.le_mul_of_pos_right s.words word.bytes_pos
  constructor <;> omega

/-- Registers and reserved spans tile the addresses of every compiled map. -/
theorem compile_tiled {config : Config} {d : Description} {m : AddressMap}
    (compiled : compile config d = .ok m) : m.Tiled := by
  obtain ⟨word, sound, rfl⟩ := compile_eq_ok_iff.mp compiled
  have ascending := sound.placed.ascending
  have tiles : Tiles word (config.baseOf d) (d.mapOf config word).slots
      (d.mapOf config word).stop := sound.slots_eq ▸ ascending.tiles
  have proper : ∀ s ∈ (d.mapOf config word).slots, s.Proper := sound.slots_eq ▸ ascending.proper
  have reserved : (d.mapOf config word).slots.filterMap Slot.reserved? =
      (d.mapOf config word).reserved := by
    rw [sound.slots_eq]
    rfl
  refine ⟨tiles, fun index => tiles.countP_holds_eq_one proper, ?_, ?_, ?_, ?_, reserved,
    (tiles.ascending proper).1, ?_⟩
  · intro s inside
    rw [← reserved] at inside
    obtain ⟨slot, within, found⟩ := List.mem_filterMap.mp inside
    cases slot with
    | register r => cases found
    | reserved t =>
      cases found
      exact proper _ within
  · rw [sound.slots_eq]
    exact slotLine_isChain ..
  · rw [sound.slots_eq]
    exact slotLine_getLast? _ _ _
  · rw [sound.slots_eq]
    exact register?_slotLine ..
  · intro none
    have noRegisters : byAddress (d.built config.nameCase) = [] := none
    simp [Description.mapOf, AddressMap.stop, noRegisters, slotLine]

theorem compile_tiled_pwm :
    compile {} pwm = .ok (pwm.mapOf {} .w32) ∧ (pwm.mapOf {} .w32).Tiled :=
  ⟨compile_pwm, compile_tiled compile_pwm⟩

end RegisterMap
