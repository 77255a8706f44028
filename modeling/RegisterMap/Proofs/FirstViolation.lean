import RegisterMap.Proofs.Acceptance
import RegisterMap.Proofs.EntryRules

namespace RegisterMap

/-- What the place of a register has to keep, by itself and then towards registers that come before
it in the order of addresses. -/
def Register.placeRules (base bytes : Nat) (before : List Register) (r : Register) : List Rule :=
  [⟨bytes ∣ r.address, .misalignedAddress r.name r.address bytes⟩,
    ⟨base ≤ r.address, .addressBelowBase r.name r.address base⟩,
    ⟨r.address + bytes < 2 ^ 64, .addressOutOfRange r.name r.address⟩] ++
  before.map fun b => ⟨b.address ≠ r.address, .duplicateAddress r.address b.name r.name⟩

/-- What registers have to keep towards the base and towards each other: their names as they are
declared, then their places from the lowest address upwards. -/
def registerRules (base bytes : Nat) (registers : List Register) : List Rule :=
  inTurn (fun before name => [⟨name ∉ before, .duplicateRegisterName name⟩]) []
    (registers.map Register.name) ++
  (⟨bytes ∣ base, .misalignedBase base bytes⟩ ::
    inTurn (Register.placeRules base bytes) [] (inOrderOf Register.address registers))

/-- Registers in ascending order that come after others of different addresses: of those the nearest
one alone can have the address of the next register. -/
theorem checkAddresses_obeys {base : Nat} {word : Word} {before registers : List Register}
    (sorted : registers.Pairwise fun a b => a.address ≤ b.address)
    (behind : ∀ b ∈ before, ∀ r ∈ registers, b.address ≤ r.address)
    (apart : before.Pairwise fun a b => b.address < a.address) :
    Obeys (checkAddresses base word before.head? registers)
      (inTurn (Register.placeRules base word.bytes) before registers) () := by
  induction registers generalizing before with
  | nil => exact .pure ()
  | cons r rest ih =>
    obtain ⟨least, ordered⟩ := List.pairwise_cons.mp sorted
    have next (differ : ∀ b ∈ before, b.address < r.address) :
        Obeys (checkAddresses base word (some r) rest)
          (inTurn (Register.placeRules base word.bytes) (r :: before) rest) () := by
      refine ih ordered (fun b inside s later => ?_) (List.pairwise_cons.mpr ⟨differ, apart⟩)
      rcases List.mem_cons.mp inside with rfl | inside
      · exact least s later
      · exact behind b inside s (List.mem_cons_of_mem _ later)
    rw [inTurn, Register.placeRules, List.append_assoc, checkAddresses]
    refine .guard Nat.dvd_iff_mod_eq_zero.symm fun _ => .guard Iff.rfl fun _ => ?_
    refine .guard Iff.rfl fun _ => ?_
    -- The check compares with the last register only, its rules with all registers before.
    cases before with
    | nil => exact next fun b none => absurd none List.not_mem_nil
    | cons b others =>
      have low := behind b (List.mem_cons_self ..) r (List.mem_cons_self ..)
      have lower := (List.pairwise_cons.mp apart).1
      refine .guard Iff.rfl fun differs => (next ?_).keeps fun rule inside => ?_
      · refine List.forall_mem_cons.mpr ⟨lt_of_le_of_ne low differs, fun c inside => ?_⟩
        exact (lower c inside).trans_le low
      · obtain ⟨c, member, rfl⟩ := List.mem_map.mp inside
        exact ((lower c member).trans_le low).ne

theorem checkRegisters_obeys {base : Nat} {word : Word} {registers : List Register} :
    Obeys (checkRegisters base word registers) (registerRules base word.bytes registers) () := by
  refine .unrepeated .duplicateRegisterName [] (registers.map Register.name)
    (fun name found => by rw [checkRegisters, found]) (fun none => by rw [checkRegisters, none]) ?_
  have ordered : byAddress registers = inOrderOf Register.address registers :=
    mergeSort_key_eq_inOrderOf Register.address registers
  rw [← ordered]
  refine .guard Nat.dvd_iff_mod_eq_zero.symm fun _ => ?_
  exact checkAddresses_obeys (byAddress_sorted registers)
    (fun b none => absurd none List.not_mem_nil) .nil

/-- A name that was derived before was derived for the same item. -/
def Claim.rules (before : List Claim) (c : Claim) : List Rule :=
  before.map fun b => ⟨(b.scope, b.symbol) = (c.scope, c.symbol) → b.owner = c.owner,
    .symbolClash c.symbol b.owner c.owner⟩

/-- Those who hold names are just those who claimed them so far. -/
def Holders.Of (held : Holders) (before : List Claim) : Prop :=
  ∀ scope symbol owner, held[(scope, symbol)]? = some owner ↔ ⟨scope, symbol, owner⟩ ∈ before

theorem Holders.Of.insert {held : Holders} {before : List Claim} {c : Claim}
    (holders : held.Of before) (free : held[(c.scope, c.symbol)]? = none) :
    Holders.Of (held.insert (c.scope, c.symbol) c.owner) (c :: before) := by
  intro scope symbol owner
  rw [Std.HashMap.getElem?_insert, List.mem_cons, ← holders]
  by_cases same : (c.scope, c.symbol) = (scope, symbol)
  · obtain ⟨rfl, rfl⟩ := Prod.mk.inj same
    rw [if_pos (beq_self_eq_true _), free]
    constructor
    · intro own
      exact .inl (by rw [← Option.some.inj own])
    · rintro (own | none)
      · rw [← own]
      · cases none
  · rw [if_neg (by simpa using same)]
    refine ⟨.inr, fun either => either.resolve_left fun own => same ?_⟩
    rw [← own]

theorem grant_obeys {held : Holders} {before asked : List Claim} (holders : held.Of before) :
    Obeys (grant held asked) (inTurn Claim.rules before asked) () := by
  induction asked generalizing held before with
  | nil => exact .pure ()
  | cons c rest ih =>
    have holder_of (b : Claim) (inside : b ∈ before)
        (same : (b.scope, b.symbol) = (c.scope, c.symbol)) :
        held[(c.scope, c.symbol)]? = some b.owner :=
      same ▸ (holders b.scope b.symbol b.owner).mpr inside
    rw [grant, inTurn]
    split
    · rename_i free
      refine (ih (holders.insert free)).keeps fun rule inside => ?_
      obtain ⟨b, member, rfl⟩ := List.mem_map.mp inside
      intro same
      have taken := holder_of b member same
      rw [free] at taken
      cases taken
    · rename_i holder taken
      have told (b : Claim) (inside : b ∈ before)
          (same : (b.scope, b.symbol) = (c.scope, c.symbol)) : b.owner = holder :=
        Option.some.inj ((holder_of b inside same).symm.trans taken)
      split
      · rename_i own
        have again : held.Of (c :: before) := by
          intro scope symbol owner
          rw [holders, List.mem_cons, iff_or_self]
          intro same
          rw [same, ← holders, ← own]
          exact taken
        refine (ih again).keeps fun rule inside => ?_
        obtain ⟨b, member, rfl⟩ := List.mem_map.mp inside
        exact fun same => (told b member same).trans own
      · rename_i other
        -- All earlier claims of the name are of one holder, so any of them tells the same.
        refine .failsAmong (fun kept => other ?_) fun rule inside fails => ?_
        · have first := (holders c.scope c.symbol holder).mp taken
          exact kept _ (List.mem_map_of_mem first) rfl
        · obtain ⟨b, member, rfl⟩ := List.mem_map.mp inside
          rw [told b member (Classical.not_imp.mp fails).1]

theorem checkSymbols_obeys {registers : List Register} :
    Obeys (checkSymbols registers) (inTurn Claim.rules [] (claims registers)) () :=
  grant_obeys fun scope symbol owner => by simp

/-- All that a description has to keep, in the order in which it counts. -/
def Description.rules (config : Config) (d : Description) : List Rule :=
  let bits := config.dataWidth.toNat
  let registers := d.built config.nameCase
  [⟨bits ∈ [8, 16, 32, 64], .unsupportedWord bits⟩,
    ⟨isIdentifier d.name = true, .invalidName .map d.name⟩] ++
  d.registers.flatMap (RegisterEntry.rules config.nameCase bits) ++
  registerRules (config.baseOf d) (bits / 8) registers ++
  inTurn Claim.rules [] (claims registers)

theorem Config.word_of_not {config : Config}
    (unsupported : config.dataWidth.toNat ∉ [8, 16, 32, 64]) :
    config.word = .error (.unsupportedWord config.dataWidth.toNat) := by
  cases chosen : config.word with
  | ok word => exact absurd (Word.exists_bits_iff.mp ⟨word, word_eq_ok_iff.mp chosen⟩) unsupported
  | error v =>
    rw [word] at chosen
    split at chosen
    · cases chosen
    · exact chosen.symm

/-- The compilation goes through the rules in their order, and the layout adds none to them. -/
theorem compile_obeys (config : Config) (d : Description) :
    ∃ m, Obeys (compile config d) (d.rules config) m := by
  by_cases supported : config.dataWidth.toNat ∈ [8, 16, 32, 64]
  · obtain ⟨word, bits⟩ := Word.exists_bits_iff.mpr supported
    have chosen : Obeys config.word
        [⟨config.dataWidth.toNat ∈ [8, 16, 32, 64],
          .unsupportedWord config.dataWidth.toNat⟩] word := by
      rw [Config.word_eq_ok_iff.mpr bits]
      exact (Obeys.pure word).keeps (kept_singleton.mpr supported)
    refine ⟨d.mapOf config word, ?_⟩
    simp only [Description.rules, List.append_assoc]
    rw [compile]
    refine chosen.bind fun _ => .guard Iff.rfl fun _ => ?_
    rw [bits, word.bits_div]
    refine (Obeys.mapM fun r _ => checkedRegister_obeys r).bind fun _ => ?_
    refine checkRegisters_obeys.bind fun kept => checkSymbols_obeys.last fun _ => ?_
    have placed := checkRegisters_eq_ok_iff.mp (checkRegisters_obeys.passes kept)
    simp only [placed.ascending.reservedSpans_eq]
    rfl
  · refine ⟨d.mapOf config .w8, ?_⟩
    rw [compile, Config.word_of_not supported]
    exact @Obeys.fails _ _ ⟨_, .unsupportedWord config.dataWidth.toNat⟩ _ supported

theorem compile_eq_error_iff {config : Config} {d : Description} {v : Violation} :
    compile config d = .error v ↔ FirstBroken (d.rules config) v := by
  obtain ⟨m, obeys⟩ := compile_obeys config d
  exact obeys.eq_error_iff

end RegisterMap
