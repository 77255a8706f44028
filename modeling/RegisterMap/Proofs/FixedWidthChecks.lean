import RegisterMap.Proofs.FixedWidth

namespace RegisterMap

namespace FixedWidth

/-- A check that does every operation in a width of its own. It comes to a value or to a violation, if
all operations on the way have a result: what a width cannot hold is never worked out. -/
abbrev Checked (α : Type) := ExceptT Violation Option α

def namedValue (register field : String) (width : Nat) (case : NameCase) (entry : ValueEntry) :
    Checked NamedValue := do
  let name := case.apply entry.name
  require (isIdentifier name) (.invalidName .value name)
  let description ← singleLine .value (register ++ "." ++ field ++ "." ++ name) entry.description
  let value := entry.value.toNat
  let limit ← shiftLeft 128 1 width
  require (value < limit) (.valueOutOfRange register field name value width)
  return { name, value, description }

def namedValues (register field : String) (width : Nat) (case : NameCase)
    (earlier : List NamedValue) : List ValueEntry → Checked (List NamedValue)
  | [] => return []
  | entry :: entries => do
    let v ← namedValue register field width case entry
    require (∀ w ∈ earlier, w.name ≠ v.name) (.duplicateValueName register field v.name)
    require (∀ w ∈ earlier, w.value ≠ v.value) (.duplicateValue register field v.value)
    let others ← namedValues register field width case (v :: earlier) entries
    return v :: others

def field (register : String) (word : Word) (case : NameCase) (entry : FieldEntry) :
    Checked Field := do
  let name := case.apply entry.name
  require (isIdentifier name) (.invalidName .field name)
  let description ← singleLine .field (register ++ "." ++ name) entry.description
  let width := entry.width.toNat
  let lsb := entry.lsb.toNat
  let reset := entry.reset.toNat
  require (0 < width) (.zeroWidth register name)
  require (width ≤ word.bits) (.widthTooLarge register name width word.bits)
  let stop ← add 64 lsb width
  require (stop ≤ word.bits) (.fieldOutOfRange register name lsb width word.bits)
  let limit ← shiftLeft 128 1 width
  require (reset < limit) (.resetOutOfRange register name reset width)
  require (Modifier.supported entry.access entry.modifiers)
    (.unsupportedModifiers register name entry.access entry.modifiers)
  let values ← namedValues register name width case [] entry.values
  return { name, description, width, lsb, access := entry.access, modifiers := entry.modifiers,
           reset, values }

def register (word : Word) (case : NameCase) (entry : RegisterEntry) : Checked Register := do
  let name := case.apply entry.name
  require (isIdentifier name) (.invalidName .register name)
  let description ← singleLine .register name entry.description
  require (entry.fields ≠ []) (.noFields name)
  let fields ← entry.fields.mapM (field name word case)
  return { name, description, address := entry.address.toNat, fields }

def firstOverlap? : List Field → Option (Option (Field × Field))
  | a :: b :: rest => do
    let stop ← fieldStop a
    if b.lsb < stop then return some (a, b) else firstOverlap? (b :: rest)
  | _ => some none

def checkFields (r : Register) : Checked Unit :=
  match firstRepeated? [] (r.fields.map Field.name) with
  | some name => throw (.duplicateFieldName r.name name)
  | none => do
    match ← firstOverlap? r.fieldsByLsb with
    | some (a, b) => throw (.overlap r.name a.name a.lsb a.width b.name b.lsb b.width)
    | none => return ()

def checkedRegister (word : Word) (case : NameCase) (entry : RegisterEntry) :
    Checked Register := do
  let r ← register word case entry
  checkFields r
  return r

/-- Whether an address has a word behind it is asked of the sum itself. -/
def checkAddresses (base : Nat) (word : Word) (before : Option Register) :
    List Register → Checked Unit
  | [] => return ()
  | r :: rest => do
    let off ← rem r.address word.bytes
    require (off = 0) (.misalignedAddress r.name r.address word.bytes)
    require (base ≤ r.address) (.addressBelowBase r.name r.address base)
    require (add 64 r.address word.bytes).isSome (.addressOutOfRange r.name r.address)
    match before with
    | some b => require (b.address ≠ r.address) (.duplicateAddress r.address b.name r.name)
    | none => pure ()
    checkAddresses base word (some r) rest

def checkRegisters (base : Nat) (word : Word) (registers : List Register) : Checked Unit :=
  match firstRepeated? [] (registers.map Register.name) with
  | some name => throw (.duplicateRegisterName name)
  | none => do
    let off ← rem base word.bytes
    require (off = 0) (.misalignedBase base word.bytes)
    checkAddresses base word none (byAddress registers)

def reservedSpans (word : Word) (cursor : Nat) : List Register → Checked (List ReservedSpan)
  | [] => return []
  | r :: rest =>
    match sub r.address cursor with
    | none => throw (.negativeGap r.name r.address cursor)
    | some gap => do
      let next ← add 64 r.address word.bytes
      let spans ← reservedSpans word next rest
      if gap = 0 then return spans
      else return ⟨cursor, ← div gap word.bytes⟩ :: spans

def compile (config : Config) (d : Description) : Checked AddressMap := do
  let word ← config.word
  require (isIdentifier d.name) (.invalidName .map d.name)
  let base := config.baseOf d
  let registers ← d.registers.mapM (checkedRegister word config.nameCase)
  checkRegisters base word registers
  checkSymbols registers
  let ordered := byAddress registers
  let reserved ← reservedSpans word base ordered
  let m : AddressMap := { name := d.name, base, word, registers := ordered, reserved }
  -- The log tells where the map ends.
  let _ ← mapStop m
  return m

section

variable {α β : Type}

theorem run_lift (e : Except Violation α) : (liftM e : Checked α).run = some e := rfl

/-- An operation that is exact goes on with its result. -/
theorem run_exact_bind {o : Option α} {a : α} (exact : o = some a) (next : α → Checked β) :
    ((liftM o : Checked α) >>= next).run = (next a).run := by
  rw [exact]
  rfl

/-- What comes after a check may take it that the check was passed. -/
theorem run_bind {check : Checked α} {plain : Except Violation α} {next : α → Checked β}
    {later : α → Except Violation β} (first : check.run = some plain)
    (after : ∀ a, plain = .ok a → (next a).run = some (later a)) :
    (check >>= next).run = some (plain >>= later) := by
  rw [ExceptT.run_bind, first]
  cases plain with
  | error told => rfl
  | ok a => exact after a rfl

theorem run_mapM {check : α → Checked β} {plain : α → Except Violation β} {l : List α}
    (all : ∀ a ∈ l, (check a).run = some (plain a)) : (l.mapM check).run = some (l.mapM plain) := by
  induction l with
  | nil => rfl
  | cons a rest ih =>
    obtain ⟨first, others⟩ := List.forall_mem_cons.mp all
    rw [List.mapM_cons, List.mapM_cons]
    exact run_bind first fun b _ => run_bind (ih others) fun _ _ => rfl

end

theorem namedValue_run {register field : String} {width : Nat} {case : NameCase}
    (narrow : width < 128) (entry : ValueEntry) :
    (namedValue register field width case entry).run =
      some (NamedValue.ofEntry register field width case entry) := by
  refine run_bind (run_lift _) fun _ _ => run_bind (run_lift _) fun _ _ => ?_
  rw [run_exact_bind (shiftLeft_one_eq narrow)]
  exact run_bind (run_lift _) fun _ _ => rfl

theorem namedValues_run {register field : String} {width : Nat} {case : NameCase}
    (narrow : width < 128) (earlier : List NamedValue) (entries : List ValueEntry) :
    (namedValues register field width case earlier entries).run =
      some (NamedValue.collect register field width case earlier entries) := by
  induction entries generalizing earlier with
  | nil => rfl
  | cons entry entries ih =>
    refine run_bind (namedValue_run narrow entry) fun v _ => ?_
    refine run_bind (run_lift _) fun _ _ => run_bind (run_lift _) fun _ _ => ?_
    exact run_bind (ih (v :: earlier)) fun _ _ => rfl

/-- Values are moved by the width of a field only once it is known to be that of a word at most. -/
theorem field_run (register : String) (word : Word) (case : NameCase) (entry : FieldEntry) :
    (field register word case entry).run = some (Field.ofEntry register word case entry) := by
  refine run_bind (run_lift _) fun _ _ => run_bind (run_lift _) fun _ _ => ?_
  refine run_bind (run_lift _) fun _ _ => run_bind (run_lift _) fun _ checked => ?_
  have narrow : entry.width.toNat < 128 :=
    ((require_eq_ok_iff.mp checked).trans word.bits_le).trans_lt (by decide)
  have ends : entry.lsb.toNat + entry.width.toNat < 2 ^ 64 := by
    have low := entry.lsb.toNat_lt
    omega
  rw [run_exact_bind (add_eq ends)]
  refine run_bind (run_lift _) fun _ _ => ?_
  rw [run_exact_bind (shiftLeft_one_eq narrow)]
  refine run_bind (run_lift _) fun _ _ => run_bind (run_lift _) fun _ _ => ?_
  exact run_bind (namedValues_run narrow [] entry.values) fun _ _ => rfl

theorem register_run (word : Word) (case : NameCase) (entry : RegisterEntry) :
    (register word case entry).run = some (Register.ofEntry word case entry) := by
  refine run_bind (run_lift _) fun _ _ => run_bind (run_lift _) fun _ _ => ?_
  refine run_bind (run_lift _) fun _ _ => ?_
  exact run_bind (run_mapM fun f _ => field_run _ word case f) fun _ _ => rfl

theorem firstOverlap?_eq {fields : List Field} (inside : ∀ f ∈ fields, f.stop ≤ 64) :
    firstOverlap? fields = some (RegisterMap.firstOverlap? fields) := by
  fun_induction RegisterMap.firstOverlap? fields with
  | case1 a b rest overlap =>
    rw [firstOverlap?, fieldStop_eq (inside a (List.mem_cons_self ..)), Option.bind_eq_bind,
      Option.bind_some, if_pos overlap]
    rfl
  | case2 a b rest apart ih =>
    obtain ⟨first, others⟩ := List.forall_mem_cons.mp inside
    rw [firstOverlap?, fieldStop_eq first, Option.bind_eq_bind, Option.bind_some, if_neg apart]
    exact ih others
  | case3 fields short =>
    cases fields with
    | nil => rfl
    | cons a rest =>
      cases rest with
      | nil => rfl
      | cons b rest => exact absurd rfl (short a b rest)

theorem checkFields_run {r : Register} (inside : ∀ f ∈ r.fields, f.stop ≤ 64) :
    (checkFields r).run = some (RegisterMap.checkFields r) := by
  have sorted : ∀ f ∈ r.fieldsByLsb, f.stop ≤ 64 := fun f among =>
    inside f (r.fieldsByLsb_perm.mem_iff.mp among)
  unfold checkFields RegisterMap.checkFields
  cases firstRepeated? [] (r.fields.map Field.name) with
  | some name => rfl
  | none =>
    refine (run_exact_bind (firstOverlap?_eq sorted) _).trans ?_
    cases RegisterMap.firstOverlap? r.fieldsByLsb <;> rfl

theorem stop_le_of_ofEntry {word : Word} {case : NameCase} {entry : RegisterEntry} {r : Register}
    (made : Register.ofEntry word case entry = .ok r) : ∀ f ∈ r.fields, f.stop ≤ 64 := by
  unfold Register.ofEntry at made
  simp only [bind_eq_ok_iff, require_eq_ok_iff, exists_const, pure_eq_ok_iff,
    mapM_eq_ok_iff fun _ _ => Field.ofEntry_eq_ok_iff] at made
  obtain ⟨_, _, _, _, _, ⟨sound, rfl⟩, rfl⟩ := made
  exact List.forall_mem_map.mpr fun f part => (sound f part).inside.trans word.bits_le

theorem checkedRegister_run (word : Word) (case : NameCase) (entry : RegisterEntry) :
    (checkedRegister word case entry).run = some (RegisterMap.checkedRegister word case entry) :=
  run_bind (register_run word case entry) fun _ made =>
    run_bind (checkFields_run (stop_le_of_ofEntry made)) fun _ _ => rfl

theorem checkAddresses_run (base : Nat) (word : Word) (before : Option Register)
    (registers : List Register) :
    (checkAddresses base word before registers).run =
      some (RegisterMap.checkAddresses base word before registers) := by
  induction registers generalizing before with
  | nil => rfl
  | cons r rest ih =>
    refine (run_exact_bind (rem_eq word.bytes_pos) _).trans ?_
    refine run_bind (run_lift _) fun _ _ => run_bind (run_lift _) fun _ _ => ?_
    simp only [isSome_add_iff]
    refine run_bind (run_lift _) fun _ _ => ?_
    cases before with
    | none => exact ih (some r)
    | some b => exact run_bind (run_lift _) fun _ _ => ih (some r)

theorem checkRegisters_run (base : Nat) (word : Word) (registers : List Register) :
    (checkRegisters base word registers).run =
      some (RegisterMap.checkRegisters base word registers) := by
  unfold checkRegisters RegisterMap.checkRegisters
  cases firstRepeated? [] (registers.map Register.name) with
  | some name => rfl
  | none =>
    refine (run_exact_bind (rem_eq word.bytes_pos) _).trans ?_
    exact run_bind (run_lift _) fun _ _ => checkAddresses_run base word none _

theorem reservedSpans_run {word : Word} {cursor : Nat} {registers : List Register}
    (ends : ∀ r ∈ registers, r.address + word.bytes < 2 ^ 64) :
    (reservedSpans word cursor registers).run =
      some (RegisterMap.reservedSpans word cursor registers) := by
  induction registers generalizing cursor with
  | nil => rfl
  | cons r rest ih =>
    obtain ⟨first, others⟩ := List.forall_mem_cons.mp ends
    rw [reservedSpans, RegisterMap.reservedSpans]
    by_cases below : r.address < cursor
    · have none : sub r.address cursor = none := if_neg (by omega)
      rw [none, if_pos below]
      rfl
    · rw [sub_eq (not_lt.mp below), if_neg below]
      refine (run_exact_bind (add_eq first) _).trans (run_bind (ih others) fun spans _ => ?_)
      by_cases meets : r.address = cursor
      · rw [if_pos meets, if_pos (by omega)]
        rfl
      · rw [if_neg meets, if_neg (by omega)]
        exact run_exact_bind (div_eq word.bytes_pos) _

theorem compile_run (config : Config) (d : Description) :
    (compile config d).run = some (RegisterMap.compile config d) := by
  refine run_bind (run_lift _) fun word _ => run_bind (run_lift _) fun _ _ => ?_
  refine run_bind (run_mapM fun r _ => checkedRegister_run word config.nameCase r)
    fun registers _ => ?_
  refine run_bind (checkRegisters_run _ word registers) fun _ checked => ?_
  have placed := checkRegisters_eq_ok_iff.mp checked
  have ends : ∀ r ∈ byAddress registers, r.address + word.bytes < 2 ^ 64 := fun r among =>
    (placed.inRange r ((byAddress_perm registers).mem_iff.mp among)).ends
  refine run_bind (run_lift _) fun _ _ => run_bind (reservedSpans_run ends) fun reserved _ => ?_
  refine run_exact_bind (mapStop_eq ?_) _
  rw [AddressMap.stop]
  split
  · rename_i r last
    exact ends r (List.mem_of_getLast? last)
  · exact UInt64.toNat_lt _

/-- No arithmetic leaves its range. The checks of a description, whether it passes them or not, end
in operations of fixed width as they do in unbounded numbers. Of a map that passes, all that targets
work out is exact. -/
theorem compile_exact (config : Config) (d : Description) :
    (compile config d).run = some (RegisterMap.compile config d) ∧
      ∀ m, RegisterMap.compile config d = .ok m → MapExact m := by
  refine ⟨compile_run config d, fun m compiled => ?_⟩
  obtain ⟨word, sound, rfl⟩ := compile_eq_ok_iff.mp compiled
  exact sound.mapExact

/-- Two gaps and two registers up to the end of all addresses, with fields up to the last bit. -/
def summit : Description where
  name := "summit"
  base := 0xffff_ffff_ffff_ffd0
  registers :=
    [{ name := "LAST", address := 0xffff_ffff_ffff_fff0,
       fields := [{ name := "ALL", width := 64, reset := 0xffff_ffff_ffff_ffff }] },
      { name := "FIRST", address := 0xffff_ffff_ffff_ffe0,
        fields := [{ name := "TOP", lsb := 63, reset := 1 }, { name := "LOW", width := 32 }] }]

theorem compile_exact_summit :
    RegisterMap.compile { dataWidth := 64 } summit =
      .ok (summit.mapOf { dataWidth := 64 } .w64) ∧
    (compile { dataWidth := 64 } summit).run =
      some (.ok (summit.mapOf { dataWidth := 64 } .w64)) ∧
    MapExact (summit.mapOf { dataWidth := 64 } .w64) := by
  have compiled : RegisterMap.compile { dataWidth := 64 } summit =
      .ok (summit.mapOf { dataWidth := 64 } .w64) :=
    compile_eq_ok_iff.mpr ⟨.w64, by decide +kernel, rfl⟩
  obtain ⟨run, exact⟩ := compile_exact { dataWidth := 64 } summit
  exact ⟨compiled, run.trans (congrArg some compiled), exact _ compiled⟩

end FixedWidth

end RegisterMap
