import RegisterMap.Proofs.RecordDecoding
import Mathlib.Data.List.Forall2
import Mathlib.Logic.Relation

namespace RegisterMap

/-- What stands for a number: an integer, or a text that is read as one. -/
inductive Numeric : Nat → Node → Prop
  | int (n : Nat) : Numeric n (.int n)
  | text {s : String} {n : Nat} (read : readNumeral s = .ok n) : Numeric n (.text s)

/-- What stands for a variant: a text that is one of its names. -/
inductive Names {α : Type} (variants : List (String × α)) (a : α) : Node → Prop
  | mk {name : String} (found : variants.lookup name = some a) : Names variants a (.text name)

theorem Numeric.unique {m n : Nat} {node : Node} (one : Numeric m node) (two : Numeric n node) :
    m = n := by
  cases one with
  | int => cases two; rfl
  | text first =>
    cases two with
    | text second => exact Except.ok.inj (first.symm.trans second)

theorem decodeNat_eq_ok_iff {format : Format} {node : Node} {n : Nat} :
    decodeNat format node = .ok n ↔ Numeric n node ∧ n < UInt64.size := by
  constructor
  · intro decoded
    unfold decodeNat at decoded
    split at decoded
    · rename_i i
      split at decoded
      · rename_i fits
        cases decoded
        have same : ((i.toNat : Nat) : Int) = i := Int.toNat_of_nonneg fits.1
        refine ⟨?_, fits.2⟩
        nth_rewrite 2 [← same]
        exact .int _
      · cases decoded
    · rename_i s
      split at decoded
      · rename_i read
        cases decoded
        exact ⟨.text read, readNumeral_lt read⟩
      · cases decoded
    · split at decoded <;> cases decoded
  · rintro ⟨said, small⟩
    cases said with
    | int => simp [decodeNat, small]
    | text read => simp [decodeNat, read]

/-- Every number of 64 bits is taken as it is. -/
theorem decodeWord64_eq_ok_iff {format : Format} {node : Node} {v : UInt64} :
    decodeWord64 format node = .ok v ↔ Numeric v.toNat node := by
  simp only [decodeWord64, bind_eq_ok_iff, decodeNat_eq_ok_iff, pure_eq_ok_iff]
  constructor
  · rintro ⟨n, ⟨said, small⟩, rfl⟩
    rwa [UInt64.toNat_ofNat_of_lt' small]
  · intro said
    exact ⟨_, ⟨said, v.toNat_lt⟩, UInt64.ofNat_toNat⟩

/-- Where there is room for 32 bits, no number is cut: a larger one is not taken at all. -/
theorem decodeWord32_eq_ok_iff {format : Format} {node : Node} {v : UInt32} :
    decodeWord32 format node = .ok v ↔ Numeric v.toNat node := by
  simp only [decodeWord32, bind_eq_ok_iff, decodeNat_eq_ok_iff]
  constructor
  · rintro ⟨n, ⟨said, _⟩, fits⟩
    split at fits
    · rename_i small
      cases fits
      rwa [UInt32.toNat_ofNat_of_lt' small]
    · cases fits
  · intro said
    refine ⟨_, ⟨said, Nat.lt_trans v.toNat_lt (by decide)⟩, ?_⟩
    rw [if_pos v.toNat_lt, UInt32.ofNat_toNat]
    rfl

theorem decodeVariant_text_eq_ok_iff {α : Type} {variants : List (String × α)} {format : Format}
    {name : String} {a : α} :
    decodeVariant variants format (.text name) = .ok a ↔ Names variants a (.text name) := by
  have found : decodeVariant variants format (.text name) = .ok a ↔
      variants.lookup name = some a := by
    rw [decodeVariant, variantNamed]
    cases variants.lookup name <;> simp
  rw [found]
  exact ⟨.mk, fun | .mk found => found⟩

theorem Names.decoded {α : Type} {variants : List (String × α)} {node : Node} {a : α}
    (said : Names variants a node) (format : Format) : decodeVariant variants format node = .ok a := by
  obtain ⟨found⟩ := said
  exact decodeVariant_text_eq_ok_iff.mpr ⟨found⟩

theorem decodeList_eq_ok_iff {α : Type} {item : Decoder α} {format : Format} {items : List Node}
    {whole : Bool} {made : List α} :
    decodeList item format (.list items whole) = .ok made ↔
      items.mapM (item format) = .ok made ∧ whole = true := by
  rw [decodeList, bind_eq_ok_iff]
  cases whole <;> simp

theorem exists_decoded_of_mem {α : Type} {decode : Node → Except Problem α} {items : List Node}
    {made : List α} (decoded : items.mapM decode = .ok made) {member : Node}
    (inside : member ∈ items) : ∃ a, decode member = .ok a := by
  induction items generalizing made with
  | nil => cases inside
  | cons item rest ih =>
    rw [List.mapM_cons] at decoded
    obtain ⟨a, first, decoded⟩ := bind_eq_ok_iff.mp decoded
    obtain ⟨others, more, _⟩ := bind_eq_ok_iff.mp decoded
    rcases List.mem_cons.mp inside with rfl | later
    · exact ⟨a, first⟩
    · exact ih more later

/-- Which nodes are looked at, and which change to one of them leaves what it says. -/
structure Leeway where
  plain : Node → Prop
  changed : Node → Node → Prop

namespace Leeway

/-- A text can only be given as it is. -/
def text : Leeway where
  plain _ := True
  changed _ _ := False

/-- A number may be given as an integer or as any text that is read as that integer. -/
def number : Leeway where
  plain _ := True
  changed node other := ∃ n, Numeric n node ∧ Numeric n other

/-- A variant may be given by any of its names. -/
def variant {α : Type} (variants : List (String × α)) : Leeway where
  plain node := ∃ name, node = .text name
  changed node other := ∃ a, Names variants a node ∧ Names variants a other

inductive ItemChanged (changed : Node → Node → Prop) : Node → Node → Prop
  | mk (before) {after item other whole} : changed item other →
      ItemChanged changed (.list (before ++ item :: after) whole)
        (.list (before ++ other :: after) whole)

/-- The items of a list may change one by one. -/
def list (item : Leeway) : Leeway where
  plain node := ∃ items whole, node = .list items whole ∧ ∀ member ∈ items, item.plain member
  changed := ItemChanged item.changed

section

variable {ι : Type} (s : Schema ι) (entry : ι → Leeway) (unsaid : ι → Node → Prop)

/-- One change to a record: its entries in another order, a key in another spelling, the entry of a
key changed, or an entry left out that says no more than its absence. -/
inductive RecordChanged : Node → Node → Prop
  | order {entries others whole} : entries.Perm others →
      RecordChanged (.record entries whole) (.record others whole)
  | spelling (before) {i after one other node whole} : one ∈ s.spellings i → other ∈ s.spellings i →
      RecordChanged (.record (before ++ (one, node) :: after) whole)
        (.record (before ++ (other, node) :: after) whole)
  | content (before) {i after spelling node other whole} : spelling ∈ s.spellings i →
      (entry i).changed node other →
      RecordChanged (.record (before ++ (spelling, node) :: after) whole)
        (.record (before ++ (spelling, other) :: after) whole)
  | omission (before) {i after spelling node whole} : spelling ∈ s.spellings i → unsaid i node →
      RecordChanged (.record (before ++ (spelling, node) :: after) whole)
        (.record (before ++ after) whole)

/-- A record goes by its keys. -/
def record : Leeway where
  plain node := ∃ entries whole, node = .record entries whole ∧
    ∀ member ∈ entries, ∀ i, member.1 ∈ s.spellings i → (entry i).plain member.2
  changed := RecordChanged s entry unsaid

end

/-- A decoder that does not notice changes within the leeway, nor the format of a document. -/
structure Safe {α : Type} (leeway : Leeway) (decode : Decoder α) : Prop where
  format : ∀ {one other : Format} {node a}, leeway.plain node → decode one node = .ok a →
    decode other node = .ok a
  keeps : ∀ {format : Format} {node other a}, leeway.plain node → leeway.changed node other →
    decode format node = .ok a → decode format other = .ok a
  stays : ∀ {node other}, leeway.plain node → leeway.changed node other → leeway.plain other

theorem safe_text (expected : String) : text.Safe (decodeTextAs expected) where
  format {one other node a} _ decoded := by
    cases node <;> exact decoded
  keeps _ change := change.elim
  stays _ change := change.elim

theorem safe_number {α : Type} {decode : Decoder α} {value : α → Nat}
    (exact : ∀ {format node v}, decode format node = .ok v ↔ Numeric (value v) node) :
    number.Safe decode where
  format _ decoded := exact.mpr (exact.mp decoded)
  keeps _ change decoded := by
    obtain ⟨n, said, again⟩ := change
    rw [said.unique (exact.mp decoded)] at again
    exact exact.mpr again
  stays _ _ := trivial

theorem safe_variant {α : Type} (variants : List (String × α)) :
    (variant variants).Safe (decodeVariant variants) where
  format plain decoded := by
    obtain ⟨name, rfl⟩ := plain
    exact decodeVariant_text_eq_ok_iff.mpr (decodeVariant_text_eq_ok_iff.mp decoded)
  keeps _ change decoded := by
    obtain ⟨b, said, again⟩ := change
    cases (said.decoded _).symm.trans decoded
    exact again.decoded _
  stays _ change := by
    obtain ⟨a, _, ⟨_⟩⟩ := change
    exact ⟨_, rfl⟩

/-- Lists come to the same where each two of their items do. -/
theorem mapM_ok_of_forall₂ {α : Type} {first second : Node → Except Problem α}
    {items others : List Node} {made : List α}
    (alike : items.Forall₂ (fun item other => ∀ a, first item = .ok a → second other = .ok a) others)
    (decoded : items.mapM first = .ok made) : others.mapM second = .ok made := by
  induction alike generalizing made with
  | nil => exact decoded
  | cons same _ ih =>
    rw [List.mapM_cons] at decoded ⊢
    obtain ⟨a, one, decoded⟩ := bind_eq_ok_iff.mp decoded
    obtain ⟨rest, more, decoded⟩ := bind_eq_ok_iff.mp decoded
    exact bind_eq_ok_iff.mpr ⟨a, same a one, bind_eq_ok_iff.mpr ⟨rest, ih more, decoded⟩⟩

theorem safe_list {α : Type} {leeway : Leeway} {item : Decoder α} (safe : leeway.Safe item) :
    leeway.list.Safe (decodeList item) where
  format plain decoded := by
    obtain ⟨items, whole, rfl, each⟩ := plain
    obtain ⟨made, whole⟩ := decodeList_eq_ok_iff.mp decoded
    refine decodeList_eq_ok_iff.mpr ⟨mapM_ok_of_forall₂ ?_ made, whole⟩
    exact List.forall₂_same.mpr fun member inside a => safe.format (each member inside)
  keeps plain change decoded := by
    obtain ⟨before, change⟩ := change
    obtain ⟨items, whole, same, each⟩ := plain
    cases same
    obtain ⟨made, whole⟩ := decodeList_eq_ok_iff.mp decoded
    refine decodeList_eq_ok_iff.mpr ⟨mapM_ok_of_forall₂ ?_ made, whole⟩
    refine List.rel_append (List.forall₂_same.mpr fun _ _ _ => id) (.cons (fun a => ?_)
      (List.forall₂_same.mpr fun _ _ _ => id))
    exact safe.keeps (each _ (List.mem_append_right _ (List.mem_cons_self ..))) change
  stays plain change := by
    obtain ⟨before, change⟩ := change
    obtain ⟨items, whole, same, each⟩ := plain
    cases same
    refine ⟨_, _, rfl, List.forall_mem_append.mpr ⟨?_, List.forall_mem_cons.mpr ⟨?_, ?_⟩⟩⟩
    · exact fun member inside => each member (List.mem_append_left _ inside)
    · exact safe.stays (each _ (List.mem_append_right _ (List.mem_cons_self ..))) change
    · exact fun member inside => each member (List.mem_append_right _ (List.mem_cons_of_mem _ inside))

section

variable {ι : Type} {s : Schema ι} {entry : ι → Leeway} {unsaid : ι → Node → Prop}

/-- A key that is given its fallback might as well be passed over. -/
theorem get_put_fallback [DecidableEq ι] {filled : s.Filled} {i : ι} {v : s.Value i}
    (free : filled i = none) (fallback : s.fallback i = some v) :
    s.get (s.put filled i v) = s.get filled := by
  funext j
  by_cases same : j = i
  · subst same
    simp only [Schema.get, Schema.put_self, free, fallback]
  · simp only [Schema.get, Schema.put_of_ne same]

theorem plain_record_iff {entries : List (String × Node)} {whole : Bool} :
    (record s entry unsaid).plain (.record entries whole) ↔
      ∀ member ∈ entries, ∀ i, member.1 ∈ s.spellings i → (entry i).plain member.2 := by
  constructor
  · rintro ⟨_, _, same, each⟩
    cases same
    exact each
  · exact fun each => ⟨entries, whole, rfl, each⟩

variable (unambiguous : s.Unambiguous) (parts : ∀ i, (entry i).Safe (s.decode i))
include unambiguous parts

omit parts in
theorem plain_middle_iff {i : ι} {spelling : String} {node : Node} {whole : Bool}
    (before : List (String × Node)) {after : List (String × Node)}
    (key : spelling ∈ s.spellings i) :
    (record s entry unsaid).plain (.record (before ++ (spelling, node) :: after) whole) ↔
      (entry i).plain node ∧ (record s entry unsaid).plain (.record (before ++ after) whole) := by
  have own : (∀ j, spelling ∈ s.spellings j → (entry j).plain node) ↔ (entry i).plain node := by
    refine ⟨fun each => each i key, fun plain j other => ?_⟩
    cases unambiguous.eq key other
    exact plain
  simp only [plain_record_iff, List.forall_mem_append, List.forall_mem_cons, own]
  exact and_left_comm

theorem plain_of_changed {node other : Node} (plain : (record s entry unsaid).plain node)
    (change : RecordChanged s entry unsaid node other) : (record s entry unsaid).plain other := by
  cases change with
  | order same =>
    have each := plain_record_iff.mp plain
    exact plain_record_iff.mpr fun member inside => each member (same.mem_iff.mpr inside)
  | spelling before one two =>
    have both := (plain_middle_iff unambiguous before one).mp plain
    exact (plain_middle_iff unambiguous before two).mpr both
  | content before key change =>
    obtain ⟨own, rest⟩ := (plain_middle_iff unambiguous before key).mp plain
    exact (plain_middle_iff unambiguous before key).mpr ⟨(parts _).stays own change, rest⟩
  | omission before key said => exact ((plain_middle_iff unambiguous before key).mp plain).2

variable [DecidableEq ι] (silent : ∀ i node, unsaid i node →
  ∃ v, s.fallback i = some v ∧ ∀ format, s.decode i format node = .ok v)
include silent

/-- What a record tells of its keys, fallbacks included, does not change. -/
theorem exists_fills_of_changed {format : Format} {entries : List (String × Node)} {whole : Bool}
    {other : Node} {filled : s.Filled} (plain : (record s entry unsaid).plain (.record entries whole))
    (change : RecordChanged s entry unsaid (.record entries whole) other)
    (fills : s.Fills format (s.told entries) filled) :
    ∃ others refilled, other = .record others whole ∧ s.Fills format (s.told others) refilled ∧
      s.get refilled = s.get filled := by
  cases change with
  | order same => exact ⟨_, filled, rfl, fills.perm (same.map _), rfl⟩
  | spelling before one two =>
    rw [unambiguous.told_middle one] at fills
    refine ⟨_, filled, rfl, ?_, rfl⟩
    rwa [unambiguous.told_middle two]
  | content before key change =>
    rw [unambiguous.told_middle key] at fills
    obtain ⟨v, rest, decoded, free, others, rfl⟩ := Schema.Fills.middle_iff.mp fills
    have own := ((plain_middle_iff unambiguous before key).mp plain).1
    refine ⟨_, s.put rest _ v, rfl, ?_, rfl⟩
    rw [unambiguous.told_middle key]
    exact Schema.Fills.middle_iff.mpr
      ⟨v, rest, (parts _).keeps own change decoded, free, others, rfl⟩
  | omission before key said =>
    rw [unambiguous.told_middle key] at fills
    obtain ⟨v, rest, decoded, free, others, rfl⟩ := Schema.Fills.middle_iff.mp fills
    obtain ⟨w, fallback, always⟩ := silent _ _ said
    cases decoded.symm.trans (always format)
    refine ⟨_, rest, rfl, ?_, (get_put_fallback free fallback).symm⟩
    rwa [Schema.told, List.map_append]

theorem safe_record {α : Type} {build : ((i : ι) → Except Problem (s.Value i)) → Except Problem α} :
    (record s entry unsaid).Safe (s.record build) where
  format {one other node a} plain decoded := by
    obtain ⟨entries, whole, rfl, each⟩ := plain
    obtain ⟨whole, filled, fills, made⟩ := Schema.record_eq_ok_iff.mp decoded
    refine Schema.record_eq_ok_iff.mpr ⟨whole, filled, fills.reformat ?_, made⟩
    intro i node v inside
    obtain ⟨⟨spelling, _⟩, member, same⟩ := List.mem_map.mp inside
    obtain ⟨key, rfl⟩ := Prod.mk.inj same
    exact (parts i).format (each _ member i (Schema.mem_spellings_of_key? key))
  keeps plain change decoded := by
    obtain ⟨entries, whole, rfl, each⟩ := id plain
    obtain ⟨whole, filled, fills, made⟩ := Schema.record_eq_ok_iff.mp decoded
    obtain ⟨others, refilled, rfl, again, same⟩ :=
      exists_fills_of_changed unambiguous parts silent plain change fills
    exact Schema.record_eq_ok_iff.mpr ⟨whole, refilled, again, same ▸ made⟩
  stays := plain_of_changed unambiguous parts

end

/-- Any number of changes, one after the other. -/
theorem Safe.keeps_all {α : Type} {leeway : Leeway} {decode : Decoder α} (safe : leeway.Safe decode)
    {format : Format} {node other : Node} {a : α} (plain : leeway.plain node)
    (changes : Relation.ReflTransGen leeway.changed node other)
    (decoded : decode format node = .ok a) : decode format other = .ok a ∧ leeway.plain other := by
  induction changes with
  | refl => exact ⟨decoded, plain⟩
  | tail _ change ih =>
    obtain ⟨decoded, plain⟩ := ih
    exact ⟨safe.keeps plain change decoded, safe.stays plain change⟩

end Leeway

end RegisterMap
