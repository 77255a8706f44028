import RegisterMap.Document.Schema
import RegisterMap.Proofs.Checking

namespace RegisterMap.Schema

variable {ι : Type} {s : Schema ι}

/-- No spelling stands for two keys. -/
def Unambiguous (s : Schema ι) : Prop :=
  ∀ i, ∀ spelling ∈ s.spellings i, s.key? spelling = some i

theorem mem_spellings_of_key? {spelling : String} {i : ι} (found : s.key? spelling = some i) :
    spelling ∈ s.spellings i := by
  have own := List.find?_some (p := fun i => (s.spellings i).contains spelling) found
  exact List.contains_iff_mem.mp own

/-- The entries of a record by their keys, in whatever spelling these are written. -/
def told (s : Schema ι) (entries : List (String × Node)) : List (Option ι × Node) :=
  entries.map fun entry => (s.key? entry.1, entry.2)

namespace Unambiguous

variable (unambiguous : s.Unambiguous) {i j : ι} {spelling : String}
include unambiguous

theorem eq (one : spelling ∈ s.spellings i) (two : spelling ∈ s.spellings j) : i = j :=
  Option.some.inj ((unambiguous i spelling one).symm.trans (unambiguous j spelling two))

theorem told_middle {before after : List (String × Node)} {node : Node}
    (key : spelling ∈ s.spellings i) :
    s.told (before ++ (spelling, node) :: after) =
      s.told before ++ (some i, node) :: s.told after := by
  simp [told, unambiguous i spelling key]

end Unambiguous

variable [DecidableEq ι]

theorem put_self (filled : s.Filled) (i : ι) (v : s.Value i) : s.put filled i v i = some v := by
  simp [put]

theorem put_of_ne {i j : ι} (other : j ≠ i) (filled : s.Filled) (v : s.Value i) :
    s.put filled i v j = filled j := by
  simp [put, other]

theorem put_comm {i j : ι} (differ : i ≠ j) (filled : s.Filled) (v : s.Value i) (w : s.Value j) :
    s.put (s.put filled i v) j w = s.put (s.put filled j w) i v := by
  funext k
  by_cases first : k = i
  · subst first
    rw [put_of_ne differ, put_self, put_self]
  · by_cases second : k = j
    · subst second
      rw [put_self, put_of_ne first, put_self]
    · rw [put_of_ne second, put_of_ne first, put_of_ne first, put_of_ne second]

/-- Every entry gives a value to a key of its own. -/
inductive Fills (s : Schema ι) (format : Format) : List (Option ι × Node) → s.Filled → Prop
  | nil : Fills s format [] s.nothing
  | cons {i node v told filled} : s.decode i format node = .ok v → filled i = none →
      Fills s format told filled → Fills s format ((some i, node) :: told) (s.put filled i v)

namespace Fills

variable {format : Format} {told others : List (Option ι × Node)} {filled : s.Filled}

/-- It does not matter which entry comes first: two of them give values to two keys. -/
theorem perm (same : told.Perm others) (fills : s.Fills format told filled) :
    s.Fills format others filled := by
  induction same generalizing filled with
  | nil => exact fills
  | cons _ _ ih =>
    cases fills with
    | cons decoded free rest => exact .cons decoded free (ih rest)
  | swap =>
    cases fills with
    | cons second free rest =>
      cases rest with
      | @cons i _ v _ _ first empty rest =>
        rename_i j _ _ _ _
        have differ : i ≠ j := by
          rintro rfl
          rw [put_self] at free
          cases free
        rw [put_of_ne differ.symm] at free
        rw [put_comm differ]
        refine .cons first ?_ (.cons second free rest)
        rwa [put_of_ne differ]
  | trans _ _ first second => exact second (first fills)

/-- Any entry may be looked at by itself, wherever it stands. -/
theorem middle_iff {before after : List (Option ι × Node)} {i : ι} {node : Node} :
    s.Fills format (before ++ (some i, node) :: after) filled ↔
      ∃ v rest, s.decode i format node = .ok v ∧ rest i = none ∧
        s.Fills format (before ++ after) rest ∧ s.put rest i v = filled := by
  constructor
  · intro fills
    cases fills.perm List.perm_middle with
    | cons decoded free rest => exact ⟨_, _, decoded, free, rest, rfl⟩
  · rintro ⟨v, rest, decoded, free, fills, rfl⟩
    exact perm List.perm_middle.symm (.cons decoded free fills)

theorem exists_decoded (fills : s.Fills format told filled) {i : ι} {node : Node}
    (inside : (some i, node) ∈ told) : ∃ v, s.decode i format node = .ok v := by
  induction fills with
  | nil => cases inside
  | cons decoded _ _ ih =>
    rcases List.mem_cons.mp inside with same | later
    · cases same
      exact ⟨_, decoded⟩
    · exact ih later

/-- Entries that are decoded alike in two formats come to the same there. -/
theorem reformat {other : Format} (fills : s.Fills format told filled)
    (alike : ∀ i node v, (some i, node) ∈ told → s.decode i format node = .ok v →
      s.decode i other node = .ok v) : s.Fills other told filled := by
  induction fills with
  | nil => exact .nil
  | cons decoded free _ ih =>
    refine .cons (alike _ _ _ (List.mem_cons_self ..) decoded) free (ih ?_)
    exact fun i node v inside => alike i node v (List.mem_cons_of_mem _ inside)

end Fills

theorem keyed_cons_eq_ok_iff {format : Format} {start filled : s.Filled} {spelling : String}
    {node : Node} {rest : List (String × Node)} :
    s.keyed format start ((spelling, node) :: rest) = .ok filled ↔
      ∃ i v, s.key? spelling = some i ∧ start i = none ∧ s.decode i format node = .ok v ∧
        s.keyed format (s.put start i v) rest = .ok filled := by
  rw [keyed]
  cases s.key? spelling with
  | none => simp
  | some i => cases free : start i <;> simp [free, bind_eq_ok_iff]

theorem Fills.of_keyed {format : Format} {before : List (Option ι × Node)}
    {entries : List (String × Node)} {start filled : s.Filled} (fills : s.Fills format before start)
    (gone : s.keyed format start entries = .ok filled) :
    s.Fills format ((s.told entries).reverse ++ before) filled := by
  induction entries generalizing before start with
  | nil =>
    cases gone
    exact fills
  | cons entry rest ih =>
    obtain ⟨i, v, key, free, decoded, gone⟩ := keyed_cons_eq_ok_iff.mp gone
    have more := ih (.cons decoded free fills) gone
    simpa [told, key] using more

theorem Fills.keyed {format : Format} {before : List (Option ι × Node)}
    {entries : List (String × Node)} {filled : s.Filled}
    (fills : s.Fills format ((s.told entries).reverse ++ before) filled) :
    ∃ start, s.Fills format before start ∧ s.keyed format start entries = .ok filled := by
  induction entries generalizing before with
  | nil => exact ⟨filled, fills, rfl⟩
  | cons entry rest ih =>
    have split : (s.told (entry :: rest)).reverse ++ before =
        (s.told rest).reverse ++ (s.key? entry.1, entry.2) :: before := by simp [told]
    obtain ⟨start, first, gone⟩ := ih (split ▸ fills)
    generalize known : s.key? entry.1 = key at first
    cases first with
    | cons decoded free fills =>
      exact ⟨_, fills, keyed_cons_eq_ok_iff.mpr ⟨_, _, known, free, decoded, gone⟩⟩

/-- To go through a record entry by entry comes to the same in any order. -/
theorem keyed_eq_ok_iff {format : Format} {entries : List (String × Node)} {filled : s.Filled} :
    s.keyed format s.nothing entries = .ok filled ↔ s.Fills format (s.told entries) filled := by
  constructor
  · intro gone
    have fills := Fills.of_keyed .nil gone
    rw [List.append_nil] at fills
    exact fills.perm (List.reverse_perm _)
  · intro fills
    have back : s.Fills format ((s.told entries).reverse ++ []) filled := by
      rw [List.append_nil]
      exact fills.perm (List.reverse_perm _).symm
    obtain ⟨start, none, gone⟩ := back.keyed
    cases none
    exact gone

theorem record_eq_ok_iff {α : Type} {format : Format}
    {build : ((i : ι) → Except Problem (s.Value i)) → Except Problem α}
    {entries : List (String × Node)} {whole : Bool} {a : α} :
    s.record build format (.record entries whole) = .ok a ↔
      whole = true ∧ ∃ filled, s.Fills format (s.told entries) filled ∧ build (s.get filled) = .ok a := by
  simp only [record, fill, bind_eq_ok_iff, keyed_eq_ok_iff]
  cases whole with
  | false => simp
  | true => simp

/-- What a record holds for a key, under one of its spellings or in its place in a list. -/
inductive Holds (s : Schema ι) (i : ι) : Node → Node → Prop
  | keyed {entries whole spelling node} : spelling ∈ s.spellings i → (spelling, node) ∈ entries →
      Holds s i (.record entries whole) node
  | placed {items whole node} : (i, node) ∈ s.keys.zip items → Holds s i (.list items whole) node

/-- A member of the list that a record holds for a key. -/
def Lists (s : Schema ι) (i : ι) (record member : Node) : Prop :=
  ∃ items whole, s.Holds i record (.list items whole) ∧ member ∈ items

theorem exists_decoded_of_positional {format : Format} {whole : Bool} {start filled : s.Filled}
    {place : Nat} {keys : List ι} {items surplus : List Node}
    (gone : s.positional format whole start place keys items = .ok (filled, surplus)) {i : ι}
    {node : Node} (inside : (i, node) ∈ keys.zip items) : ∃ v, s.decode i format node = .ok v := by
  induction keys generalizing start place items with
  | nil => cases inside
  | cons key keys ih =>
    cases items with
    | nil => cases inside
    | cons item items =>
      rw [positional] at gone
      obtain ⟨v, decoded, gone⟩ := bind_eq_ok_iff.mp gone
      rw [List.zip_cons_cons] at inside
      rcases List.mem_cons.mp inside with same | later
      · cases same
        exact ⟨v, decoded⟩
      · exact ih gone later

/-- All that a record holds for its keys is decoded. -/
theorem exists_decoded_of_record (unambiguous : s.Unambiguous) {α : Type} {format : Format}
    {build : ((i : ι) → Except Problem (s.Value i)) → Except Problem α} {record node : Node} {a : α}
    {i : ι} (accepted : s.record build format record = .ok a) (holds : s.Holds i record node) :
    ∃ v, s.decode i format node = .ok v := by
  obtain ⟨filled, gone, _⟩ := bind_eq_ok_iff.mp accepted
  cases holds with
  | keyed spelling inside =>
    obtain ⟨filled, gone, _⟩ := bind_eq_ok_iff.mp gone
    refine (keyed_eq_ok_iff.mp gone).exists_decoded ?_
    exact List.mem_map.mpr ⟨_, inside, by rw [unambiguous i _ spelling]⟩
  | placed inside =>
    obtain ⟨⟨filled, surplus⟩, gone, _⟩ := bind_eq_ok_iff.mp gone
    exact exists_decoded_of_positional gone inside

end RegisterMap.Schema
