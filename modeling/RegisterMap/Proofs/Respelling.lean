import RegisterMap.Description.Reading
import RegisterMap.Proofs.Leeway
import Mathlib

namespace RegisterMap

open Leeway in
/-- How a named value may be written. -/
def valueLeeway : Leeway :=
  record valueSchema
    (fun
      | .name | .description => text
      | .value => number)
    (fun
      | .name | .value => fun _ => False
      | .description => (· = .text ""))

open Leeway in
/-- How a field may be written. -/
def fieldLeeway : Leeway :=
  record fieldSchema
    (fun
      | .name | .description => text
      | .width | .lsb | .reset => number
      | .access => variant accessNames
      | .modifiers => list (variant modifierNames)
      | .values => list valueLeeway)
    (fun
      | .name => fun _ => False
      | .description => (· = .text "")
      | .width => Numeric 1
      | .lsb | .reset => Numeric 0
      | .access => Names accessNames .readWrite
      | .modifiers | .values => (· = .list [] true))

open Leeway in
/-- How a register may be written. -/
def registerLeeway : Leeway :=
  record registerSchema
    (fun
      | .name | .description => text
      | .address => number
      | .fields => list fieldLeeway)
    (fun
      | .name | .address => fun _ => False
      | .description => (· = .text "")
      | .fields => (· = .list [] true))

open Leeway in
/-- How a description may be written: what is left unsaid is what its absence says, too. -/
def descriptionLeeway : Leeway :=
  record mapSchema
    (fun
      | .name => text
      | .base => number
      | .registers => list registerLeeway)
    (fun
      | .name => fun _ => False
      | .base => Numeric 0
      | .registers => (· = .list [] true))

theorem unambiguous_valueSchema : valueSchema.Unambiguous := by
  intro i
  cases i <;> decide

theorem unambiguous_fieldSchema : fieldSchema.Unambiguous := by
  intro i
  cases i <;> decide

theorem unambiguous_registerSchema : registerSchema.Unambiguous := by
  intro i
  cases i <;> decide

theorem unambiguous_mapSchema : mapSchema.Unambiguous := by
  intro i
  cases i <;> decide

theorem safe_valueLeeway : valueLeeway.Safe decodeValueEntry := by
  refine Leeway.safe_record unambiguous_valueSchema (fun i => ?_) (fun i node said => ?_)
  · cases i with
    | name | description => exact Leeway.safe_text _
    | value => exact Leeway.safe_number decodeWord64_eq_ok_iff
  · cases i with
    | name | value => exact said.elim
    | description => exact ⟨_, rfl, fun _ => said ▸ rfl⟩

theorem safe_fieldLeeway : fieldLeeway.Safe decodeFieldEntry := by
  refine Leeway.safe_record unambiguous_fieldSchema (fun i => ?_) (fun i node said => ?_)
  · cases i with
    | name | description => exact Leeway.safe_text _
    | width | lsb => exact Leeway.safe_number decodeWord32_eq_ok_iff
    | reset => exact Leeway.safe_number decodeWord64_eq_ok_iff
    | access => exact Leeway.safe_variant _
    | modifiers => exact Leeway.safe_list (Leeway.safe_variant _)
    | values => exact Leeway.safe_list safe_valueLeeway
  · cases i with
    | name => exact said.elim
    | description | modifiers | values => exact ⟨_, rfl, fun _ => said ▸ rfl⟩
    | width | lsb => exact ⟨_, rfl, fun _ => decodeWord32_eq_ok_iff.mpr said⟩
    | reset => exact ⟨_, rfl, fun _ => decodeWord64_eq_ok_iff.mpr said⟩
    | access => exact ⟨_, rfl, Names.decoded said⟩

theorem safe_registerLeeway : registerLeeway.Safe decodeRegisterEntry := by
  refine Leeway.safe_record unambiguous_registerSchema (fun i => ?_) (fun i node said => ?_)
  · cases i with
    | name | description => exact Leeway.safe_text _
    | address => exact Leeway.safe_number decodeWord64_eq_ok_iff
    | fields => exact Leeway.safe_list safe_fieldLeeway
  · cases i with
    | name | address => exact said.elim
    | description | fields => exact ⟨_, rfl, fun _ => said ▸ rfl⟩

theorem safe_descriptionLeeway : descriptionLeeway.Safe decodeDescription := by
  refine Leeway.safe_record unambiguous_mapSchema (fun i => ?_) (fun i node said => ?_)
  · cases i with
    | name => exact Leeway.safe_text _
    | base => exact Leeway.safe_number decodeWord64_eq_ok_iff
    | registers => exact Leeway.safe_list safe_registerLeeway
  · cases i with
    | name => exact said.elim
    | base => exact ⟨_, rfl, fun _ => decodeWord64_eq_ok_iff.mpr said⟩
    | registers => exact ⟨_, rfl, fun _ => said ▸ rfl⟩

/-- The places of a document where there is room for 32 bits only. -/
inductive Narrow (tree : Node) : Node → Prop
  | width {register field node} : mapSchema.Lists .registers tree register →
      registerSchema.Lists .fields register field → fieldSchema.Holds .width field node →
      Narrow tree node
  | lsb {register field node} : mapSchema.Lists .registers tree register →
      registerSchema.Lists .fields register field → fieldSchema.Holds .lsb field node →
      Narrow tree node

theorem exists_field_of_description {format : Format} {tree register field : Node} {d : Description}
    (accepted : decodeDescription format tree = .ok d)
    (among : mapSchema.Lists .registers tree register)
    (within : registerSchema.Lists .fields register field) :
    ∃ f, decodeFieldEntry format field = .ok f := by
  obtain ⟨registers, _, held, member⟩ := among
  obtain ⟨_, decoded⟩ := Schema.exists_decoded_of_record unambiguous_mapSchema accepted held
  obtain ⟨r, accepted⟩ := exists_decoded_of_mem (decodeList_eq_ok_iff.mp decoded).1 member
  obtain ⟨fields, _, held, member⟩ := within
  obtain ⟨_, decoded⟩ := Schema.exists_decoded_of_record unambiguous_registerSchema accepted held
  exact exists_decoded_of_mem (decodeList_eq_ok_iff.mp decoded).1 member

/-- What is accepted in such a place is a number of 32 bits. -/
theorem exists_numeric_of_narrow {format : Format} {tree node : Node} {d : Description}
    (accepted : decodeDescription format tree = .ok d) (narrow : Narrow tree node) :
    ∃ n, Numeric n node ∧ n < UInt32.size := by
  cases narrow with
  | width among within held | lsb among within held =>
    obtain ⟨_, accepted⟩ := exists_field_of_description accepted among within
    obtain ⟨v, decoded⟩ := Schema.exists_decoded_of_record unambiguous_fieldSchema accepted held
    exact ⟨v.toNat, decodeWord32_eq_ok_iff.mp decoded, v.toNat_lt⟩

/-- The two ways to write a document. -/
inductive Markup where
  | json
  | toml

namespace Markup

def format : Markup → Format
  | json => .json
  | toml => .toml

/-- The tree of a text that is in order. -/
def tree? : Markup → String → Option Node
  | json, text =>
    match JsonText.read text with
    | (node, true) => some node
    | (_, false) => none
  | toml, text => TomlText.read? text

end Markup

namespace Description

def ofText : Markup → String → Except Problem Description
  | .json => ofJson
  | .toml => ofToml

/-- A description is read off the tree of a text, whatever the markup. -/
theorem ofText_eq_ok_iff {markup : Markup} {text : String} {tree : Node}
    (read : markup.tree? text = some tree) {d : Description} :
    ofText markup text = .ok d ↔ decodeDescription markup.format tree = .ok d := by
  cases markup with
  | json =>
    simp only [Markup.tree?] at read
    split at read
    · rename_i complete
      cases read
      simp [ofText, ofJson, decodeJsonText, complete, Markup.format]
    · cases read
  | toml =>
    have whole : TomlText.read? text = some tree := read
    simp [ofText, ofToml, decodeTomlText, whole, Markup.format]

/-- A description does not depend on how it is spelled: keys may come in any order and under any of
their names, numbers as integers or as texts, entries that say no more than their absence may be left
out, and all of it may be written in the other markup. Where there is room for 32 bits, though, what
is no number below `2 ^ 32` is refused. -/
theorem ofText_respelled :
    (∀ {one other : Markup} {text rewritten : String} {tree changed : Node} {d : Description},
      one.tree? text = some tree → other.tree? rewritten = some changed →
      descriptionLeeway.plain tree →
      Relation.ReflTransGen descriptionLeeway.changed tree changed →
      ofText one text = .ok d → ofText other rewritten = .ok d) ∧
    ∀ {markup : Markup} {text : String} {tree node : Node}, markup.tree? text = some tree →
      Narrow tree node → (∀ n, Numeric n node → UInt32.size ≤ n) →
      ∃ problem, ofText markup text = .error problem := by
  constructor
  · intro one other text rewritten tree changed d first second plain changes accepted
    have decoded := (ofText_eq_ok_iff first).mp accepted
    obtain ⟨decoded, plain⟩ := safe_descriptionLeeway.keeps_all plain changes decoded
    exact (ofText_eq_ok_iff second).mpr (safe_descriptionLeeway.format plain decoded)
  · intro markup text tree node read narrow large
    cases result : ofText markup text with
    | error problem => exact ⟨problem, rfl⟩
    | ok d =>
      obtain ⟨n, numeric, small⟩ := exists_numeric_of_narrow ((ofText_eq_ok_iff read).mp result) narrow
      exact absurd small (Nat.not_lt.mpr (large n numeric))

/-- Keys out of order and under other names, a number as a text, and what need not be said. -/
def valveJson : String :=
  "\x7b\"registers\": [\x7b\"name\": \"ctrl\", \"address\": 4, \"bitfields\": [" ++
    "\x7b\"initial\": \"0x1\", \"name\": \"mode\", \"access\": \"ro\", \"lsb\": 0\x7d" ++
    "]\x7d], \"name\": \"valve\"\x7d"

def valveToml : String :=
  "name = \"valve\"\n[[registers]]\nname = \"ctrl\"\naddress = 4\n" ++
    "[[registers.fields]]\nreset = 1\nname = \"mode\"\naccess = \"read-only\"\n"

/-- A width for which 32 bits are one too few. -/
def wideToml : String :=
  "name = \"valve\"\n[[registers]]\nname = \"ctrl\"\naddress = 4\n" ++
    "[[registers.fields]]\nname = \"mode\"\nwidth = \"0x1_0000_0000\"\n"

def valve : Description where
  name := "valve"
  registers := [
    { name := "ctrl"
      address := 4
      fields := [{ name := "mode", access := .readOnly, reset := 1 }] }]

def modeNode (reset : String × Node) (access : String) (more : List (String × Node)) : Node :=
  .record (reset :: ("name", .text "mode") :: ("access", .text access) :: more) true

def ctrlNode (fields : String) (field : Node) : Node :=
  .record [("name", .text "ctrl"), ("address", .int 4), (fields, .list [field] true)] true

def registersFirst (register : Node) : Node :=
  .record [("registers", .list [register] true), ("name", .text "valve")] true

def registersLast (register : Node) : Node :=
  .record [("name", .text "valve"), ("registers", .list [register] true)] true

def wideNode : Node := .record [("name", .text "mode"), ("width", .text "0x1_0000_0000")] true

/-- The field of the JSON text. -/
def jsonMode : Node := modeNode ("initial", .text "0x1") "ro" [("lsb", .int 0)]

/-- The field of the TOML text. -/
def tomlMode : Node := modeNode ("reset", .int 1) "read-only" []

open Leeway in
theorem plain_valve : descriptionLeeway.plain (registersFirst (ctrlNode "bitfields" jsonMode)) := by
  have field : fieldLeeway.plain jsonMode := by
    have schema := unambiguous_fieldSchema
    refine (plain_middle_iff schema [] (i := FieldKey.reset) (by decide)).mpr ⟨trivial, ?_⟩
    refine (plain_middle_iff schema [] (i := FieldKey.name) (by decide)).mpr ⟨trivial, ?_⟩
    refine (plain_middle_iff schema [] (i := FieldKey.access) (by decide)).mpr ⟨⟨_, rfl⟩, ?_⟩
    refine (plain_middle_iff schema [] (i := FieldKey.lsb) (by decide)).mpr ⟨trivial, ?_⟩
    exact plain_record_iff.mpr (List.forall_mem_nil _)
  have register : registerLeeway.plain (ctrlNode "bitfields" jsonMode) := by
    have schema := unambiguous_registerSchema
    refine (plain_middle_iff schema [] (i := RegisterKey.name) (by decide)).mpr ⟨trivial, ?_⟩
    refine (plain_middle_iff schema [] (i := RegisterKey.address) (by decide)).mpr ⟨trivial, ?_⟩
    refine (plain_middle_iff schema [] (i := RegisterKey.fields) (by decide)).mpr
      ⟨⟨_, _, rfl, List.forall_mem_singleton.mpr field⟩, ?_⟩
    exact plain_record_iff.mpr (List.forall_mem_nil _)
  have schema := unambiguous_mapSchema
  refine (plain_middle_iff schema [] (i := MapKey.registers) (by decide)).mpr
    ⟨⟨_, _, rfl, List.forall_mem_singleton.mpr register⟩, ?_⟩
  refine (plain_middle_iff schema [] (i := MapKey.name) (by decide)).mpr ⟨trivial, ?_⟩
  exact plain_record_iff.mpr (List.forall_mem_nil _)

theorem mode_changes : Relation.ReflTransGen fieldLeeway.changed jsonMode tomlMode := by
  refine .head (b := modeNode ("reset", .text "0x1") "ro" [("lsb", .int 0)]) ?_ ?_
  · exact .spelling [] (i := FieldKey.reset) (by decide) (by decide)
  refine .head (b := modeNode ("reset", .int 1) "ro" [("lsb", .int 0)]) ?_ ?_
  · exact .content [] (i := FieldKey.reset) (by decide) ⟨1, .text (by cbv), .int 1⟩
  refine .head (b := modeNode ("reset", .int 1) "read-only" [("lsb", .int 0)]) ?_ ?_
  · exact .content [_, _] (i := FieldKey.access) (by decide) ⟨.readOnly, ⟨by decide⟩, ⟨by decide⟩⟩
  exact .single (.omission [_, _, _] (i := FieldKey.lsb) (by decide) (.int 0))

theorem valve_changes : Relation.ReflTransGen descriptionLeeway.changed
    (registersFirst (ctrlNode "bitfields" jsonMode)) (registersLast (ctrlNode "fields" tomlMode)) := by
  have within {register other : Node} (change : registerLeeway.changed register other) :
      descriptionLeeway.changed (registersFirst register) (registersFirst other) :=
    .content [] (i := MapKey.registers) (by decide) (.mk [] change)
  have below {field other : Node} (change : fieldLeeway.changed field other) :
      descriptionLeeway.changed (registersFirst (ctrlNode "bitfields" field))
        (registersFirst (ctrlNode "bitfields" other)) :=
    within (.content [_, _] (i := RegisterKey.fields) (by decide) (.mk [] change))
  have inner : Relation.ReflTransGen descriptionLeeway.changed
      (registersFirst (ctrlNode "bitfields" jsonMode))
      (registersFirst (ctrlNode "bitfields" tomlMode)) :=
    mode_changes.lift (fun field => registersFirst (ctrlNode "bitfields" field)) fun _ _ => below
  refine .tail (b := registersFirst (ctrlNode "fields" tomlMode)) (inner.tail (within ?_)) ?_
  · exact .spelling [_, _] (i := RegisterKey.fields) (by decide) (by decide)
  · exact .order (.swap ..)

theorem narrow_wide : Narrow (registersLast (ctrlNode "fields" wideNode)) (.text "0x1_0000_0000") := by
  have registers : mapSchema.Lists .registers (registersLast (ctrlNode "fields" wideNode))
      (ctrlNode "fields" wideNode) :=
    ⟨_, _, .keyed (by decide) (.tail _ (.head _)), .head _⟩
  have fields : registerSchema.Lists .fields (ctrlNode "fields" wideNode) wideNode :=
    ⟨_, _, .keyed (by decide) (.tail _ (.tail _ (.head _))), .head _⟩
  exact .width registers fields (.keyed (by decide) (.tail _ (.head _)))

theorem read_valveJson :
    Markup.json.tree? valveJson = some (registersFirst (ctrlNode "bitfields" jsonMode)) := by
  cbv

theorem read_valveToml :
    Markup.toml.tree? valveToml = some (registersLast (ctrlNode "fields" tomlMode)) := by
  cbv

theorem read_wideToml :
    Markup.toml.tree? wideToml = some (registersLast (ctrlNode "fields" wideNode)) := by
  cbv

theorem large_of_numeric {n : Nat} (numeric : Numeric n (.text "0x1_0000_0000")) :
    UInt32.size ≤ n := by
  have large : readNumeral "0x1_0000_0000" = .ok UInt32.size := by cbv
  cases numeric with
  | text read =>
    cases large.symm.trans read
    exact Nat.le_refl _

theorem ofText_valveJson : ofText .json valveJson = .ok valve := by
  refine (ofText_eq_ok_iff read_valveJson).mpr ?_
  cbv

theorem ofText_respelled_valve :
    ofText .json valveJson = .ok valve ∧ ofText .toml valveToml = .ok valve ∧
      ∃ problem, ofText .toml wideToml = .error problem := by
  refine ⟨ofText_valveJson, ?_, ?_⟩
  · exact ofText_respelled.1 read_valveJson read_valveToml plain_valve valve_changes ofText_valveJson
  · exact ofText_respelled.2 read_wideToml narrow_wide fun _ => large_of_numeric

end Description

end RegisterMap
