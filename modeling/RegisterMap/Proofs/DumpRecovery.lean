import RegisterMap.Description.Schema
import RegisterMap.Proofs.DumpNumbers

namespace RegisterMap

/-- The number under a key. -/
def Node.natAt (node : Node) (key : String) : Nat :=
  match node.get? key with
  | some (.int n) => n.toNat
  | _ => 0

namespace Dump

def valueIn (node : Node) : NamedValue where
  name := node.textAt "name"
  value := node.natAt "value"
  description := node.textAt "description"

def modifierIn : Node → Option Modifier
  | .text name => modifierNames.lookup name
  | _ => none

def fieldIn (node : Node) : Option Field := do
  let access ← accessNames.lookup (node.textAt "access")
  let modifiers ← (node.itemsAt "modifiers").mapM modifierIn
  return {
    name := node.textAt "name"
    description := node.textAt "description"
    width := node.natAt "width"
    lsb := node.natAt "lsb"
    access, modifiers
    reset := node.natAt "reset"
    values := (node.itemsAt "enums").map valueIn }

def registerIn (node : Node) : Option Register := do
  let fields ← (node.itemsAt "fields").mapM fieldIn
  return {
    name := node.textAt "name"
    description := node.textAt "description"
    address := node.natAt "address"
    fields }

def spanIn (node : Node) : ReservedSpan where
  start := node.natAt "start_address"
  words := node.natAt "words"

/-- The map that a tree is of. Masks, resets of registers and whatever else follows from the rest are
passed over. -/
def mapIn (node : Node) : Option AddressMap := do
  let word ← Word.ofBits? (node.natAt "data_width")
  let registers ← (node.itemsAt "registers").mapM registerIn
  return {
    name := node.textAt "name"
    base := node.natAt "base_address"
    word, registers
    reserved := (node.itemsAt "reserved").map spanIn }

/-- The map that a file is a dump of. -/
def mapOf? (content : String) : Option AddressMap :=
  match JsonText.read content with
  | (node, true) => mapIn node
  | (_, false) => none

theorem mapM_map_of_inverse {α β : Type} {write : α → β} {read : β → Option α}
    (back : ∀ a, read (write a) = some a) (l : List α) : (l.map write).mapM read = some l := by
  induction l with
  | nil => rfl
  | cons a rest ih =>
    rw [List.map_cons, List.mapM_cons, back, ih]
    rfl

theorem map_map_of_inverse {α β : Type} {write : α → β} {read : β → α}
    (back : ∀ a, read (write a) = a) (l : List α) : (l.map write).map read = l := by
  rw [List.map_map]
  exact (List.map_congr_left fun a _ => back a).trans (List.map_id l)

theorem valueIn_ofValue (v : NamedValue) : valueIn (ofValue v).node = v := rfl

theorem spanIn_ofSpan (s : ReservedSpan) : spanIn (ofSpan s).node = s := rfl

theorem lookup_short (access : Access) : accessNames.lookup access.short = some access := by
  cases access <;> decide

theorem modifierIn_name (m : Modifier) : modifierIn (Json.node (.str m.name)) = some m := by
  cases m <;> decide

theorem itemsAt_modifiers (f : Field) : (ofField f).node.itemsAt "modifiers" =
    f.modifiers.map fun m => Json.node (.str m.name) :=
  nodes_map (fun m : Modifier => Json.str m.name) f.modifiers

theorem itemsAt_reserved (m : AddressMap) :
    (ofMap m).node.itemsAt "reserved" = m.reserved.map fun s => (ofSpan s).node :=
  nodes_map ofSpan m.reserved

theorem fieldIn_ofField (f : Field) : fieldIn (ofField f).node = some f := by
  have access : (ofField f).node.textAt "access" = f.access.short := rfl
  simp only [fieldIn, access, lookup_short, itemsAt_modifiers, mapM_map_of_inverse modifierIn_name,
    itemsAt_values, map_map_of_inverse valueIn_ofValue]
  rfl

theorem registerIn_ofRegister (r : Register) : registerIn (ofRegister r).node = some r := by
  simp only [registerIn, itemsAt_fields, mapM_map_of_inverse fieldIn_ofField]
  rfl

/-- Nothing of a map is missing in its tree. -/
theorem mapIn_ofMap (m : AddressMap) : mapIn (ofMap m).node = some m := by
  have bits : (ofMap m).node.natAt "data_width" = m.word.bits := rfl
  simp only [mapIn, bits, Word.ofBits?_bits, itemsAt_registers,
    mapM_map_of_inverse registerIn_ofRegister, itemsAt_reserved, map_map_of_inverse spanIn_ofSpan]
  rfl

theorem mapOf?_artifact {m : AddressMap} (bounded : m.Bounded) (ends : m.Ends) (path : Path) :
    mapOf? (artifact path m).content = some m := by
  rw [mapOf?, read_artifact bounded ends path]
  exact mapIn_ofMap m

/-- The dump of a compiled map is a JSON text of its whole tree, and the map is recovered from that
text alone, so that no two maps have the same dump. -/
theorem compile_dump_recovered {config : Config} {d : Description} {m : AddressMap}
    (compiled : compile config d = .ok m) (path : Path) :
    JsonText.read (artifact path m).content = ((ofMap m).node, true) ∧
      mapOf? (artifact path m).content = some m ∧
      ∀ (other : Config) (e : Description) (n : AddressMap) (otherPath : Path),
        compile other e = .ok n →
          (artifact path m).content = (artifact otherPath n).content → m = n := by
  obtain ⟨word, sound, rfl⟩ := compile_eq_ok_iff.mp compiled
  have recovered := mapOf?_artifact sound.bounded sound.ends path
  refine ⟨read_artifact sound.bounded sound.ends path, recovered, ?_⟩
  intro other e n otherPath compiled same
  obtain ⟨word, sound, rfl⟩ := compile_eq_ok_iff.mp compiled
  rw [same, mapOf?_artifact sound.bounded sound.ends otherPath] at recovered
  exact (Option.some.inj recovered).symm

/-- A register of a full 64-bit word, near the end of the address space, with quotes, a backslash
and a control character in its texts. -/
def full : Description where
  name := "dma"
  base := 0xffff_ffff_ffff_ffe8
  registers :=
    [{ name := "PTR", address := 0xffff_ffff_ffff_fff0, description := "the \"raw\" \\ pointer",
       fields :=
         [{ name := "ALL", width := 64, reset := 0xffff_ffff_ffff_ffff,
            description := "a\u0001b",
            values := [{ name := "TOP", value := 0xffff_ffff_ffff_ffff }] }] }]

def fullMap : AddressMap := full.mapOf { dataWidth := 64 } .w64

theorem compile_dump_full :
    compile { dataWidth := 64 } full = .ok fullMap ∧
      mapOf? (artifact ⟨"dma.json"⟩ fullMap).content = some fullMap ∧
      (artifact ⟨"dma.json"⟩ fullMap).content ≠
        (artifact ⟨"pwm.json"⟩ (pwm.mapOf {} .w32)).content := by
  have compiled : compile { dataWidth := 64 } full = .ok fullMap :=
    compile_eq_ok_iff.mpr ⟨.w64, by decide +kernel, rfl⟩
  obtain ⟨_, recovered, injective⟩ := compile_dump_recovered compiled ⟨"dma.json"⟩
  refine ⟨compiled, recovered, fun same => ?_⟩
  have equal := injective {} pwm _ ⟨"pwm.json"⟩ compile_pwm same
  exact absurd equal (by decide +kernel)

end Dump

end RegisterMap
