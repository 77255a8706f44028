import RegisterMap.Dump
import RegisterMap.Proofs.Bounds
import RegisterMap.Proofs.JsonReading
import RegisterMap.Proofs.NumberTable
import RegisterMap.Proofs.Tiling

namespace RegisterMap

namespace Dump

open Json (Readable)

section

variable {depth : Nat}

theorem readable_ofValue {v : NamedValue} (small : v.value < UInt64.size) :
    Readable (depth + 1) (ofValue v) := by
  refine .obj ?_
  simp only [List.forall_mem_cons]
  exact ⟨.prose _, .str _, .nat small, nofun⟩

theorem readable_ofSpan {s : ReservedSpan} (start : s.start < UInt64.size)
    (words : s.words < UInt64.size) : Readable (depth + 1) (ofSpan s) := by
  refine .obj ?_
  simp only [List.forall_mem_cons]
  exact ⟨.nat start, .nat words, nofun⟩

variable {m : AddressMap} (bounded : m.Bounded) {r : Register} (inside : r ∈ m.registers)
include bounded inside

theorem readable_ofField {f : Field} (within : f ∈ r.fields) :
    Readable (depth + 3) (ofField f) := by
  have place := bounded.inside r inside f within
  have wide := m.word.bits_le
  have size : UInt64.size = 2 ^ 64 := rfl
  have stop : f.stop = f.lsb + f.width := rfl
  have msb : f.msb = f.lsb + f.width - 1 := rfl
  have power : 2 ^ f.width ≤ 2 ^ 64 := Nat.pow_le_pow_right (by decide) (by omega)
  have word : 2 ^ m.word.bits ≤ 2 ^ 64 := Nat.pow_le_pow_right (by decide) wide
  have mask := Field.mask_lt place wide
  have reset := bounded.resets r inside f within
  have values : ∀ j ∈ f.values.map ofValue, Readable (depth + 1) j := by
    refine List.forall_mem_map.mpr fun v of => readable_ofValue ?_
    have value := bounded.values r inside f within v of
    omega
  have modifiers : ∀ j ∈ f.modifiers.map fun m => Json.str m.name, Readable (depth + 1) j :=
    List.forall_mem_map.mpr fun m _ => .str m.name
  refine .obj ?_
  simp only [List.forall_mem_cons]
  exact ⟨.str _, .prose _, .arr values, .nat (by omega), .nat (by omega), .arr modifiers,
    .nat (by omega), .str _, .nat (by omega), .nat (by omega), nofun⟩

theorem readable_ofRegister : Readable (depth + 5) (ofRegister r) := by
  have wide := m.word.bits_le
  have word : 2 ^ m.word.bits ≤ 2 ^ 64 := Nat.pow_le_pow_right (by decide) wide
  have reset : r.reset < 2 ^ m.word.bits := Register.reset_lt fun f within =>
    ⟨bounded.inside r inside f within, bounded.resets r inside f within⟩
  have fields : ∀ j ∈ r.fields.map ofField, Readable (depth + 3) j :=
    List.forall_mem_map.mpr fun f within => readable_ofField bounded inside within
  refine .obj ?_
  simp only [List.forall_mem_cons]
  exact ⟨.str _, .nat (bounded.addresses r inside).2.2, .prose _, .arr fields, .str _,
    .nat (reset.trans_le word), nofun⟩

omit inside in
theorem readable_ofMap (ends : m.Ends) : Readable (depth + 7) (ofMap m) := by
  have bits : m.word.bits < UInt64.size := m.word.bits_le.trans_lt (by decide)
  have registers : ∀ j ∈ m.registers.map ofRegister, Readable (depth + 5) j :=
    List.forall_mem_map.mpr fun r inside => readable_ofRegister bounded inside
  have reserved : ∀ j ∈ m.reserved.map ofSpan, Readable (depth + 5) j :=
    List.forall_mem_map.mpr fun s inside =>
      readable_ofSpan (ends.reserved s inside).1 (ends.reserved s inside).2
  refine .obj ?_
  simp only [List.forall_mem_cons]
  exact ⟨.nat bounded.base, .nat bits, .nat ends.stop, .str _, .arr registers, .arr reserved, nofun⟩

end

/-- A reader finds in the dump of a map the tree that was written. -/
theorem read_artifact {m : AddressMap} (bounded : m.Bounded) (ends : m.Ends) (path : Path) :
    JsonText.read (artifact path m).content = ((ofMap m).node, true) := by
  have content : (artifact path m).content = Line.file (lines m) := by rw [artifact]
  rw [content]
  exact JsonText.read_file (readable_ofMap bounded ends)

end Dump

namespace Node

def textAt (node : Node) (key : String) : String :=
  match node.get? key with
  | some (.text s) => s
  | _ => ""

def itemsAt (node : Node) (key : String) : List Node :=
  match node.get? key with
  | some (.list items _) => items
  | _ => []

/-- The number under a key, by a name of its own. -/
def numberAt (node : Node) (name key : String) : List (String × Nat) :=
  match node.get? key with
  | some (.int n) => [(name, n.toNat)]
  | _ => []

end Node

namespace Dump

/-- The capitals of the name of a node. -/
def capitals (node : Node) : String := asciiUpper (node.textAt "name")

def valueNumbers (before : String) (value : Node) : List (String × Nat) :=
  value.numberAt (before ++ "_" ++ capitals value) "value"

def fieldNumbers (before : String) (field : Node) : List (String × Nat) :=
  let name := before ++ "_" ++ capitals field
  field.numberAt (name ++ "_WIDTH") "width" ++ field.numberAt (name ++ "_LSB") "lsb" ++
    field.numberAt (name ++ "_MASK") "mask" ++ field.numberAt (name ++ "_RESET") "reset"

def registerNumbers (register : Node) : List (String × Nat) :=
  let name := capitals register
  register.numberAt (name ++ "_ADDR") "address" ++ register.numberAt (name ++ "_RESET") "reset" ++
    (register.itemsAt "fields").flatMap (fieldNumbers name)

/-- The constants that a reader of a dump finds, by the names of generated code. -/
def constantsIn (content : String) : List (String × Nat) :=
  let map := (JsonText.read content).1
  map.numberAt "BASE_ADDR" "base_address" ++ (map.itemsAt "registers").flatMap registerNumbers

def valuesIn (content : String) : List (String × Nat) :=
  ((JsonText.read content).1.itemsAt "registers").flatMap fun register =>
    (register.itemsAt "fields").flatMap fun field =>
      (field.itemsAt "enums").flatMap
        (valueNumbers (capitals register ++ "_" ++ capitals field))

theorem nodes_map {α : Type} (tree : α → Json) (l : List α) :
    Json.nodes (l.map tree) = l.map fun a => (tree a).node := by
  induction l with
  | nil => rfl
  | cons a rest ih => rw [List.map_cons, Json.nodes, ih, List.map_cons]

@[simp] theorem capitals_ofRegister (r : Register) :
    capitals (ofRegister r).node = asciiUpper r.name := rfl

@[simp] theorem capitals_ofField (f : Field) : capitals (ofField f).node = asciiUpper f.name := rfl

@[simp] theorem itemsAt_registers (m : AddressMap) :
    (ofMap m).node.itemsAt "registers" = m.registers.map fun r => (ofRegister r).node :=
  nodes_map ofRegister m.registers

@[simp] theorem itemsAt_fields (r : Register) :
    (ofRegister r).node.itemsAt "fields" = r.fields.map fun f => (ofField f).node :=
  nodes_map ofField r.fields

@[simp] theorem itemsAt_values (f : Field) :
    (ofField f).node.itemsAt "enums" = f.values.map fun v => (ofValue v).node :=
  nodes_map ofValue f.values

theorem valueNumbers_ofValue (before : String) (v : NamedValue) :
    valueNumbers before (ofValue v).node = [(before ++ "_" ++ asciiUpper v.name, v.value)] := rfl

theorem fieldNumbers_ofField (r : Register) (f : Field) :
    fieldNumbers (asciiUpper r.name) (ofField f).node = f.numbers r := rfl

theorem registerNumbers_ofRegister (r : Register) :
    registerNumbers (ofRegister r).node = r.numbers := by
  have own : (ofRegister r).node.numberAt (asciiUpper r.name ++ "_ADDR") "address" ++
      (ofRegister r).node.numberAt (asciiUpper r.name ++ "_RESET") "reset" = r.ownNumbers := rfl
  simp [registerNumbers, own, List.flatMap_map, fieldNumbers_ofField, Register.numbers]

variable {m : AddressMap} (bounded : m.Bounded) (ends : m.Ends) (path : Path)
include bounded ends

theorem constantsIn_artifact : constantsIn (artifact path m).content =
    ("BASE_ADDR", m.base) :: m.registers.flatMap Register.numbers := by
  have base : (ofMap m).node.numberAt "BASE_ADDR" "base_address" = [("BASE_ADDR", m.base)] := rfl
  simp [constantsIn, read_artifact bounded ends path, base, List.flatMap_map,
    registerNumbers_ofRegister]

theorem valuesIn_artifact : valuesIn (artifact path m).content =
    m.registers.flatMap Register.valueNumbers := by
  simp [valuesIn, read_artifact bounded ends path, List.flatMap_map, valueNumbers_ofValue,
    ← List.map_eq_flatMap]
  rfl

end Dump

end RegisterMap
