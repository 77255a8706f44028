import RegisterMap.Artifact
import RegisterMap.Bindings
import RegisterMap.Line

namespace RegisterMap.Bindings

/-- A description above what it describes, where there is one. -/
def docLines (margin description : String) : List Line :=
  if description.isEmpty then [] else [⟨margin ++ "/// ", description, ""⟩]

def Constant.line (c : Constant) : Line :=
  "pub const " ++ c.name ++ ": " ++ c.type.name ++ " = " ++ c.value.text ++ ";"

def Constants.lines (group : Constants) : List Line :=
  .blank :: docLines "    " group.description ++
    group.constants.map fun c => c.line.indent "    "

def BitsValue.line (v : BitsValue) : Line :=
  "                " ++ v.name ++ " = " ++ v.value.text ++ ","

def BitsField.lines (f : BitsField) : List Line :=
  let opening := "            " ++ f.name ++ " OFFSET(" ++ decimal f.offset ++ ") NUMBITS(" ++
    decimal f.width ++ ") ["
  docLines "            " f.description ++
    if f.values.isEmpty then [.plain (opening ++ "],")]
    else .plain opening :: f.values.map BitsValue.line ++ [.plain "            ],"]

def BitsType.lines (t : BitsType) : List Line :=
  .plain ("        pub " ++ t.name ++ " [") :: t.fields.flatMap BitsField.lines ++
    [.plain "        ],"]

/-- The type of a register by its access mode. -/
def cellName : Access → String
  | .readWrite => "ReadWrite"
  | .readOnly => "ReadOnly"
  | .writeOnly => "WriteOnly"

def Content.text (word : IntType) : Content → String
  | .reserved index => "_reserved" ++ decimal index
  | .register name access bits =>
    let details := match bits with
      | some type => ", super::bits::" ++ type ++ "::Register"
      | none => ""
    "pub " ++ name ++ ": tock_registers::registers::" ++ cellName access ++ "<" ++ word.name ++
      details ++ ">"

/-- What the structure of a map has at an offset. -/
def offsetLine (offset : Nat) (content : String) : Line :=
  "            (" ++ hexLiteral offset ++ " => " ++ content ++ "),"

def Entry.line (word : IntType) (e : Entry) : Line := offsetLine e.offset (e.content.text word)

def constantsModule (b : Bindings) : List Line :=
  let opening : List Line :=
    ["pub mod consts \x7b", "    //! Register addresses and field constants."]
  opening ++ b.constants.flatMap Constants.lines ++ [.plain "\x7d"]

/-- The types of all registers that need one. -/
def bitsModule (b : Bindings) : List Line :=
  if b.bits.isEmpty then []
  else
    let opening : List Line := [.blank,
      "pub mod bits \x7b",
      "    //! Types that represent individual registers (bitfields).",
      "    use tock_registers::register_bitfields;",
      "    register_bitfields! \x7b",
      "        " ++ b.word.name ++ ","]
    opening ++ b.bits.flatMap BitsType.lines ++ [.plain "    \x7d", .plain "\x7d"]

/-- The structure of the map, unless it would be empty. -/
def registersModule (b : Bindings) : List Line :=
  if b.entries.isEmpty then []
  else
    let opening : List Line := [.blank,
      "pub mod regs \x7b",
      "    //! Types that represent registers.",
      "    use tock_registers::register_structs;",
      "    register_structs! \x7b",
      "        pub " ++ b.name ++ " \x7b"]
    let ending : List Line :=
      [offsetLine b.size "@END", "        \x7d", "    \x7d", "\x7d"]
    opening ++ b.entries.map (Entry.line b.word) ++ ending

def lines (b : Bindings) : List Line :=
  let opening : List Line := ["// Created with " ++ generatorName, .blank, b.base.line, .blank]
  opening ++ b.constantsModule ++ b.bitsModule ++ b.registersModule

/-- The bindings of a map as a file. -/
def artifact (path : Path) (m : AddressMap) : Artifact where
  path := path
  language := .rust
  content := Line.file (ofMap m).lines

end RegisterMap.Bindings
