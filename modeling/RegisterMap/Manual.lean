import RegisterMap.AddressMap
import RegisterMap.Artifact
import RegisterMap.BitRun
import RegisterMap.Json
import RegisterMap.Text.LetterCase

namespace RegisterMap.Manual

/-- What a manual shows. -/
structure Options where
  title : String := "Register map"
  /-- Tables of access modes and modifiers. -/
  conventions : Bool := true
  /-- A diagram of the bits of each register. -/
  images : Bool := false
  deriving DecidableEq, Repr

/-- The last cell of a row: words of the manual itself, or a description. -/
inductive Note where
  | words (text : String)
  | description (text : String)
  deriving DecidableEq, Repr

structure Row where
  cells : List String
  note : Note
  deriving DecidableEq, Repr

/-- A piece of a manual. -/
inductive Block where
  | title (text : String)
  | chapter (name : String)
  | paragraph (text : String)
  | description (text : String)
  | table (columns : List String) (rows : List Row)
  | diagram (content : Json)
  deriving Repr

/-- A number in as many digits as its word has. -/
def wordHex (word : Word) (n : Nat) : String := hexPadded (word.bits / 4) n

/-- The bits between two, both included. -/
def bitRange (msb lsb : Nat) : String :=
  if msb = lsb then decimal lsb else decimal msb ++ ":" ++ decimal lsb

def fieldMode (f : Field) : String :=
  if f.modifiers.isEmpty then f.access.short
  else f.access.short ++ " (" ++ ", ".intercalate (f.modifiers.map Modifier.name) ++ ")"

def accessMeaning : Access → String
  | .readWrite => "Read and Write. The field can be read or written."
  | .readOnly => "Read Only. Write has no effect."
  | .writeOnly => "Write Only. Zeros are always read."

def modifierMeaning : Modifier → String
  | .selfClear => "Self Clear. The field is cleared on the next clock tick after write."
  | .write1ToClear => "Write 1 to Clear. Writing 1 to a bit clears it."
  | .write1ToToggle => "Write 1 to Toggle. Writing 1 to a bit inverts it."
  | .readToClear => "Read to Clear. The field is cleared after every read."
  | .readConst => "Read Constant. The field always reads as its reset value."
  | .externalUpdate => "External Update. The field is updated by hardware."
  | .memory => "Memory. The field is a port to storage outside the register."

/-- What access modes and modifiers mean. -/
def conventionBlocks : List Block :=
  [.chapter "Conventions",
    .table ["Access mode", "Description"]
      ([Access.readWrite, .readOnly, .writeOnly].map fun access =>
        ⟨[access.short], .words (accessMeaning access)⟩),
    .table ["Modifier", "Description"]
      (Modifier.all.map fun m => ⟨[m.name], .words (modifierMeaning m)⟩)]

/-- A run of bits in a diagram. -/
def diagramRun : BitRun → Json
  | .field f =>
    .obj [("attr", .str (asciiUpper f.access.short)), ("bits", .nat f.width),
      ("name", .str (asciiUpper f.name))]
  | .padding width => .obj [("bits", .nat width)]

/-- The diagram of a register, its lowest bits first. -/
def diagramOf (word : Word) (r : Register) : Json :=
  .obj [
    ("config", .obj [("bits", .nat word.bits), ("hspace", .nat 800), ("lanes", .nat 1)]),
    ("reg", .arr ((r.bitRuns word).map diagramRun))]

/-- Rows for the runs of a word from its highest bits down; `top` is the first bit above. -/
def bitRows (top : Nat) : List BitRun → List Row
  | [] => []
  | .field f :: rest =>
    ⟨[f.name, bitRange f.msb f.lsb, fieldMode f, hexLiteral f.reset], .description f.description⟩ ::
      bitRows f.lsb rest
  | .padding width :: rest =>
    ⟨["-", bitRange (top - 1) (top - width), "-", "0x0"], .words "Reserved"⟩ ::
      bitRows (top - width) rest

/-- The named values of a field, where it has any. -/
def valueBlocks (register : String) (f : Field) : List Block :=
  if f.values.isEmpty then []
  else
    [.paragraph ("Enumerated values for " ++ register ++ "." ++ f.name ++ ":"),
      .table ["Name", "Value", "Description"]
        (f.values.map fun v => ⟨[v.name, hexLiteral v.value], .description v.description⟩)]

/-- The section of a register. -/
def registerBlocks (images : Bool) (word : Word) (r : Register) : List Block :=
  [Block.chapter r.name] ++
  (if r.description.isEmpty then [] else [.description r.description]) ++
  [.paragraph ("Address: " ++ wordHex word r.address),
    .paragraph ("Reset value: " ++ wordHex word r.reset),
    .paragraph ("Access: " ++ r.access.long)] ++
  (if images then [.diagram (diagramOf word r)] else []) ++
  [.table ["Name", "Bits", "Mode", "Reset", "Description"]
    (bitRows word.bits (r.bitRuns word).reverse)] ++
  r.fields.flatMap (valueBlocks r.name)

def summaryName : String := "Register map summary"

/-- The line of a register in the summary leads to its section. -/
def summaryRow (word : Word) (r : Register) : Row :=
  ⟨["[" ++ r.name ++ "](#" ++ asciiLower r.name ++ ")", wordHex word r.address],
    .description r.description⟩

/-- All of a manual but the line that closes it. -/
def blocks (options : Options) (m : AddressMap) : List Block :=
  [.title options.title, .paragraph ("Created with " ++ generatorName ++ ".")] ++
  (if options.conventions then conventionBlocks else []) ++
  [.chapter summaryName,
    .paragraph ("Base address: " ++ wordHex m.word m.base),
    .table ["Name", "Address", "Description"] (m.registers.map (summaryRow m.word))] ++
  m.registers.flatMap (registerBlocks options.images m.word)

end RegisterMap.Manual
