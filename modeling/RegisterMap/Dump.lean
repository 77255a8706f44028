import RegisterMap.AddressMap
import RegisterMap.Artifact
import RegisterMap.Json

namespace RegisterMap.Dump

def ofValue (v : NamedValue) : Json :=
  .obj [("description", .prose v.description), ("name", .str v.name), ("value", .nat v.value)]

def ofField (f : Field) : Json :=
  .obj [
    ("access", .str f.access.short),
    ("description", .prose f.description),
    ("enums", .arr (f.values.map ofValue)),
    ("lsb", .nat f.lsb),
    ("mask", .nat f.mask),
    ("modifiers", .arr (f.modifiers.map fun m => .str m.name)),
    ("msb", .nat f.msb),
    ("name", .str f.name),
    ("reset", .nat f.reset),
    ("width", .nat f.width)]

def ofRegister (r : Register) : Json :=
  .obj [
    ("access", .str r.access.short),
    ("address", .nat r.address),
    ("description", .prose r.description),
    ("fields", .arr (r.fields.map ofField)),
    ("name", .str r.name),
    ("reset", .nat r.reset)]

def ofSpan (s : ReservedSpan) : Json :=
  .obj [("start_address", .nat s.start), ("words", .nat s.words)]

/-- All of a map as a tree, with what follows from it: masks, resets and access modes of registers,
and reserved spans. The keys of every record are in order. -/
def ofMap (m : AddressMap) : Json :=
  .obj [
    ("base_address", .nat m.base),
    ("data_width", .nat m.word.bits),
    ("end_address", .nat m.stop),
    ("name", .str m.name),
    ("registers", .arr (m.registers.map ofRegister)),
    ("reserved", .arr (m.reserved.map ofSpan))]

def lines (m : AddressMap) : List Line := (ofMap m).lines 0 "" ""

/-- The dump of a map as a file. -/
def artifact (path : Path) (m : AddressMap) : Artifact where
  path := path
  language := .json
  content := Line.file (lines m)

end RegisterMap.Dump
