import RegisterMap.Accessors.Text
import RegisterMap.Bindings.Text
import RegisterMap.Dump
import RegisterMap.Header.Text
import RegisterMap.Manual.Text

namespace RegisterMap

/-- What makes a file of a map. -/
inductive Generator where
  | header
  | bindings
  | accessors
  | dump
  | manual
  deriving DecidableEq, Repr

namespace Generator

def all : List Generator := [header, bindings, accessors, dump, manual]

/-- The name in build specifications. -/
def name : Generator → String
  | header => "c-header"
  | bindings => "rust"
  | accessors => "python"
  | dump => "json"
  | manual => "markdown"

def names : List (String × Generator) := all.map fun g => (g.name, g)

end Generator

/-- A file to generate from a map. -/
inductive Target where
  /-- A C header; `lead` is what its names begin with, the name of the map if not given. -/
  | header (path : Path) (lead : Option String)
  | bindings (path : Path)
  | accessors (path : Path)
  | dump (path : Path)
  | manual (path : Path) (options : Manual.Options)
  deriving DecidableEq, Repr

namespace Target

def generator : Target → Generator
  | header .. => .header
  | bindings _ => .bindings
  | accessors _ => .accessors
  | dump _ => .dump
  | manual .. => .manual

/-- Where the file belongs, seen from the output directory. -/
def path : Target → Path
  | header path _ | bindings path | accessors path | dump path | manual path _ => path

/-- The file of a target. A checked map leaves nothing that could fail here. -/
def emit (m : AddressMap) : Target → Artifact
  | header path lead => Header.artifact path lead m
  | bindings path => Bindings.artifact path m
  | accessors path => Accessors.artifact path m
  | dump path => Dump.artifact path m
  | manual path options => Manual.artifact path options m

end Target

end RegisterMap
