import RegisterMap.Compile
import RegisterMap.Document.Reading
import RegisterMap.Target.Schema

namespace RegisterMap

/-- What to build: the description of a map, the configuration that it is compiled with, and the
targets in the order of their names. -/
structure BuildSpec where
  regmap : Path
  config : Config := {}
  targets : List (String × Target) := []
  deriving DecidableEq, Repr

inductive ConfigKey where
  | dataWidth
  | nameCase
  | base
  deriving DecidableEq

def nameCases : List (String × NameCase) :=
  [("none", .asWritten), ("upper", .upper), ("lower", .lower)]

def configSchema : Schema ConfigKey where
  title := "struct GlobalConfig"
  keys := [.dataWidth, .nameCase, .base]
  name
    | .dataWidth => "data_width"
    | .nameCase => "name_case"
    | .base => "base_address"
  spellings
    | .dataWidth => ["data_width"]
    | .nameCase => ["name_case"]
    | .base => ["base_address"]
  Value
    | .dataWidth => UInt32
    | .nameCase => NameCase
    | .base => Option UInt64
  fallback
    | .dataWidth => some ({} : Config).dataWidth
    | .nameCase => some ({} : Config).nameCase
    | .base => some ({} : Config).base
  decode
    | .dataWidth => decodeWord32
    | .nameCase => decodeVariant nameCases
    | .base => fun format node => (decodeWord64 format node).map some

def decodeConfig : Decoder Config := configSchema.record fun get => do
  let dataWidth ← get .dataWidth
  let nameCase ← get .nameCase
  let base ← get .base
  return { dataWidth, nameCase, base }

/-- Targets are decoded in the order of the document. -/
def decodeTargets : Decoder (List (String × Target))
  | format, .record entries _ => collect format [] entries
  | format, .date shown => collect format [] [(Schema.dateKey, .text shown)]
  | _, node => node.mismatch "a map"
where
  collect (format : Format) (done : List (String × Target)) :
      List (String × Node) → Except Problem (List (String × Target))
    | [] => .ok done
    | (name, node) :: rest => do
      let target ← decodeTarget format node
      collect format (putEntry name target done) rest

inductive SpecKey where
  | regmap
  | config
  | targets
  deriving DecidableEq

def specSchema : Schema SpecKey where
  title := "struct BuildSpec"
  keys := [.regmap, .config, .targets]
  name
    | .regmap => "regmap"
    | .config => "globcfg"
    | .targets => "targets"
  spellings
    | .regmap => ["regmap"]
    | .config => ["globcfg"]
    | .targets => ["targets"]
  Value
    | .regmap => String
    | .config => Config
    | .targets => List (String × Target)
  fallback
    | .regmap => none
    | .config => some ({} : Config)
    | .targets => some []
  decode
    | .regmap => decodeTextAs "path string"
    | .config => decodeConfig
    | .targets => decodeTargets

def decodeSpec : Decoder BuildSpec := specSchema.record fun get => do
  let regmap ← get .regmap
  let config ← get .config
  let targets ← get .targets
  return { regmap := ⟨regmap⟩, config, targets }

namespace BuildSpec

def ofToml : String → Except Problem BuildSpec := decodeTomlText decodeSpec

/-- The path of the description, if the specification stands at a path: it begins where the
specification is. -/
def placedAt (path : Path) (spec : BuildSpec) : BuildSpec :=
  match path.parent? with
  | some dir => { spec with regmap := dir.join spec.regmap }
  | none => spec

/-- The name that stands for all targets. -/
def allTargets : String := "all"

/-- The targets with these names, in the order of the names; all of them if no name is given. The
first name that there is no target for comes back alone. -/
def select (spec : BuildSpec) (names : List String) : Except String (List (String × Target)) :=
  if names.isEmpty || names.contains allTargets then .ok spec.targets
  else names.mapM fun name =>
    match spec.targets.lookup name with
    | some target => .ok (name, target)
    | none => .error name

end BuildSpec

end RegisterMap
