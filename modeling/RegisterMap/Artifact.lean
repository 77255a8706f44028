import RegisterMap.Path

namespace RegisterMap

inductive Language where
  | c
  | rust
  | python
  | json
  | markdown
  deriving DecidableEq, Repr

def Language.name : Language → String
  | c => "C"
  | rust => "Rust"
  | python => "Python"
  | json => "JSON"
  | markdown => "Markdown"

/-- A generated file. Its path begins at the output directory. -/
structure Artifact where
  path : Path
  language : Language
  content : String
  deriving DecidableEq, Repr

/-- What generated files name as their origin. -/
def generatorName : String := "regmap-generator v0.1.0"

end RegisterMap
