import RegisterMap.Document.Problem
import RegisterMap.FileSystem
import RegisterMap.Violation

namespace RegisterMap

/-- What a text was taken for. -/
inductive DocumentKind where
  | jsonMap
  | tomlMap
  | buildSpec
  deriving DecidableEq, Repr

def DocumentKind.title : DocumentKind → String
  | jsonMap => "register map JSON"
  | tomlMap => "register map TOML"
  | buildSpec => "build specification"

/-- How a generated file fails to be up to date. -/
inductive Stale where
  | differs (path : Path)
  | missing (path : Path)
  deriving DecidableEq, Repr

def Stale.text : Stale → String
  | differs path => path.text ++ " differs"
  | missing path => path.text ++ " is missing"

/-- Why a build or a check ends early. -/
inductive Failure where
  | notRead (path : Path) (cause : FileError)
  | notCreated (path : Path) (cause : FileError)
  | notWritten (path : Path) (cause : FileError)
  /-- A text, of a file if it has a place, does not say what it should. -/
  | badDocument (kind : DocumentKind) (place : Option Path) (problem : Problem)
  | unknownFormat (path : Path)
  | invalidMap (path : Path) (violation : Violation)
  | unknownTarget (name : String) (available : List String)
  | outOfDate (files : List Stale)
  | nothingToValidate
  deriving DecidableEq, Repr

/-- The message about a document. The readers of its format have no more to say about a text that
is malformed. -/
def documentMessage (kind : DocumentKind) (place : Option Path) (problem : Problem) : String :=
  let location := match place with
    | some path => "in " ++ path.text ++ ": "
    | none => ""
  let details := if problem = .malformed then "" else ": " ++ problem.message
  location ++ "failed to parse " ++ kind.title ++ details

/-- The message, given the words for what the file system refused. -/
def Failure.message (words : FileError → String) : Failure → String
  | notRead path cause => "failed to read " ++ path.text ++ ": " ++ words cause
  | notCreated path cause => "failed to create " ++ path.text ++ ": " ++ words cause
  | notWritten path cause => "failed to write " ++ path.text ++ ": " ++ words cause
  | badDocument kind place problem => documentMessage kind place problem
  | unknownFormat path =>
    path.text ++ ": unknown register map format (expected .json or .toml)"
  | invalidMap path violation => "invalid register map " ++ path.text ++ ": " ++ violation.message
  | unknownTarget name available =>
    "unknown target " ++ quoted name ++ "; available: all, " ++ ", ".intercalate available
  | outOfDate files =>
    "generated files are out of date:\n  " ++ "\n  ".intercalate (files.map Stale.text) ++
      "\nRun `cargo xtask regmap build` to regenerate."
  | nothingToValidate => "nothing to validate; pass a description or --spec"

end RegisterMap
