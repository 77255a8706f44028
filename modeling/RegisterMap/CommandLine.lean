import RegisterMap.Build
import RegisterMap.CommandLine.Arguments

namespace RegisterMap.CommandLine

/-- Text filled up to a width by spaces at its end. -/
def fillTo (width : Nat) (text : String) : String :=
  text ++ String.ofList (List.replicate (width - text.length) ' ')

def summaryLine (m : AddressMap) : String :=
  m.name ++ ": " ++ decimal m.registers.length ++ " registers, " ++ decimal m.reserved.length ++
    " reserved spans, " ++ hexLiteral m.base ++ ".." ++ hexLiteral m.stop ++ " (" ++
    decimal m.word.bits ++ "-bit words)"

def registerLine (r : Register) : String :=
  "  " ++ hexPadded 8 r.address ++ " " ++ fillTo 16 r.name ++ " " ++ r.access.short ++ " reset=" ++
    hexLiteral r.reset

/-- What is printed about a map that passes all checks. -/
def summary (m : AddressMap) : List String := summaryLine m :: m.registers.map registerLine

section

variable {m : Type → Type} [Monad m] [Host m]

def runBuild (spec : Path) (targets : List String) (out : Option Path) (check : Bool) :
    BuildM m Unit := do
  log .info ("Building register map from " ++ spec.text)
  let artifacts ← buildFile spec targets out (if check then .check else .write)
  let count := decimal artifacts.length
  if check then log .info (count ++ " generated files are up to date")
  else log .info ("Generated " ++ count ++ " files")

def runValidate (file spec : Option Path) : BuildM m Unit := do
  let map ← match spec, file with
    | some spec, file => validateSpec spec file
    | none, some file => compileFile {} file
    | none, none => throw .nothingToValidate
  (summary map).forM fun line => ExceptT.lift (Host.print line)

def runCommand : Command → BuildM m Unit
  | .build spec targets out check => runBuild spec targets out check
  | .validate file spec => runValidate file spec

/-- How a command ends: the exit status, and what goes to the error output. -/
structure Ending where
  status : Nat
  errors : String := ""
  deriving DecidableEq, Repr

def Ending.of : Except Failure Unit → Ending
  | .ok () => { status := 0 }
  | .error failure => { status := 1, errors := "Error: " ++ failure.message FileError.text ++ "\n" }

end

/-- The answer to a question for the version. -/
def versionText : String := "xtask 0.1.0"

/-- How the tool is called. -/
def usage : List String :=
  ["Register map tooling",
    "",
    "Usage: xtask [OPTIONS] regmap <COMMAND>",
    "",
    "Commands:",
    "  build     Generate the targets of a build specification",
    "  validate  Compile a register map description and report the first violation",
    "",
    "Options of build:",
    "  -s, --spec <FILE>    Build specification file [default: regbuild.toml]",
    "  -t, --target <NAME>  Target to generate (repeatable)",
    "  -o, --out <DIR>      Output directory",
    "      --check          Check that the generated files are up to date",
    "",
    "Options of validate:",
    "  [FILE]               Register map description (.json or .toml)",
    "  -s, --spec <FILE>    Build specification whose configuration is applied",
    "",
    "Options:",
    "  -v, --verbose        Enable debug logging",
    "  -h, --help           Print help",
    "  -V, --version        Print version"]

section

variable {m : Type → Type} [Monad m] [Host m]

/-- Carries out a request. Arguments that are refused end with status 2. -/
def respond : Request → m Ending
  | .run _ command => do
    let result ← (runCommand command).run
    return .of result
  | .help => do
    usage.forM Host.print
    return { status := 0 }
  | .version => do
    Host.print versionText
    return { status := 0 }
  | .refused => return { status := 2, errors := "error: arguments not understood; try '--help'\n" }

end

end RegisterMap.CommandLine
