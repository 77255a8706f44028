import RegisterMap.BuildSpec
import RegisterMap.Description.Reading
import RegisterMap.Failure
import RegisterMap.Host

namespace RegisterMap

/-- Whether generated files are written, or only compared with those that are there. -/
inductive WriteMode where
  | write
  | check
  deriving DecidableEq, Repr

/-- The description in a text, whose format the ending of its path tells. -/
def Description.ofFile (path : Path) (text : String) : Except Failure Description :=
  match path.extension? with
  | some "json" => (Description.ofJson text).mapError (.badDocument .jsonMap (some path))
  | some "toml" => (Description.ofToml text).mapError (.badDocument .tomlMap (some path))
  | _ => .error (.unknownFormat path)

/-- The specification in a text, with the path of its description made to begin where the
specification is. -/
def BuildSpec.ofFile (path : Path) (text : String) : Except Failure BuildSpec :=
  match BuildSpec.ofToml text with
  | .ok spec => .ok (spec.placedAt path)
  | .error problem => .error (.badDocument .buildSpec (some path) problem)

/-- The targets with these names. -/
def BuildSpec.targetsNamed (spec : BuildSpec) (names : List String) :
    Except Failure (List Target) :=
  match spec.select names with
  | .ok chosen => .ok (chosen.map (·.2))
  | .error name => .error (.unknownTarget name (spec.targets.map (·.1)))

/-- What is noted once a configuration and the name of a map have been accepted. -/
def compileNote? (config : Config) (d : Description) : Option String :=
  match config.word with
  | .error _ => none
  | .ok word =>
    if isIdentifier d.name then
      some ("compiling " ++ d.name ++ " (" ++ decimal d.registers.length ++ " registers, " ++
        decimal word.bits ++ "-bit words, base " ++ hexLiteral (config.baseOf d) ++ ")")
    else none

/-- What is noted about a map that has been accepted. -/
def AddressMap.layoutNote (m : AddressMap) : String :=
  m.name ++ ": " ++ decimal m.reserved.length ++ " reserved spans, end address " ++
    hexLiteral m.stop

def AddressMap.compiledNote (m : AddressMap) : String :=
  "Compiled " ++ m.name ++ ": " ++ decimal m.registers.length ++ " registers, " ++
    decimal m.reserved.length ++ " reserved spans"

/-- What is noted about a file that has been generated. -/
def Target.note (m : AddressMap) (t : Target) : String :=
  m.name ++ ": " ++ t.generator.name ++ " generated " ++ t.path.text ++ " (" ++
    decimal (t.emit m).content.utf8ByteSize ++ " bytes)"

/-- A build may fail, and what it did until then stays. -/
abbrev BuildM (m : Type → Type) := ExceptT Failure m

section

variable {m : Type → Type} [Monad m] [Host m]

def log (level : LogLevel) (message : String) : BuildM m Unit :=
  ExceptT.lift (Host.log level message)

/-- Goes on with a result. -/
def settle {α : Type} (result : Except Failure α) : BuildM m α := ExceptT.mk (pure result)

/-- Goes on with the result of an operation on files, or tells what failed. -/
def attempt {α : Type} (failure : FileError → Failure) (operation : m (Except FileError α)) :
    BuildM m α :=
  ExceptT.mk do
    let result ← operation
    return result.mapError failure

def readFile (path : Path) : BuildM m String := attempt (.notRead path) (Host.readFile path)

def loadDescription (path : Path) : BuildM m Description := do
  let text ← readFile path
  settle (Description.ofFile path text)

def loadSpec (path : Path) : BuildM m BuildSpec := do
  let text ← readFile path
  settle (BuildSpec.ofFile path text)

/-- Compiles the description at a path. -/
def compileFile (config : Config) (path : Path) : BuildM m AddressMap := do
  let d ← loadDescription path
  match compileNote? config d with
  | some note => log .debug note
  | none => pure ()
  let map ← settle ((compile config d).mapError (.invalidMap path))
  log .debug map.layoutNote
  return map

/-- Compiles the description that a specification names. -/
def compileSpec (spec : BuildSpec) : BuildM m AddressMap := compileFile spec.config spec.regmap

/-- The files of targets, in the order of the targets. -/
def emitAll (map : AddressMap) : List Target → BuildM m (List Artifact)
  | [] => return []
  | target :: rest => do
    log .debug (target.note map)
    let others ← emitAll map rest
    return target.emit map :: others

/-- The files of the targets with these names, all of them if no name is given. -/
def buildArtifacts (spec : BuildSpec) (names : List String) : BuildM m (List Artifact) := do
  let targets ← settle (spec.targetsNamed names)
  let map ← compileSpec spec
  log .info map.compiledNote
  emitAll map targets

/-- Writes one file, after the directories above it. -/
def writeArtifact (dir : Path) (a : Artifact) : BuildM m Unit := do
  let dest := dir.join a.path
  match dest.parent? with
  | some above => attempt (.notCreated above) (Host.makeDirectories above)
  | none => pure ()
  attempt (.notWritten dest) (Host.writeFile dest a.content)
  log .info ("Wrote " ++ dest.text ++ " (" ++ a.language.name ++ ")")

/-- Compares one file with the one that is there. -/
def compareArtifact (dir : Path) (a : Artifact) : BuildM m (Option Stale) := do
  let dest := dir.join a.path
  let existing ← ExceptT.lift (Host.readFile dest)
  match existing with
  | .ok content =>
    if content = a.content then do
      log .info (dest.text ++ " is up to date")
      return none
    else return some (.differs dest)
  | .error _ => return some (.missing dest)

/-- What of the files is out of date, in their order. -/
def staleArtifacts (dir : Path) : List Artifact → BuildM m (List Stale)
  | [] => return []
  | a :: rest => do
    let first ← compareArtifact dir a
    let others ← staleArtifacts dir rest
    return first.toList ++ others

/-- Writes files one after the other, or checks that all of them are up to date. -/
def writeArtifacts (dir : Path) (mode : WriteMode) (artifacts : List Artifact) :
    BuildM m Unit :=
  match mode with
  | .write => artifacts.forM (writeArtifact dir)
  | .check => do
    let stale ← staleArtifacts dir artifacts
    if stale.isEmpty then return else throw (.outOfDate stale)

/-- Where files go if no directory is given: to the specification. -/
def outputDirectory (spec : Path) (out : Option Path) : Path :=
  out.getD (spec.parent?.getD ⟨"."⟩)

/-- Builds the targets of a specification. -/
def buildFile (spec : Path) (names : List String) (out : Option Path) (mode : WriteMode) :
    BuildM m (List Artifact) := do
  let loaded ← loadSpec spec
  let artifacts ← buildArtifacts loaded names
  writeArtifacts (outputDirectory spec out) mode artifacts
  return artifacts

/-- Compiles a description, or the one that the specification names, with the configuration of a
specification. -/
def validateSpec (spec : Path) (file : Option Path) : BuildM m AddressMap := do
  let loaded ← loadSpec spec
  match file with
  | some path => compileFile loaded.config path
  | none => compileSpec loaded

end

end RegisterMap
