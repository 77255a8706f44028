import RegisterMap.FileSystem

namespace RegisterMap

inductive LogLevel where
  | debug
  | info
  deriving DecidableEq, Repr

/-- What a build asks of its surroundings. -/
class Host (m : Type → Type) where
  readFile : Path → m (Except FileError String)
  makeDirectories : Path → m (Except FileError Unit)
  /-- Writes a file. A write that fails leaves the file as it was. -/
  writeFile : Path → String → m (Except FileError Unit)
  log : LogLevel → String → m Unit
  print : String → m Unit

/-- A line that a build puts out. -/
inductive Output where
  | log (level : LogLevel) (message : String)
  | line (text : String)
  deriving DecidableEq, Repr

namespace Output

/-- The line as it is shown. Debug messages are shown only where they are asked for. -/
def shown? (verbose : Bool) : Output → Option String
  | log .debug message => if verbose then some ("DEBUG " ++ message) else none
  | log .info message => some ("INFO " ++ message)
  | line text => some text

end Output

/-- Files in memory, and what was put out so far. -/
structure Session where
  files : FileSystem
  output : List Output := []
  deriving Repr

namespace Session

def put (o : Output) (s : Session) : Session := { s with output := s.output ++ [o] }

/-- Whether an operation succeeded, and the session after it. -/
def ran (s : Session) (files : FileSystem) (result : Except FileError Unit) :
    Except FileError Unit × Session :=
  (result, { s with files })

instance : Host (StateM Session) where
  readFile path := fun s => (s.files.read path, s)
  makeDirectories path := fun s =>
    let (files, result) := s.files.makeDirectories path
    s.ran files result
  writeFile path content := fun s =>
    match s.files.write path content with
    | .ok files => s.ran files (.ok ())
    | .error e => (.error e, s)
  log level message := fun s => ((), s.put (.log level message))
  print text := fun s => ((), s.put (.line text))

end Session

end RegisterMap
