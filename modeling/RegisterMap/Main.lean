import RegisterMap.CommandLine

namespace RegisterMap.Main

/-- The real file system and the standard output. The environment says whether debug messages are
shown. -/
abbrev Console := ReaderT Bool IO

def errorOf : IO.Error → FileError
  | .noFileOrDirectory .. => .notFound
  | .noSuchThing .. => .notFound
  | .alreadyExists .. => .alreadyExists
  | .inappropriateType _ 21 _ => .isDirectory
  | .inappropriateType .. => .notDirectory
  | e => .other (toString e)

def onSystem {α : Type} (action : IO α) : Console (Except FileError α) := do
  try
    let a ← action
    return .ok a
  catch e => return .error (errorOf e)

/-- A directory that is there already is as good as a new one. -/
def makeDirectory (p : Path) : Console (Except FileError Unit) := do
  match ← onSystem (IO.FS.createDir p.text) with
  | .error .notFound => return .error .notFound
  | .error e => do
    -- reading a directory fails by telling what it is
    match ← onSystem (IO.FS.readFile p.text) with
    | .error .isDirectory => return .ok ()
    | _ => return .error e
  | .ok () => return .ok ()

/-- Creates the first directory of a list, after those above it that are not there. -/
def makeChain : List Path → Console (Except FileError Unit)
  | [] => return .ok ()
  | p :: above => do
    if p.text.isEmpty then return .ok ()
    match ← makeDirectory p with
    | .error .notFound =>
      match ← makeChain above with
      | .ok () => makeDirectory p
      | .error e => return .error e
    | result => return result

def show? (o : Output) : Console Unit := do
  match o.shown? (← read) with
  | some line => IO.println line
  | none => pure ()

instance : Host Console where
  readFile path := onSystem (IO.FS.readFile path.text)
  makeDirectories path := makeChain (path.ancestors path.text.length)
  writeFile path content := onSystem (IO.FS.writeFile path.text content)
  log level message := show? (.log level message)
  print text := show? (.line text)

end RegisterMap.Main

open RegisterMap RegisterMap.CommandLine in
def main (args : List String) : IO UInt32 := do
  let request := Request.ofArguments args
  let verbose := match request with
    | .run verbose _ => verbose
    | _ => false
  let ending ← (respond (m := Main.Console) request).run verbose
  IO.eprint ending.errors
  return UInt32.ofNat ending.status
