import RegisterMap.Path

namespace RegisterMap

/-- Why a file operation fails. -/
inductive FileError where
  | notFound
  | isDirectory
  | alreadyExists
  | notDirectory
  /-- What only a real system refuses, in its own words. -/
  | other (words : String)
  deriving DecidableEq, Repr

/-- The text of the system. -/
def FileError.text : FileError → String
  | notFound => "No such file or directory (os error 2)"
  | isDirectory => "Is a directory (os error 21)"
  | alreadyExists => "File exists (os error 17)"
  | notDirectory => "Not a directory (os error 20)"
  | other words => words

/-- The names from the root down. -/
abbrev Location := List String

inductive Entry where
  | file (content : String)
  | directory
  deriving DecidableEq, Repr

/-- Files and directories, and the directory where relative paths begin. The root is always
there. -/
structure FileSystem where
  entries : List (Location × Entry)
  workdir : Location
  deriving Repr

namespace FileSystem

/-- What stands at a location. -/
def find? (fs : FileSystem) (loc : Location) : Option Entry :=
  if loc = [] then some .directory else fs.entries.lookup loc

def set (fs : FileSystem) (loc : Location) (e : Entry) : FileSystem :=
  { fs with entries := (loc, e) :: fs.entries.filter (·.1 ≠ loc) }

def erase (fs : FileSystem) (loc : Location) : FileSystem :=
  { fs with entries := fs.entries.filter (·.1 ≠ loc) }

/-- A location must be a directory for a path to go on from it. -/
def needDirectory (fs : FileSystem) (loc : Location) : Except FileError Unit :=
  match fs.find? loc with
  | some .directory => .ok ()
  | some (.file _) => .error .notDirectory
  | none => .error .notFound

/-- One step from a directory. -/
def step (loc : Location) (name : String) : Location :=
  if name = "." then loc else if name = ".." then loc.dropLast else loc ++ [name]

/-- Follows names from a location. All but the last one have to lead to directories. -/
def walk (fs : FileSystem) (loc : Location) : List String → Except FileError Location
  | [] => .ok loc
  | name :: rest => do
    fs.needDirectory loc
    fs.walk (step loc name) rest

/-- The names in a path. -/
def names (p : Path) : List String :=
  ((p.text.toList.splitOn '/').map String.ofList).filter (· ≠ "")

def origin (fs : FileSystem) (p : Path) : Location := if p.isAbsolute then [] else fs.workdir

/-- The location of a path that may name nothing yet. The empty path names nothing ever. -/
def locate (fs : FileSystem) (p : Path) : Except FileError Location :=
  if p.text.isEmpty then .error .notFound else fs.walk (fs.origin p) (names p)

/-- A path with a slash at its end means a directory. -/
def endsInSlash (p : Path) : Bool := p.text.toList.getLast? == some '/'

/-- Whether a path ends in a name of its own, and not by staying or going up. -/
def endsInName (p : Path) : Bool :=
  match (names p).getLast? with
  | some name => name ≠ "." && name ≠ ".."
  | none => false

def isDirectory (fs : FileSystem) (p : Path) : Bool :=
  match fs.locate p with
  | .ok loc => fs.find? loc == some .directory
  | .error _ => false

/-- The content of a file. -/
def read (fs : FileSystem) (p : Path) : Except FileError String := do
  let loc ← fs.locate p
  match fs.find? loc with
  | none => .error .notFound
  | some .directory => .error .isDirectory
  | some (.file content) => if endsInSlash p then .error .notDirectory else .ok content

/-- Writes a file, over the one that is there. A failed write changes nothing. -/
def write (fs : FileSystem) (p : Path) (content : String) : Except FileError FileSystem := do
  let loc ← fs.locate p
  if !endsInName p || endsInSlash p then .error .isDirectory
  else if fs.find? loc = some .directory then .error .isDirectory
  else return fs.set loc (.file content)

/-- Creates one directory, whose parent has to be there. -/
def makeDirectory (fs : FileSystem) (p : Path) : Except FileError FileSystem := do
  let loc ← fs.locate p
  if !endsInName p then .error .alreadyExists
  else match fs.find? loc with
    | some _ => .error .alreadyExists
    | none => return fs.set loc .directory

/-- Creates the first directory of a list whose others are the directories above it, and before
it those of them that are not there. What was created stays, also where a later step fails. -/
def makeChain (fs : FileSystem) : List Path → FileSystem × Except FileError Unit
  | [] => (fs, .ok ())
  | p :: above =>
    if p.text.isEmpty then (fs, .ok ())
    else match fs.makeDirectory p with
      | .ok made => (made, .ok ())
      | .error .notFound =>
        match fs.makeChain above with
        | (fs, .error e) => (fs, .error e)
        | (fs, .ok ()) =>
          match fs.makeDirectory p with
          | .ok made => (made, .ok ())
          | .error e => (fs, if fs.isDirectory p then .ok () else .error e)
      | .error e => (fs, if fs.isDirectory p then .ok () else .error e)

/-- Creates a directory and all directories above it. -/
def makeDirectories (fs : FileSystem) (p : Path) : FileSystem × Except FileError Unit :=
  fs.makeChain (p.ancestors p.text.length)

/-- The files below the working directory, by the names that lead to them from there. -/
def files (fs : FileSystem) : List (Location × String) :=
  fs.entries.filterMap fun (loc, e) =>
    match e with
    | .file content =>
      if loc.take fs.workdir.length = fs.workdir then some (loc.drop fs.workdir.length, content)
      else none
    | .directory => none

private theorem lookup_filter_of_ne {entries : List (Location × Entry)} {loc other : Location}
    (h : other ≠ loc) : (entries.filter (·.1 ≠ loc)).lookup other = entries.lookup other := by
  induction entries with
  | nil => rfl
  | cons head rest ih =>
    obtain ⟨key, e⟩ := head
    by_cases same : key = loc
    · subst same
      have apart : (other == key) = false := beq_eq_false_iff_ne.mpr h
      simpa [List.lookup_cons, apart] using ih
    · by_cases found : other = key
      · subst found
        simp [same]
      · have apart : (other == key) = false := beq_eq_false_iff_ne.mpr found
        simpa [same, List.lookup_cons, apart] using ih

/-- What is set at a location is found there. -/
theorem find?_set_self (fs : FileSystem) {loc : Location} (e : Entry) (h : loc ≠ []) :
    (fs.set loc e).find? loc = some e := by
  simp [find?, set, h]

/-- Setting one location leaves the others alone. -/
theorem find?_set_of_ne (fs : FileSystem) {loc other : Location} (e : Entry) (h : other ≠ loc) :
    (fs.set loc e).find? other = fs.find? other := by
  have apart : (other == loc) = false := beq_eq_false_iff_ne.mpr h
  simp only [find?, set, List.lookup_cons, apart]
  rw [lookup_filter_of_ne h]

end FileSystem

end RegisterMap
