namespace RegisterMap

/-- A path as it is written. Nothing is resolved: joined paths show in messages as they came
about, `sub/../gpio.json` as well as `./sw/gpio.h`. -/
structure Path where
  text : String
  deriving DecidableEq, Repr

namespace Path

instance : ToString Path := ⟨Path.text⟩

def isAbsolute (p : Path) : Bool := p.text.toList.head? == some '/'

/-- Goes from a directory to a path in it. An absolute path leads away from the directory. -/
def join (dir p : Path) : Path :=
  if p.isAbsolute then p
  else if dir.text.isEmpty || dir.text.toList.getLast? == some '/' then ⟨dir.text ++ p.text⟩
  else ⟨dir.text ++ "/" ++ p.text⟩

/-- The fixed beginning of a path, its root or a first dot, and what follows. -/
def opening : List Char → List Char × List Char
  | '/' :: body => (['/'], body)
  | ['.'] => (['.'], [])
  | '.' :: '/' :: body => (['.'], '/' :: body)
  | body => ([], body)

/-- Doubled slashes and inner dots are no components. -/
def isVoid (component : List Char) : Bool := component == [] || component == ['.']

/-- The components after the opening, the last one first. Void ones after the last are dropped. -/
def componentsBack (p : Path) : List (List Char) :=
  ((opening p.text.toList).2.splitOn '/').reverse.dropWhile isVoid

/-- The path without its last component. There is none above the root and above nothing. -/
def parent? (p : Path) : Option Path :=
  let start := (opening p.text.toList).1
  match p.componentsBack with
  | _ :: rest =>
    let above := (rest.dropWhile isVoid).reverse
    some ⟨String.ofList (start ++ ['/'].intercalate above)⟩
  | [] => if start == ['.'] then some ⟨""⟩ else none

/-- The path, what is above it, and so on. -/
def ancestors (fuel : Nat) (p : Path) : List Path :=
  match fuel, p.parent? with
  | fuel + 1, some above => p :: ancestors fuel above
  | _, _ => [p]

/-- The last component, unless the path ends by going up. -/
def fileName? (p : Path) : Option (List Char) :=
  match p.componentsBack with
  | name :: _ => if name == ['.', '.'] then none else some name
  | [] => none

/-- A file name before and after its last dot. A dot that opens the name parts nothing. -/
def splitName (name : List Char) : List Char × Option (List Char) :=
  let back := name.reverse
  let ending := back.takeWhile (· ≠ '.')
  match back.dropWhile (· ≠ '.') with
  | _ :: c :: rest => ((c :: rest).reverse, some ending.reverse)
  | _ => (name, none)

def stem? (p : Path) : Option String := p.fileName?.map fun name => String.ofList (splitName name).1

def extension? (p : Path) : Option String :=
  p.fileName?.bind fun name => (splitName name).2.map String.ofList

end Path

end RegisterMap
