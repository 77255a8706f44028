import RegisterMap.Document.Node

namespace RegisterMap.TomlText

/-- How a table came about. -/
inductive Origin where
  /-- By its own header. -/
  | header
  /-- By the header of a table inside it. It may still get a header of its own. -/
  | innerHeader
  /-- By a dotted key. Only dotted keys may add to it. -/
  | dottedKey
  deriving DecidableEq, Repr

/-- What a key of a table that is being put together stands for. -/
inductive Item where
  | value (node : Node)
  | table (origin : Origin) (entries : List (String × Item))
  /-- Tables under one repeated header. -/
  | series (tables : List (List (String × Item)))

/-- The entries of a table, in the order in which their keys came up. -/
abbrev Entries := List (String × Item)

mutual

def Item.toNode : Item → Node
  | .value node => node
  | .table _ entries => .record (entryNodes entries) true
  | .series tables => .list (tableNodes tables) true

def entryNodes : List (String × Item) → List (String × Node)
  | [] => []
  | (key, item) :: rest => (key, item.toNode) :: entryNodes rest

def tableNodes : List (List (String × Item)) → List Node
  | [] => []
  | entries :: rest => .record (entryNodes entries) true :: tableNodes rest

end

/-- Changes what stands under a key in its place, or puts it at the end. -/
def putItem (key : String) (item : Item) : Entries → Entries
  | [] => [(key, item)]
  | (k, i) :: rest => if k = key then (key, item) :: rest else (k, i) :: putItem key item rest

def removeItem (key : String) (entries : Entries) : Entries := entries.filter (·.1 ≠ key)

/-- Changes the last member of a list. -/
def changeLast {α : Type} (change : α → Option α) : List α → Option (List α)
  | [] => none
  | [a] => (change a).map ([·])
  | a :: b :: rest => (changeLast change (b :: rest)).map (a :: ·)

/-- Changes the table at a path, and creates the tables on the way that are not there. A path of
keys does not enter a table that has a header, one of headers enters any; both go on in the last
table of a series. The change is told how the table came about. -/
def changeAt (dotted : Bool) (change : Origin → Entries → Option Entries) (origin : Origin)
    (entries : Entries) : List String → Option Entries
  | [] => change origin entries
  | key :: path =>
    match entries.lookup key with
    | none => do
      let created := if dotted then Origin.dottedKey else .innerHeader
      let inner ← changeAt dotted change created [] path
      return putItem key (.table created inner) entries
    | some (.value _) => none
    | some (.series tables) => do
      let tables ← changeLast (fun inner => changeAt dotted change .header inner path) tables
      return putItem key (.series tables) entries
    | some (.table old inner) =>
      if dotted && old = .header then none
      else do
        let inner ← changeAt dotted change old inner path
        return putItem key (.table old inner) entries

/-- Gives a value to a dotted key. No key is given a value twice, and the last table on the way
belongs to dotted keys alone. -/
def assign (entries : Entries) (path : List String) (key : String) (node : Node) :
    Option Entries :=
  changeAt true (fun origin inner =>
    if (origin == .dottedKey) == path.isEmpty then none
    else if (inner.lookup key).isSome then none
    else some (inner ++ [(key, .value node)])) .header entries path

/-- Dotted keys and their values. -/
abbrev Assignment := List String × String × Node

def assignAll (entries : Entries) : List Assignment → Option Entries
  | [] => some entries
  | (path, key, node) :: rest => do
    let entries ← assign entries path key node
    assignAll entries rest

/-- Adds the table of a header, with its content. A table that inner headers have created before
keeps what it holds and moves to the end. -/
def addTable (path : List String) (key : String) (content : List Assignment)
    (entries : Entries) : Option Entries :=
  changeAt false (fun _ outer =>
    match outer.lookup key with
    | none => do
      let inner ← assignAll [] content
      return outer ++ [(key, .table .header inner)]
    | some (.table .innerHeader held) => do
      let inner ← assignAll held content
      return removeItem key outer ++ [(key, .table .header inner)]
    | some _ => none) .header entries path

/-- Adds a table to the series of a repeated header. -/
def addToSeries (path : List String) (key : String) (content : List Assignment)
    (entries : Entries) : Option Entries :=
  changeAt false (fun _ outer => do
    let inner ← assignAll [] content
    match outer.lookup key with
    | none => return outer ++ [(key, .series [inner])]
    | some (.series tables) => return putItem key (.series (tables ++ [inner])) outer
    | some _ => none) .header entries path

end RegisterMap.TomlText
