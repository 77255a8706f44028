import RegisterMap.Text.Quoted

namespace RegisterMap

/-- Puts an entry where its key belongs in a list in order of keys; of two entries with one key
the later one counts. -/
def putEntry {α : Type} (key : String) (a : α) : List (String × α) → List (String × α)
  | [] => [(key, a)]
  | (k, b) :: rest =>
    if key < k then (key, a) :: (k, b) :: rest
    else if key = k then (key, a) :: rest
    else (k, b) :: putEntry key a rest

/-- A document as a tree, as far as its text could be read. Where the text of a document breaks
off, the tree ends in a `broken` node or in a list or record that is not `whole`; everything
before that place is there, so a fault of shape that comes first in the text is still found. -/
inductive Node where
  | null
  | bool (b : Bool)
  | int (i : Int)
  /-- Any other number, by the text that messages show. -/
  | real (shown : String)
  | text (s : String)
  /-- A date or time, by its standard text. -/
  | date (shown : String)
  | list (items : List Node) (whole : Bool)
  | record (entries : List (String × Node)) (whole : Bool)
  /-- A record that opens with something that is no key. -/
  | unkeyed (first : Node)
  | broken
  deriving Repr

namespace Node

/-- What a message calls a node that is not what was expected. -/
def shown : Node → String
  | null => "null"
  | bool b => "boolean `" ++ (if b then "true" else "false") ++ "`"
  | int i => "integer `" ++ toString i ++ "`"
  | real shown => "floating point `" ++ shown ++ "`"
  | text s => "string " ++ quoted s
  | list _ _ => "sequence"
  | date _ | record _ _ | unkeyed _ => "map"
  | broken => ""

mutual

/-- Whether all of a node could be read. -/
def intact : Node → Bool
  | list items whole => whole && intactItems items
  | record entries whole => whole && intactEntries entries
  | unkeyed _ => false
  | broken => false
  | _ => true

def intactItems : List Node → Bool
  | [] => true
  | item :: rest => item.intact && intactItems rest

def intactEntries : List (String × Node) → Bool
  | [] => true
  | (_, node) :: rest => node.intact && intactEntries rest

end

mutual

/-- The tree that memory holds: records in order of keys, each key once. -/
def arranged : Node → Node
  | list items whole => .list (arrangedItems items) whole
  | record entries whole => .record (arrangedEntries [] entries) whole
  | node => node

def arrangedItems : List Node → List Node
  | [] => []
  | item :: rest => item.arranged :: arrangedItems rest

def arrangedEntries (done : List (String × Node)) : List (String × Node) → List (String × Node)
  | [] => done
  | (key, node) :: rest => arrangedEntries (putEntry key node.arranged done) rest

end

/-- The value of a key of a record. -/
def get? : Node → String → Option Node
  | record entries _, key => entries.lookup key
  | _, _ => none

end Node

end RegisterMap
