import RegisterMap.Document.Decoding

namespace RegisterMap

/-- The keys of a kind of record, in the order of their declaration, and what each of them holds.
A key may have several spellings; one without a fallback is required. -/
structure Schema (ι : Type) where
  title : String
  keys : List ι
  name : ι → String
  spellings : ι → List String
  Value : ι → Type
  fallback : (i : ι) → Option (Value i)
  decode : (i : ι) → Decoder (Value i)

namespace Schema

variable {ι : Type} [DecidableEq ι] (s : Schema ι)

/-- What a record has said about its keys so far. -/
abbrev Filled := (i : ι) → Option (s.Value i)

def nothing : s.Filled := fun _ => none

def put (filled : s.Filled) (i : ι) (v : s.Value i) : s.Filled :=
  fun j => if h : j = i then some (h ▸ v) else filled j

/-- The key with a spelling. -/
def key? (spelling : String) : Option ι := s.keys.find? fun i => (s.spellings i).contains spelling

/-- Every spelling that a record may use. -/
def known : List String := s.keys.flatMap s.spellings

/-- Goes through the entries of a record. A key that is unknown, or said before, is a fault by
itself, whatever its value. -/
def keyed (format : Format) (filled : s.Filled) :
    List (String × Node) → Except Problem s.Filled
  | [] => .ok filled
  | (spelling, node) :: rest =>
    match s.key? spelling with
    | none => .error (.unknownKey spelling s.known)
    | some i =>
      if (filled i).isSome then .error (.repeated (s.name i))
      else do
        let v ← s.decode i format node
        keyed format (s.put filled i v) rest

/-- What a list that falls short of a record is told to be. -/
def expectedLength : String := s.title ++ " with " ++ decimal s.keys.length ++ " elements"

/-- Goes through a record that is written as the list of its values; `place` counts them. Values
may be left out at the end where there is a fallback. What is left of the list comes back. -/
def positional (format : Format) (whole : Bool) (filled : s.Filled) (place : Nat) :
    List ι → List Node → Except Problem (s.Filled × List Node)
  | [], rest => .ok (filled, rest)
  | i :: keys, node :: rest => do
    let v ← s.decode i format node
    positional format whole (s.put filled i v) (place + 1) keys rest
  | i :: keys, [] =>
    if !whole then .error .malformed
    else if (s.fallback i).isSome then positional format whole filled (place + 1) keys []
    else .error (.wrongLength place s.expectedLength)

/-- Surplus elements are a fault of the text in JSON, a fault of shape in a tree, and passed over
in TOML. -/
def checkSurplus (format : Format) (whole : Bool) (length : Nat) (surplus : List Node) :
    Except Problem Unit :=
  match format with
  | .json => if surplus.isEmpty && whole then .ok () else .error .malformed
  | .tree =>
    if surplus.isEmpty then .ok () else .error (.wrongLength length "fewer elements in array")
  | .toml => .ok ()

/-- The key under which a date stands where a record is wanted. -/
def dateKey : String := "$__toml_private_datetime"

/-- What a node says about the keys, whichever way it is written. -/
def fill : Decoder s.Filled
  | format, .record entries whole => do
    let filled ← s.keyed format s.nothing entries
    if whole then return filled else .error .malformed
  | format, .list items whole => do
    let (filled, surplus) ← s.positional format whole s.nothing 0 s.keys items
    checkSurplus format whole items.length surplus
    return filled
  | format, .date shown => s.keyed format s.nothing [(dateKey, .text shown)]
  | _, .unkeyed _ => .error .malformed
  | _, node => node.mismatch s.title

/-- The value of a key, its fallback where the record does not mention it. -/
def get (filled : s.Filled) (i : ι) : Except Problem (s.Value i) :=
  match filled i, s.fallback i with
  | some v, _ => .ok v
  | none, some v => .ok v
  | none, none => .error (.missing (s.name i))

/-- Decodes a record; `build` asks for its keys, and the first one that it misses is told of. -/
def record {α : Type} (build : ((i : ι) → Except Problem (s.Value i)) → Except Problem α) :
    Decoder α := fun format node => do
  let filled ← s.fill format node
  build (s.get filled)

end Schema

end RegisterMap
