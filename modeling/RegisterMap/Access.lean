namespace RegisterMap

/-- What software may do to a field or register. -/
inductive Access where
  | readOnly
  | writeOnly
  | readWrite
  deriving DecidableEq, Repr

namespace Access

def canRead : Access → Bool
  | writeOnly => false
  | _ => true

def canWrite : Access → Bool
  | readOnly => false
  | _ => true

/-- The two-letter form. -/
def short : Access → String
  | readOnly => "ro"
  | writeOnly => "wo"
  | readWrite => "rw"

def long : Access → String
  | readOnly => "read-only"
  | writeOnly => "write-only"
  | readWrite => "read-write"

end Access

/-- A side effect that goes with a field's access mode. -/
inductive Modifier where
  | selfClear
  | write1ToClear
  | write1ToToggle
  | readToClear
  | readConst
  | externalUpdate
  | memory
  deriving DecidableEq, Repr

namespace Modifier

/-- The name in descriptions and documents. -/
def name : Modifier → String
  | selfClear => "self_clear"
  | write1ToClear => "write1_to_clear"
  | write1ToToggle => "write1_to_toggle"
  | readToClear => "read_to_clear"
  | readConst => "read_const"
  | externalUpdate => "external_update"
  | memory => "memory"

/-- The name in messages. -/
def title : Modifier → String
  | selfClear => "SelfClear"
  | write1ToClear => "Write1ToClear"
  | write1ToToggle => "Write1ToToggle"
  | readToClear => "ReadToClear"
  | readConst => "ReadConst"
  | externalUpdate => "ExternalUpdate"
  | memory => "Memory"

/-- All modifiers, in the order in which combinations list them. -/
def all : List Modifier :=
  [selfClear, write1ToClear, write1ToToggle, readToClear, readConst, externalUpdate, memory]

def rank (m : Modifier) : Nat := all.idxOf m

/-- The combinations that make sense under an access mode, each in order of rank. -/
def combinations : Access → List (List Modifier)
  | .readWrite =>
    [[], [externalUpdate], [write1ToClear, externalUpdate], [write1ToToggle, externalUpdate],
      [memory]]
  | .writeOnly => [[], [selfClear], [memory]]
  | .readOnly =>
    [[], [readConst], [externalUpdate], [readToClear, externalUpdate], [memory]]

/-- Whether modifiers, brought into order, are one of the combinations. Their order does not
matter, and none may be given twice. -/
def supported (access : Access) (modifiers : List Modifier) : Bool :=
  (combinations access).contains (modifiers.mergeSort fun a b => decide (a.rank ≤ b.rank))

end Modifier

end RegisterMap
