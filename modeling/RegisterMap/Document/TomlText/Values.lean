import RegisterMap.Document.TomlText.Moments
import RegisterMap.Document.TomlText.Tables

namespace RegisterMap.TomlText

def isBareKey (c : Char) : Bool := c.isAlphanum || c == '_' || c == '-'

/-- One part of a key, bare or in quotes. -/
def simpleKey : Reader String
  | '"' :: cs => basicAfter [] cs
  | '\'' :: cs => literalAfter [] cs
  | cs =>
    let name := cs.takeWhile isBareKey
    if name.isEmpty then none else some (String.ofList name, cs.dropWhile isBareKey)

/-- A key of one or more parts, with dots between them and white space anywhere around. At most
`parts` of them are read. -/
def keyParts : Nat → Reader (List String)
  | 0, _ => none
  | parts + 1, cs => do
    let (name, rest) ← simpleKey (skipSpace cs)
    match skipSpace rest with
    | '.' :: rest =>
      let (others, rest) ← keyParts parts rest
      return (name :: others, rest)
    | rest => return ([name], rest)

/-- How many levels keys, lists and tables in braces may go down. -/
def nesting : Nat := 79

/-- A key, as the parts that lead to it and its last part. -/
def dottedKey (cs : List Char) : Option ((List String × String) × List Char) := do
  let (parts, rest) ← keyParts nesting cs
  let key ← parts.getLast?
  return ((parts.dropLast, key), rest)

/-- Skips what is left of a line after white space: a comment. -/
def skipComment : List Char → List Char
  | '#' :: cs => cs.dropWhile isPlain
  | cs => cs

/-- Skips white space, comments and ends of lines. A comment has to be ended by its line. -/
def skipVoid (cs : List Char) : List Char :=
  match fuelled cs.length cs with
  | some rest => rest
  | none => cs
where
  fuelled : Nat → List Char → Option (List Char)
    | 0, cs => some cs
    | fuel + 1, cs =>
      match skipLines cs with
      | '#' :: cs => (afterNewline (cs.dropWhile isPlain)).bind (fuelled fuel)
      | rest => some rest

/-- A number, date or time. A date is tried first, since it begins like a number. -/
def numberOrMoment (cs : List Char) : Option (Node × List Char) :=
  match moment cs with
  | some found => some found
  | none =>
    match double cs with
    | some found => some found
    | none =>
      match specialDouble cs with
      | some found => some found
      | none => integer cs

/-- A value that holds no others. -/
def scalar : Reader Node
  | 't' :: 'r' :: 'u' :: 'e' :: rest => some (.bool true, rest)
  | 'f' :: 'a' :: 'l' :: 's' :: 'e' :: rest => some (.bool false, rest)
  | c :: cs =>
    if c = '"' ∨ c = '\'' then (stringValue (c :: cs)).map fun (s, rest) => (.text s, rest)
    else numberOrMoment (c :: cs)
  | [] => none

mutual

/-- A value. Lists and tables in braces may lie in each other `depth` deep. -/
def value (fuel depth : Nat) (cs : List Char) : Option (Node × List Char) :=
  match fuel with
  | 0 => none
  | fuel + 1 =>
    match cs with
    | '[' :: cs =>
      match depth with
      | 0 => none
      | depth + 1 => do
        let (items, rest) ← listItems fuel depth (skipVoid cs)
        return (.list items true, rest)
    | '\x7b' :: cs =>
      match depth with
      | 0 => none
      | depth + 1 =>
        match skipSpace cs with
        | '\x7d' :: rest => some (.record [] true, rest)
        | cs => do
          let (pairs, rest) ← bracedPairs fuel depth cs
          let entries ← assignAll [] pairs
          return (.record (entryNodes entries) true, rest)
    | cs => scalar cs

/-- The items of a list up to its bracket. A comma may follow the last one. -/
def listItems (fuel depth : Nat) (cs : List Char) : Option (List Node × List Char) :=
  match fuel with
  | 0 => none
  | fuel + 1 =>
    match cs with
    | ']' :: rest => some ([], rest)
    | cs => do
      let (item, rest) ← value fuel depth cs
      match skipVoid rest with
      | ']' :: rest => return ([item], rest)
      | ',' :: rest =>
        let (others, rest) ← listItems fuel depth (skipVoid rest)
        return (item :: others, rest)
      | _ => none

/-- The entries of a table in braces up to the closing one. They stand on one line, and no comma
follows the last one. -/
def bracedPairs (fuel depth : Nat) (cs : List Char) : Option (List Assignment × List Char) :=
  match fuel with
  | 0 => none
  | fuel + 1 => do
    let ((path, key), rest) ← dottedKey cs
    match rest with
    | '=' :: rest =>
      let (node, rest) ← value fuel depth (skipSpace rest)
      match skipSpace rest with
      | '\x7d' :: rest => return ([(path, key, node)], rest)
      | ',' :: rest =>
        let (others, rest) ← bracedPairs fuel depth rest
        return ((path, key, node) :: others, rest)
      | _ => none
    | _ => none

end

end RegisterMap.TomlText
