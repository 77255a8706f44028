import RegisterMap.Line
import RegisterMap.Numeral

namespace RegisterMap

/-- A JSON value to be written. Records keep the order in which they are given. -/
inductive Json where
  | null
  | bool (b : Bool)
  | nat (n : Nat)
  | str (s : String)
  /-- A text that is taken from a description. -/
  | prose (s : String)
  | arr (items : List Json)
  | obj (entries : List (String × Json))
  deriving Repr

namespace Json

/-- One character of a string. Quotes, backslashes and control characters are escaped. -/
def escapedChar (c : Char) : List Char :=
  if c = '"' then ['\\', '"']
  else if c = '\\' then ['\\', '\\']
  else if c = '\x08' then ['\\', 'b']
  else if c = '\x0c' then ['\\', 'f']
  else if c = '\n' then ['\\', 'n']
  else if c = '\r' then ['\\', 'r']
  else if c = '\t' then ['\\', 't']
  else if c.toNat < 0x20 then '\\' :: 'u' :: padZeros 4 (hexDigits c.toNat)
  else [c]

/-- The inside of a string. -/
def escape (text : String) : String := String.ofList (text.toList.flatMap escapedChar)

def stringText (text : String) : String := "\"" ++ escape text ++ "\""

mutual

/-- A value on one line, without white space. -/
def compact : Json → String
  | null => "null"
  | bool b => if b then "true" else "false"
  | nat n => decimal n
  | str s | prose s => stringText s
  | arr items => "[" ++ ",".intercalate (compactItems items) ++ "]"
  | obj entries => "\x7b" ++ ",".intercalate (compactEntries entries) ++ "\x7d"

def compactItems : List Json → List String
  | [] => []
  | item :: rest => item.compact :: compactItems rest

def compactEntries : List (String × Json) → List String
  | [] => []
  | (key, item) :: rest => (stringText key ++ ":" ++ item.compact) :: compactEntries rest

end

def margin (depth : Nat) : String := String.ofList (List.replicate (2 * depth) ' ')

/-- A comma, where more follows. -/
def comma {α : Type} : List α → String
  | [] => ""
  | _ => ","

mutual

/-- A value with every item and entry on lines of its own. `lead` stands before the value on its
first line, and `trail` behind it on its last one. -/
def lines (depth : Nat) (lead trail : String) : Json → List Line
  | null => [.plain (margin depth ++ lead ++ "null" ++ trail)]
  | bool b => [.plain (margin depth ++ lead ++ (if b then "true" else "false") ++ trail)]
  | nat n => [.plain (margin depth ++ lead ++ decimal n ++ trail)]
  | str s => [.plain (margin depth ++ lead ++ stringText s ++ trail)]
  | prose s => [⟨margin depth ++ lead ++ "\"", escape s, "\"" ++ trail⟩]
  | arr items =>
    if items.isEmpty then [.plain (margin depth ++ lead ++ "[]" ++ trail)]
    else
      .plain (margin depth ++ lead ++ "[") :: itemLines (depth + 1) items ++
        [.plain (margin depth ++ "]" ++ trail)]
  | obj entries =>
    if entries.isEmpty then [.plain (margin depth ++ lead ++ "\x7b\x7d" ++ trail)]
    else
      .plain (margin depth ++ lead ++ "\x7b") :: entryLines (depth + 1) entries ++
        [.plain (margin depth ++ "\x7d" ++ trail)]

def itemLines (depth : Nat) : List Json → List Line
  | [] => []
  | item :: rest => item.lines depth "" (comma rest) ++ itemLines depth rest

def entryLines (depth : Nat) : List (String × Json) → List Line
  | [] => []
  | (key, item) :: rest =>
    item.lines depth (stringText key ++ ": ") (comma rest) ++ entryLines depth rest

end

end Json

end RegisterMap
