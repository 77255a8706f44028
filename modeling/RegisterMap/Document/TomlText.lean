import RegisterMap.Document.TomlText.Values

namespace RegisterMap.TomlText

/-- A line of a document that says something. -/
inductive Statement where
  | assignment (path : List String) (key : String) (node : Node)
  | table (path : List String) (key : String)
  | tableOfSeries (path : List String) (key : String)

/-- What follows a statement on its line: at most a comment. -/
def lineEnd (cs : List Char) : Option (List Char) :=
  match skipComment (skipSpace cs) with
  | [] => some []
  | rest => afterNewline rest

def statement (fuel : Nat) : Reader Statement
  | '[' :: '[' :: cs => do
    let ((path, key), rest) ← dottedKey cs
    match rest with
    | ']' :: ']' :: rest => return (.tableOfSeries path key, rest)
    | _ => none
  | '[' :: cs => do
    let ((path, key), rest) ← dottedKey cs
    match rest with
    | ']' :: rest => return (.table path key, rest)
    | _ => none
  | cs => do
    let ((path, key), rest) ← dottedKey cs
    match rest with
    | '=' :: rest =>
      let (node, rest) ← value fuel nesting (skipSpace rest)
      return (.assignment path key node, rest)
    | _ => none

/-- The statements of a text, from its first line to its end. -/
def statements (fuel : Nat) (cs : List Char) : Option (List Statement) :=
  match fuel with
  | 0 => none
  | fuel + 1 =>
    match skipSpace cs with
    | [] => some []
    | c :: rest =>
      if c = '#' ∨ c = '\n' ∨ c = '\r' then (lineEnd (c :: rest)).bind (statements fuel)
      else do
        let (first, rest) ← statement fuel (c :: rest)
        let rest ← lineEnd rest
        let others ← statements fuel rest
        return first :: others

/-- A header, none for the top of a document, with the assignments up to the next one. -/
inductive Section where
  | top (content : List Assignment)
  | table (path : List String) (key : String) (content : List Assignment)
  | tableOfSeries (path : List String) (key : String) (content : List Assignment)

/-- Puts assignments under their headers. -/
def sections : List Statement → List Assignment × List Section
  | [] => ([], [])
  | statement :: rest =>
    let (content, others) := sections rest
    match statement with
    | .assignment path key node => ((path, key, node) :: content, others)
    | .table path key => ([], .table path key content :: others)
    | .tableOfSeries path key => ([], .tableOfSeries path key content :: others)

def addSection (entries : Entries) : Section → Option Entries
  | .top content => assignAll entries content
  | .table path key content => addTable path key content entries
  | .tableOfSeries path key content => addToSeries path key content entries

/-- A byte order mark may stand before a text. -/
def withoutMark : List Char → List Char
  | '\ufeff' :: cs => cs
  | cs => cs

/-- Reads a document as a whole. -/
def read? (text : String) : Option Node := do
  let cs := withoutMark text.toList
  let found ← statements (2 * cs.length + 2) cs
  let (content, others) := sections found
  let entries ← (Section.top content :: others).foldlM addSection []
  return .record (entryNodes entries) true

end RegisterMap.TomlText
