import RegisterMap.Name
import RegisterMap.Text.Blank

namespace RegisterMap

/-- ASCII punctuation. -/
def isPunctuation (c : Char) : Bool :=
  let n := c.toNat
  (0x21 ≤ n && n ≤ 0x2f) || (0x3a ≤ n && n ≤ 0x40) || (0x5b ≤ n && n ≤ 0x60) ||
    (0x7b ≤ n && n ≤ 0x7e)

/-- ASCII white space and punctuation, the underscore included, part the words of a name. -/
def isSeparator (c : Char) : Bool :=
  c == ' ' || c == '\t' || c == '\n' || c == '\x0c' || c == '\r' || isPunctuation c

/-- Words that systems code in Rust keeps for itself; names derived for it avoid them. -/
def bindingKeywords : List String :=
  ["as", "break", "const", "continue", "crate", "else", "enum", "fn", "for", "if", "impl", "in",
    "let", "loop", "match", "mod", "move", "mut", "pub", "ref", "return", "self", "Self",
    "static", "struct", "super", "trait", "true", "type", "unsafe", "use", "where", "while",
    "async", "await", "dyn", "abstract", "become", "box", "do", "final", "macro", "override",
    "priv", "typeof", "unsized", "virtual", "yield"]

/-- Sets a name apart from the keywords by an underscore at its end. -/
def avoiding (keywords : List String) (name : String) : String :=
  if name ∈ keywords then name ++ "_" else name

/-- A digit cannot start a name, so an underscore goes before it. -/
def digitGuard : List Char → List Char
  | c :: _ => if c.isDigit then ['_'] else []
  | [] => []

/-- A capital after a small letter or a digit opens a new word. -/
def opensWord (before : Option Char) (c : Char) : Bool :=
  match before with
  | some b => (b.isLower || b.isDigit) && c.isUpper
  | none => false

/-- The words of a name in small letters. A run of separators, of whatever kind, becomes one
underscore; `before` is the character in front. -/
def snakeWords (before : Option Char) : List Char → List Char
  | [] => []
  | c :: rest =>
    if isSeparator c then
      if before = some '_' then snakeWords (some '_') rest else '_' :: snakeWords (some '_') rest
    else if opensWord before c then '_' :: c.toLower :: snakeWords (some c) rest
    else c.toLower :: snakeWords (some c) rest

/-- `MyRegister` and `my-register` as `my_register`. Underscores at the end are dropped. -/
def snakeCase (name : String) : String :=
  let words := digitGuard name.toList ++ snakeWords none name.toList
  avoiding bindingKeywords (String.ofList (words.reverse.dropWhile (· == '_')).reverse)

/-- The words of a name run together; `opening` says that a word begins here. -/
def camelWords (opening : Bool) : List Char → List Char
  | [] => []
  | c :: rest =>
    if isSeparator c then camelWords true rest
    else (if opening then c.toUpper else c.toLower) :: camelWords false rest

/-- `my_register` as `MyRegister`. Inside a word all letters become small. -/
def camelCase (name : String) : String :=
  avoiding bindingKeywords
    (String.ofList (digitGuard name.toList ++ camelWords true name.toList))

/-- Words that no attribute of a Python class may be called. -/
def attributeKeywords : List String :=
  ["and", "as", "assert", "async", "await", "break", "class", "continue", "def", "del", "elif",
    "else", "except", "finally", "for", "from", "global", "if", "import", "in", "is", "lambda",
    "nonlocal", "not", "or", "pass", "raise", "return", "try", "while", "with", "yield"]

/-- A name as an attribute: small letters, and not a keyword. -/
def attributeName (name : String) : String := avoiding attributeKeywords (asciiLower name)

end RegisterMap
