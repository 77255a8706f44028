import RegisterMap.Artifact
import RegisterMap.Header
import RegisterMap.Line
import RegisterMap.Text.Blank

namespace RegisterMap.Header

/-- A description inside a comment. A backslash at the end of a line would join the next line to
the comment, so none is left there. -/
def commentText (description : String) : String :=
  String.ofList (description.toList.reverse.dropWhile (· == '\\')).reverse

/-- Code with a description behind it, where there is one; `mark` opens the comment. -/
def withComment (code mark description : String) : Line :=
  if description.isEmpty then code else ⟨code ++ mark, commentText description, ""⟩

/-- The type that holds a word. -/
def storage (word : Word) : String := "uint" ++ decimal word.bits ++ "_t"

/-- What the access mode of a register allows, as a qualifier. -/
def qualifier : Access → String
  | .readOnly => "__I"
  | .writeOnly => "__O"
  | .readWrite => "__IO"

def BitMember.line (word : Word) : BitMember → Line
  | .field name width description =>
    withComment ("    " ++ storage word ++ " " ++ name ++ " : " ++ decimal width ++ ";") " // "
      description
  | .padding width => "    " ++ storage word ++ " : " ++ decimal width ++ "; // reserved"

def Enumerator.line (e : Enumerator) : Line :=
  withComment ("    " ++ e.name ++ " = " ++ hexLiteral e.value ++ ",") " //" e.description

def MapMember.lines (word : Word) : MapMember → List Line
  | .reserved index words =>
    ["    __IO " ++ storage word ++ " RESERVED" ++ decimal index ++ "[" ++ decimal words ++ "];"]
  | .register access name bits description =>
    ["    union \x7b",
      withComment ("        " ++ qualifier access ++ " " ++ storage word ++ " " ++ name ++ ";")
        " // " description,
      "        " ++ qualifier access ++ " " ++ bits ++ " " ++ name ++ "_bf; // Bit access for " ++
        name ++ " register",
      "    \x7d;"]

/-- A type with its members in braces. -/
def block (opening : String) (members : List Line) (name : String) : List Line :=
  .plain (opening ++ " \x7b") :: members ++ [.plain ("\x7d " ++ name ++ ";")]

def Declaration.lines (word : Word) : Declaration → List Line
  | .remark subject description => [withComment ("// " ++ subject) " - " description]
  | .define name value => ["#define " ++ name ++ " " ++ value.text]
  | .bits name members =>
    block "typedef struct" (members.map (BitMember.line word)) name
  | .values name enumerators =>
    block "typedef enum" (enumerators.map Enumerator.line) name
  | .map name members =>
    block "typedef struct" (members.flatMap (MapMember.lines word)) name
  | .overlay name type base => ["#define " ++ name ++ " ((" ++ type ++ "*)(" ++ base ++ "))"]
  | .space => [.blank]

/-- What comes before all declarations. -/
def opening (guard : String) : List Line :=
  ["// Created with " ++ generatorName,
    "#ifndef " ++ guard,
    "#define " ++ guard,
    .blank,
    "#define __I  volatile const // 'read only' permissions",
    "#define __O  volatile       // 'write only' permissions",
    "#define __IO volatile       // 'read / write' permissions",
    .blank,
    .blank,
    "#ifdef __cplusplus",
    "#include <cstdint>",
    "extern \"C\" \x7b",
    "#else",
    "#include <stdint.h>",
    "#endif",
    .blank]

def ending (guard : String) : List Line :=
  ["#ifdef __cplusplus",
    "\x7d",
    "#endif",
    .blank,
    "#endif /* " ++ guard ++ " */"]

/-- The name that keeps a header from being read twice, made from the name of its file. -/
def guardName (path : Path) : String :=
  let stem := (path.stem?.map toCapitals).getD "REGS"
  "__" ++ stem.map (fun c => if c.isAlphanum then c else '_') ++ "_H"

def lines (lead : Lead) (guard : String) (m : AddressMap) : List Line :=
  opening guard ++ (declarations lead m).flatMap (Declaration.lines m.word) ++ ending guard

/-- The C header of a map. Its names begin with the name of the map unless told otherwise. -/
def artifact (path : Path) (lead : Option String) (m : AddressMap) : Artifact where
  path := path
  language := .c
  content := Line.file (lines (.of (lead.getD m.name)) (guardName path) m)

end RegisterMap.Header
