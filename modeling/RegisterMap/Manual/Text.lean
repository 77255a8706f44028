import RegisterMap.Artifact
import RegisterMap.Line
import RegisterMap.Manual

namespace RegisterMap.Manual

/-- A text inside a cell: a bar in it must not part the cell. -/
def cell (text : String) : String :=
  String.ofList (text.toList.flatMap fun c => if c = '|' then ['\\', '|'] else [c])

def Row.line (row : Row) : Line :=
  let before := "| " ++ " | ".intercalate row.cells ++ " | "
  match row.note with
  | .words text => before ++ text ++ " |"
  | .description text => ⟨before, cell text, " |"⟩

/-- A table begins with its columns and a line that sets them apart from the rows. -/
def tableLines (columns : List String) (rows : List Row) : List Line :=
  .plain ("| " ++ " | ".intercalate columns ++ " |") ::
    .plain ("| " ++ " | ".intercalate (columns.map fun _ => ":---") ++ " |") ::
    rows.map Row.line

def Block.lines : Block → List Line
  | .title text => ["# " ++ text]
  | .chapter name => ["## " ++ name]
  | .paragraph text => [text]
  | .description text => [⟨"", text, ""⟩]
  | .table columns rows => tableLines columns rows
  | .diagram content => ["```wavedrom", content.compact, "```"]

def lines (options : Options) (m : AddressMap) : List Line :=
  ((blocks options m).flatMap fun block => block.lines ++ [.blank]) ++
    [.plain "Back to [Register map](#register-map-summary)."]

/-- The manual of a map as a file. -/
def artifact (path : Path) (options : Options) (m : AddressMap) : Artifact where
  path := path
  language := .markdown
  content := Line.file (lines options m)

end RegisterMap.Manual
