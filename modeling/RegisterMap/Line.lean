namespace RegisterMap

/-- A line of a generated file. At most one piece of it, the `slot`, comes from a description; the
text around it depends on names and numbers alone. -/
structure Line where
  before : String
  slot : String := ""
  after : String := ""
  deriving DecidableEq, Repr

namespace Line

/-- A line without any piece of a description. -/
def plain (text : String) : Line := { before := text }

instance : Coe String Line := ⟨plain⟩

def blank : Line := plain ""

def text (l : Line) : String := l.before ++ l.slot ++ l.after

/-- A line moved to the right. -/
def indent (margin : String) (l : Line) : Line := { l with before := margin ++ l.before }

/-- Lines as the text of a file: each of them is ended. -/
def file (lines : List Line) : String := String.join (lines.map fun l => l.text ++ "\n")

@[simp] theorem text_plain (t : String) : (plain t).text = t := by simp [text, plain]

@[simp] theorem text_indent (margin : String) (l : Line) :
    (l.indent margin).text = margin ++ l.text := by
  simp [text, indent, String.append_assoc]

/-- Files of lines are put together as their lines are. -/
theorem file_append (first second : List Line) : file (first ++ second) = file first ++ file second := by
  simp [file]

end Line

end RegisterMap
