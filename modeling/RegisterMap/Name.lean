import RegisterMap.Text.LetterCase

namespace RegisterMap

/-- A character that may follow the first one of an identifier. -/
def isNameChar (c : Char) : Bool := c.isAlphanum || c == '_'

/-- An ASCII letter, then ASCII letters, digits and underscores. A leading underscore is left
to members that generated code adds by itself. -/
def isIdentifier (name : String) : Bool :=
  match name.toList with
  | c :: rest => c.isAlpha && rest.all isNameChar
  | [] => false

/-- The case that a build gives to the names of registers, fields and values. -/
inductive NameCase where
  | asWritten
  | upper
  | lower
  deriving DecidableEq, Repr

def NameCase.apply : NameCase → String → String
  | .asWritten, name => name
  | .upper, name => asciiUpper name
  | .lower, name => asciiLower name

theorem isIdentifier_iff {name : String} :
    isIdentifier name = true ↔
      ∃ c rest, name.toList = c :: rest ∧ c.isAlpha = true ∧ ∀ d ∈ rest, isNameChar d = true := by
  unfold isIdentifier
  cases name.toList with
  | nil => simp
  | cons c rest =>
    simp only [Bool.and_eq_true, List.all_eq_true, List.cons.injEq]
    constructor
    · rintro ⟨first, others⟩
      exact ⟨c, rest, ⟨rfl, rfl⟩, first, others⟩
    · rintro ⟨_, _, ⟨rfl, rfl⟩, first, others⟩
      exact ⟨first, others⟩

end RegisterMap
