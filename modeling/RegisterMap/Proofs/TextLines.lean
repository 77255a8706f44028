import RegisterMap.Line
import Mathlib.Data.List.Forall2
import Mathlib.Data.List.Infix
import Mathlib.Data.List.Basic

namespace RegisterMap

/-- A text that ends no line. -/
def Unbroken (text : String) : Prop := ∀ c ∈ text.toList, c ≠ '\n' ∧ c ≠ '\r'

instance {text : String} : Decidable (Unbroken text) :=
  decidable_of_iff (text.toList.all (fun c => c != '\n' && c != '\r') = true) (by simp [Unbroken])

/-- The lines of a file. Behind the last line break stands one more, which is empty. -/
def textLines (content : String) : List (List Char) := content.toList.splitOn '\n'

section

variable {first second : String}

@[simp] theorem unbroken_append : Unbroken (first ++ second) ↔ Unbroken first ∧ Unbroken second := by
  rw [Unbroken, String.toList_append, List.forall_mem_append]
  rfl

theorem Unbroken.of_subset (whole : Unbroken second) (among : first.toList ⊆ second.toList) :
    Unbroken first := fun c inside => whole c (among inside)

/-- A text that is coded letter by letter. -/
theorem unbroken_flatMap {code : Char → List Char}
    (each : ∀ c ∈ first.toList, ∀ d ∈ code c, d ≠ '\n' ∧ d ≠ '\r') :
    Unbroken (String.ofList (first.toList.flatMap code)) := by
  rw [Unbroken, String.toList_ofList]
  exact List.forall_mem_flatMap.mpr each

/-- What holds of all letters of some texts holds of them together. -/
theorem forall_mem_intercalate {P : Char → Prop} {mark : String} {texts : List String}
    (between : ∀ c ∈ mark.toList, P c) (each : ∀ text ∈ texts, ∀ c ∈ text.toList, P c) :
    ∀ c ∈ (mark.intercalate texts).toList, P c := by
  induction texts with
  | nil => exact fun c none => nomatch none
  | cons text rest ih =>
    obtain ⟨own, others⟩ := List.forall_mem_cons.mp each
    cases rest with
    | nil => rwa [String.intercalate_singleton]
    | cons next rest =>
      rw [String.intercalate_cons_cons, String.toList_append, String.toList_append]
      exact List.forall_mem_append.mpr ⟨List.forall_mem_append.mpr ⟨own, between⟩, ih others⟩

theorem Unbroken.newline_not_mem (whole : Unbroken first) : '\n' ∉ first.toList := fun inside =>
  (whole _ inside).1 rfl

end

namespace Line

theorem toList_file_cons (l : Line) (rest : List Line) :
    (file (l :: rest)).toList = l.text.toList ++ '\n' :: (file rest).toList := by
  simp [file, String.join_cons]

/-- A file has its lines one after the other. -/
theorem textLines_file (lines : List Line) :
    textLines (file lines) = lines.flatMap (fun l => l.text.toList.splitOn '\n') ++ [[]] := by
  induction lines with
  | nil => rfl
  | cons l rest ih =>
    rw [textLines, toList_file_cons, List.splitOn_append_cons_self, List.flatMap_cons,
      List.append_assoc, ← ih]
    rfl

theorem flatMap_splitOn_of_unbroken {lines : List Line} (whole : ∀ l ∈ lines, Unbroken l.text) :
    lines.flatMap (fun l => l.text.toList.splitOn '\n') = lines.map fun l => l.text.toList := by
  rw [List.map_eq_flatMap]
  exact List.flatMap_congr fun l inside =>
    List.splitOn_eq_singleton (whole l inside).newline_not_mem

theorem textLines_file_of_unbroken {lines : List Line} (whole : ∀ l ∈ lines, Unbroken l.text) :
    textLines (file lines) = lines.map (fun l => l.text.toList) ++ [[]] := by
  rw [textLines_file, flatMap_splitOn_of_unbroken whole]

/-- Lines without a break inside stay together in a file, whatever the other lines are. -/
theorem infix_textLines {part lines : List Line} (within : part <:+: lines)
    (whole : ∀ l ∈ part, Unbroken l.text) :
    part.map (fun l => l.text.toList) <:+: textLines (file lines) := by
  rw [textLines_file, ← flatMap_splitOn_of_unbroken whole]
  exact (within.flatMap _).trans (List.prefix_append ..).isInfix

end Line

end RegisterMap
