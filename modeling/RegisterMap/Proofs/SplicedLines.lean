import RegisterMap.Proofs.CommentLines
import RegisterMap.Proofs.HeaderNumbers
import Mathlib.Data.List.DropRight

namespace RegisterMap

/-- A line whose last character is a backslash but for blanks. A compiler of C joins it with the
next line. -/
def Spliced (blank : Char → Bool) (line : List Char) : Prop :=
  ∃ start gap, line = start ++ '\\' :: gap ∧ ∀ c ∈ gap, blank c = true

/-- Without the backslashes at its end a text ends in blanks and, before these, in another
backslash. -/
def UncoversBackslash (blank : Char → Bool) (text : String) : Prop :=
  ∃ start gap slashes, text.toList = start ++ '\\' :: gap ++ slashes ∧ gap ≠ [] ∧
    (∀ c ∈ gap, blank c = true) ∧ ∀ c ∈ slashes, c = '\\'

section

variable {blank : Char → Bool}

theorem not_spliced_nil : ¬ Spliced blank [] := by
  rintro ⟨start, gap, empty, -⟩
  exact absurd empty.symm (by simp)

/-- The last character in front of blanks tells whether a line is spliced. -/
theorem spliced_iff_getLast? (solid : blank '\\' = false) {line : List Char} :
    Spliced blank line ↔ (line.rdropWhile blank).getLast? = some '\\' := by
  constructor
  · rintro ⟨start, gap, rfl, blanks⟩
    have gone : ∀ c ∈ gap.reverse, blank c = true := fun c inside =>
      blanks c (List.mem_reverse.mp inside)
    simp [List.rdropWhile, List.dropWhile_append_of_pos gone, solid]
  · intro last
    obtain ⟨start, kept⟩ := List.getLast?_eq_some_iff.mp last
    refine ⟨start, line.rtakeWhile blank, ?_, fun c inside => List.mem_rtakeWhile_imp inside⟩
    rw [← List.singleton_append, ← List.append_assoc, ← kept, List.rdropWhile_append_rtakeWhile]

/-- What has no backslash at the beginning of a line does not matter. -/
theorem spliced_append {before behind : List Char} (none : '\\' ∉ before) :
    Spliced blank (before ++ behind) ↔ Spliced blank behind := by
  constructor
  · rintro ⟨start, gap, split, blanks⟩
    -- The last backslash stands behind the beginning, as there is none in it.
    rcases List.append_eq_append_iff.mp split with ⟨more, rfl, rfl⟩ | ⟨more, rfl, same⟩
    · exact ⟨more, gap, rfl, blanks⟩
    · cases more with
      | nil => exact ⟨[], gap, same.symm, blanks⟩
      | cons c more =>
        obtain ⟨rfl, -⟩ := List.cons.inj same
        exact absurd (List.mem_append_right _ (List.mem_cons_self ..)) none
  · rintro ⟨start, gap, rfl, blanks⟩
    exact ⟨before ++ start, gap, (List.append_assoc ..).symm, blanks⟩

namespace Header

theorem commentText_eq (text : String) :
    (commentText text).toList = text.toList.rdropWhile (· == '\\') := by
  rw [commentText, String.toList_ofList]
  rfl

variable (solid : blank '\\' = false)
include solid

/-- Taking backslashes away from the end of a text is not enough where blanks stand before them. -/
theorem spliced_commentText (text : String) :
    Spliced blank (commentText text).toList ↔ UncoversBackslash blank text := by
  rw [commentText_eq]
  constructor
  · rintro ⟨start, gap, kept, blanks⟩
    refine ⟨start, gap, text.toList.rtakeWhile (· == '\\'), ?_, ?_, blanks, fun c inside => ?_⟩
    · rw [← kept, List.rdropWhile_append_rtakeWhile]
    · rintro rfl
      have final := List.rdropWhile_last_not (· == '\\') text.toList (by simp [kept])
      simp [kept] at final
    · have slash := List.mem_rtakeWhile_imp inside
      exact beq_iff_eq.mp slash
  · rintro ⟨start, gap, slashes, parts, some, blanks, all⟩
    refine ⟨start, gap, ?_, blanks⟩
    have gone : ∀ c ∈ slashes.reverse, (c == '\\') = true := fun c inside =>
      beq_iff_eq.mpr (all c (List.mem_reverse.mp inside))
    -- A blank is no backslash, so that the blanks end what is taken off.
    have kept : (start ++ '\\' :: gap).rdropWhile (· == '\\') = start ++ '\\' :: gap := by
      refine List.rdropWhile_eq_self_iff.mpr fun wide slash => ?_
      have final : (start ++ '\\' :: gap).getLast wide = gap.getLast some := by
        rw [List.getLast_append_right (List.cons_ne_nil _ _), List.getLast_cons some]
      rw [final, beq_iff_eq] at slash
      have own := blanks _ (List.getLast_mem some)
      rw [slash, solid] at own
      cases own
    rw [parts, List.rdropWhile, List.reverse_append, List.dropWhile_append_of_pos gone]
    exact kept

omit solid in
theorem Comments.toList_text {texts : List String} {l : Line} (comments : Comments texts l) :
    l.text.toList = l.before.toList ++ l.slot.toList := by
  rw [Line.text, comments.after, String.append_empty, String.toList_append]

omit solid in
theorem Comments.unbroken {texts : List String} {l : Line} (comments : Comments texts l)
    (single : ∀ text ∈ texts, Unbroken text) : Unbroken l.text := by
  have slot : Unbroken l.slot := by
    rcases comments.slot with none | ⟨text, among, slot⟩
    · rw [none]
      decide
    · rw [slot]
      exact unbroken_commentText (single text among)
  rw [Unbroken, comments.toList_text]
  exact List.forall_mem_append.mpr ⟨comments.before.unbroken, slot⟩

/-- A line of a header is spliced only by the description in its comment. -/
theorem Comments.uncovers {texts : List String} {l : Line} (comments : Comments texts l)
    (spliced : Spliced blank l.text.toList) : ∃ text ∈ texts, UncoversBackslash blank text := by
  rw [comments.toList_text, spliced_append comments.before.backslash_not_mem] at spliced
  rcases comments.slot with none | ⟨text, among, slot⟩
  · rw [none] at spliced
    exact absurd spliced not_spliced_nil
  · rw [slot, spliced_commentText solid] at spliced
    exact ⟨text, among, spliced⟩

/-- The lines of a header are spliced by its descriptions alone. -/
theorem spliced_iff {m : AddressMap} (whole : m.Unbroken) (path : Path) {lead : Option String}
    (given : ∀ name ∈ lead, BareText name) :
    (∃ line ∈ textLines (artifact path lead m).content, Spliced blank line) ↔
      ∃ text ∈ m.descriptions, UncoversBackslash blank text := by
  have bare : BareText (lead.getD m.name) := by
    cases lead with
    | none => exact (isWord_of_isIdentifier whole.name).bare
    | some name => exact given name rfl
  have comments := comments_of_mem_lines (Lead.bare_of bare) whole.identifiers
    (isWord_guardName path)
  have unbroken : ∀ l ∈ lines (.of (lead.getD m.name)) (guardName path) m, Unbroken l.text :=
    fun l inside => (comments l inside).unbroken whole.descriptions
  rw [content_artifact, Line.textLines_file_of_unbroken unbroken]
  constructor
  · rintro ⟨line, inside, spliced⟩
    rcases List.mem_append.mp inside with inside | last
    · obtain ⟨l, printed, rfl⟩ := List.mem_map.mp inside
      exact (comments l printed).uncovers solid spliced
    · rw [List.mem_singleton.mp last] at spliced
      exact absurd spliced not_spliced_nil
  · rintro ⟨text, described, uncovers⟩
    obtain ⟨l, printed, slot⟩ :=
      exists_comment described (.of (lead.getD m.name)) (guardName path)
    refine ⟨l.text.toList, List.mem_append_left _ (List.mem_map_of_mem printed), ?_⟩
    have bare := (comments l printed).before.backslash_not_mem
    rw [(comments l printed).toList_text, spliced_append bare, slot]
    exact (spliced_commentText solid text).mpr uncovers

/-- A compiled map has a header without spliced lines exactly when no description has a backslash
and blanks to show under the backslashes at its end. -/
theorem compile_spliced_iff {config : Config} {d : Description} {m : AddressMap}
    (compiled : compile config d = .ok m) (path : Path) {lead : Option String}
    (given : ∀ name ∈ lead, BareText name) :
    (∀ line ∈ textLines (artifact path lead m).content, ¬ Spliced blank line) ↔
      ∀ text ∈ m.descriptions, ¬ UncoversBackslash blank text := by
  have whole := compile_unbroken compiled
  simpa only [not_exists, not_and] using not_congr (spliced_iff solid whole path given)

end Header

end

namespace Header

/-- Descriptions with backslashes inside and at the end. -/
def paths : Description where
  name := "paths"
  registers :=
    [{ name := "CTRL", address := 0, description := "C:\\regs\\",
       fields :=
        [{ name := "EN", description := "\\\\",
           values := [{ name := "ON", value := 1, description := "set \\ in a\\b \\c\\\\" }] }] }]

theorem paths_not_spliced :
    compile {} paths = .ok (paths.mapOf {} .w32) ∧ isBlank '\\' = false ∧
      (∀ name ∈ some "A", BareText name) ∧
      (paths.mapOf {} .w32).descriptions =
        ["C:\\regs\\", "\\\\", "set \\ in a\\b \\c\\\\"] ∧
      ∀ line ∈ textLines (artifact ⟨"paths.h"⟩ (some "A") (paths.mapOf {} .w32)).content,
        ¬ Spliced isBlank line := by
  have compiled : compile {} paths = .ok (paths.mapOf {} .w32) :=
    compile_eq_ok_iff.mpr ⟨.w32, by decide +kernel, rfl⟩
  have solid : isBlank '\\' = false := by decide
  have given : ∀ name ∈ some "A", BareText name := by decide
  have descriptions : (paths.mapOf {} .w32).descriptions =
      ["C:\\regs\\", "\\\\", "set \\ in a\\b \\c\\\\"] := by cbv
  refine ⟨compiled, solid, given, descriptions, ?_⟩
  refine (compile_spliced_iff solid compiled _ given).mpr fun text described => ?_
  rw [← spliced_commentText solid, spliced_iff_getLast? solid]
  rw [descriptions] at described
  revert text
  decide

/-- A register with a description that ends in two backslashes apart. -/
def slashed : Description where
  name := "uart"
  registers :=
    [{ name := "CTRL", address := 0, description := "see \\ \\", fields := [{ name := "F" }] }]

/-- The last backslash is taken off and the first one is not, so that the comment takes the line
behind it as well. -/
theorem slashed_spliced :
    compile {} slashed = .ok (slashed.mapOf {} .w32) ∧
      ¬ ∀ line ∈ textLines (artifact ⟨"uart.h"⟩ none (slashed.mapOf {} .w32)).content,
        ¬ Spliced isBlank line := by
  have sound : slashed.Sound {} .w32 := by decide +kernel
  refine ⟨compile_eq_ok_iff.mpr ⟨.w32, sound, rfl⟩, fun none => ?_⟩
  have described : "see \\ \\" ∈ (slashed.mapOf {} .w32).descriptions := of_decide_eq_true (by cbv)
  have uncovers : UncoversBackslash isBlank "see \\ \\" :=
    ⟨"see ".toList, [' '], ['\\'], by decide, by decide, List.forall_mem_singleton.mpr rfl,
      List.forall_mem_singleton.mpr rfl⟩
  have given : ∀ name ∈ Option.none, BareText name := by simp
  have solid : isBlank '\\' = false := by decide
  obtain ⟨line, inside, spliced⟩ :=
    (spliced_iff solid sound.unbroken ⟨"uart.h"⟩ given).mpr ⟨_, described, uncovers⟩
  exact none line inside spliced

end Header

end RegisterMap
