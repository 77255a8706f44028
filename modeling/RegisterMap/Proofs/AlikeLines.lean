import RegisterMap.Proofs.TextLines

namespace RegisterMap

/-- Two lines that are the same but for one text, which stands in both of them in the same place
and in the same code. -/
inductive Line.Alike (codes : List (String → String)) (P : String → String → Prop) :
    Line → Line → Prop
  | same (l : Line) : Alike codes P l l
  | slot {before after a b : String} {code : String → String} (among : code ∈ codes)
    (text : P a b) : Alike codes P ⟨before, code a, after⟩ ⟨before, code b, after⟩

/-- The same for the lines of a file: they differ at most in one piece that is the code of a text,
and the piece ends no line. -/
def TextAlike (codes : List (String → String)) (P : String → String → Prop)
    (line other : List Char) : Prop :=
  line = other ∨ ∃ before after, ∃ code ∈ codes, ∃ a b, P a b ∧ Unbroken (code a) ∧
    Unbroken (code b) ∧ line = before ++ ((code a).toList ++ after) ∧
      other = before ++ ((code b).toList ++ after)

theorem splitOn_append {piece : List Char} (whole : '\n' ∉ piece) (rest : List Char) :
    (piece ++ rest).splitOn '\n' = (rest.splitOn '\n').modifyHead (piece ++ ·) := by
  induction piece with
  | nil => exact (congrFun List.modifyHead_id _).symm
  | cons c piece ih =>
    rw [List.mem_cons, not_or] at whole
    have differ : (c == '\n') = false := beq_eq_false_iff_ne.mpr (Ne.symm whole.1)
    rw [List.cons_append, List.splitOn_cons_eq_if_modifyHead, differ, ih whole.2,
      List.modifyHead_modifyHead]
    rfl

section

variable {codes : List (String → String)} {P : String → String → Prop}

theorem TextAlike.cons (c : Char) {line other : List Char} (alike : TextAlike codes P line other) :
    TextAlike codes P (c :: line) (c :: other) := by
  rcases alike with rfl | ⟨before, after, code, among, a, b, text, first, second, rfl, rfl⟩
  · exact .inl rfl
  · exact .inr ⟨c :: before, after, code, among, a, b, text, first, second, rfl, rfl⟩

theorem textAlike_modifyHead (c : Char) {lines others : List (List Char)}
    (alike : lines.Forall₂ (TextAlike codes P) others) :
    (lines.modifyHead (c :: ·)).Forall₂ (TextAlike codes P) (others.modifyHead (c :: ·)) := by
  cases alike with
  | nil => exact .nil
  | cons first rest => exact .cons (first.cons c) rest

theorem textAlike_same (lines : List (List Char)) :
    lines.Forall₂ (TextAlike codes P) lines := List.forall₂_same.mpr fun _ _ => .inl rfl

variable (whole : ∀ code ∈ codes, ∀ a b, P a b → Unbroken (code a) ∧ Unbroken (code b))
include whole

/-- Whatever stands around a text, and be it line breaks: only one line has the text. -/
theorem textAlike_splitOn (before after : List Char) {code : String → String} (among : code ∈ codes)
    {a b : String} (text : P a b) :
    ((before ++ ((code a).toList ++ after)).splitOn '\n').Forall₂ (TextAlike codes P)
      ((before ++ ((code b).toList ++ after)).splitOn '\n') := by
  obtain ⟨first, second⟩ := whole code among a b text
  -- Up to the text both files are the same, so the induction is on what stands before it.
  induction before with
  | nil =>
    rw [List.nil_append, List.nil_append, splitOn_append first.newline_not_mem,
      splitOn_append second.newline_not_mem]
    cases lines : after.splitOn '\n' with
    | nil => exact .nil
    | cons line rest =>
      exact .cons (.inr ⟨[], line, code, among, a, b, text, first, second, rfl, rfl⟩)
        (textAlike_same rest)
  | cons c before ih =>
    rw [List.cons_append, List.cons_append, List.splitOn_cons_eq_if_modifyHead,
      List.splitOn_cons_eq_if_modifyHead]
    split
    · exact .cons (.inl rfl) ih
    · exact textAlike_modifyHead c ih

/-- Files whose lines are alike have as many lines, and each two of these differ in one text. -/
theorem textAlike_file {lines others : List Line}
    (alike : lines.Forall₂ (Line.Alike codes P) others) :
    (textLines (Line.file lines)).Forall₂ (TextAlike codes P) (textLines (Line.file others)) := by
  rw [Line.textLines_file, Line.textLines_file]
  refine List.rel_append (List.rel_flatMap alike fun l k same => ?_) (textAlike_same _)
  cases same with
  | same l => exact textAlike_same _
  | slot among text =>
    simp only [Line.text, String.toList_append, List.append_assoc]
    exact textAlike_splitOn whole _ _ among text

end

namespace Line

variable {codes : List (String → String)} {P : String → String → Prop}

/-- A text that stands in a line as it is. -/
theorem Alike.verbatim {before after a b : String} (among : id ∈ codes) (text : P a b) :
    Alike codes P ⟨before, a, after⟩ ⟨before, b, after⟩ :=
  @slot codes P before after a b id among text

theorem alike_same (lines : List Line) : lines.Forall₂ (Alike codes P) lines :=
  List.forall₂_same.mpr fun l _ => .same l

theorem alike_append {lines others more further : List Line}
    (first : lines.Forall₂ (Alike codes P) others) (second : more.Forall₂ (Alike codes P) further) :
    (lines ++ more).Forall₂ (Alike codes P) (others ++ further) := List.rel_append first second

theorem alike_flatMap {α : Type} {R : α → α → Prop} {l k : List α} {lines : α → List Line}
    (members : l.Forall₂ R k)
    (each : ∀ a b, R a b → (lines a).Forall₂ (Alike codes P) (lines b)) :
    (l.flatMap lines).Forall₂ (Alike codes P) (k.flatMap lines) :=
  List.rel_flatMap members fun a b same => each a b same

end Line

end RegisterMap
