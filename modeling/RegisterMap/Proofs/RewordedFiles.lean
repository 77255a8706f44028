import RegisterMap.Proofs.AccessorNumbers
import RegisterMap.Proofs.HeaderNumbers
import RegisterMap.Proofs.ManualSections
import RegisterMap.Proofs.RewordedCode
import RegisterMap.Target

namespace RegisterMap

open Line (alike_same alike_append alike_flatMap)

section

variable {P : String → String → Prop}

variable (P) in
/-- Whether values take lines that are alike, wherever they stand. -/
def Json.Alike (j k : Json) : Prop :=
  ∀ depth lead trail,
    (j.lines depth lead trail).Forall₂ (Line.Alike [escape] P) (k.lines depth lead trail)

namespace Json.Alike

theorem same (j : Json) : j.Alike P j := fun _ _ _ => alike_same _

theorem prose {a b : String} (text : P a b) : (Json.prose a).Alike P (.prose b) := by
  intro depth lead trail
  rw [Json.lines, Json.lines]
  exact .cons (.slot (List.mem_singleton_self _) text) .nil

theorem comma_eq_of_forall₂ {α : Type} {R : α → α → Prop} {l k : List α} (members : l.Forall₂ R k) :
    comma l = comma k := by
  cases members <;> rfl

theorem arr {items others : List Json} (each : items.Forall₂ (Json.Alike P) others) :
    (Json.arr items).Alike P (.arr others) := by
  have members (depth : Nat) :
      (itemLines depth items).Forall₂ (Line.Alike [escape] P) (itemLines depth others) := by
    induction each with
    | nil => exact alike_same _
    | cons first rest ih =>
      rw [itemLines, itemLines, comma_eq_of_forall₂ rest]
      exact alike_append (first _ _ _) ih
  intro depth lead trail
  rw [Json.lines, Json.lines, isEmpty_eq_of_forall₂ each]
  split
  · exact alike_same _
  · exact .cons (.same _) (alike_append (members _) (alike_same _))

theorem entries_same (entries : List (String × Json)) :
    entries.Forall₂ (fun e f => e.1 = f.1 ∧ e.2.Alike P f.2) entries :=
  List.forall₂_same.mpr fun _ _ => ⟨rfl, same _⟩

theorem obj {entries others : List (String × Json)}
    (each : entries.Forall₂ (fun e f => e.1 = f.1 ∧ e.2.Alike P f.2) others) :
    (Json.obj entries).Alike P (.obj others) := by
  have members (depth : Nat) :
      (entryLines depth entries).Forall₂ (Line.Alike [escape] P) (entryLines depth others) := by
    induction each with
    | nil => exact alike_same _
    | @cons e f entries others first rest ih =>
      obtain ⟨key, item⟩ := e
      obtain ⟨other, value⟩ := f
      obtain ⟨rfl, alike⟩ := first
      rw [entryLines, entryLines, comma_eq_of_forall₂ rest]
      exact alike_append (alike _ _ _) ih
  intro depth lead trail
  rw [Json.lines, Json.lines, isEmpty_eq_of_forall₂ each]
  split
  · exact alike_same _
  · exact .cons (.same _) (alike_append (members _) (alike_same _))

end Json.Alike

namespace Dump

open Json.Alike (entries_same)

theorem alike_ofValue {v w : NamedValue} (reworded : v.Reworded P w) :
    (ofValue v).Alike P (ofValue w) := by
  cases reworded with
  | mk text => exact .obj (.cons ⟨rfl, .prose text⟩ (entries_same _))

theorem alike_ofField {f g : Field} (reworded : f.Reworded P g) :
    (ofField f).Alike P (ofField g) := by
  cases reworded with
  | mk text each =>
    refine .obj (.cons ⟨rfl, .same _⟩ (.cons ⟨rfl, .prose text⟩ (.cons ⟨rfl, .arr ?_⟩
      (entries_same _))))
    exact List.rel_map (fun v w same => alike_ofValue same) each

theorem alike_ofRegister {r s : Register} (reworded : r.Reworded P s) :
    (ofRegister r).Alike P (ofRegister s) := by
  have access := reworded.access_eq
  have reset := reworded.reset_eq
  cases reworded with
  | mk text each =>
    rw [ofRegister, ofRegister, access, reset]
    refine .obj (.cons ⟨rfl, .same _⟩ (.cons ⟨rfl, .same _⟩ (.cons ⟨rfl, .prose text⟩
      (.cons ⟨rfl, .arr ?_⟩ (entries_same _)))))
    exact List.rel_map (fun f g same => alike_ofField same) each

theorem alike_ofMap {m n : AddressMap} (reworded : m.Reworded P n) :
    (ofMap m).Alike P (ofMap n) := by
  have stop := reworded.stop_eq
  cases reworded with
  | mk each =>
    rw [ofMap, ofMap, stop]
    refine .obj (.cons ⟨rfl, .same _⟩ (.cons ⟨rfl, .same _⟩ (.cons ⟨rfl, .same _⟩
      (.cons ⟨rfl, .same _⟩ (.cons ⟨rfl, .arr ?_⟩
        (entries_same _))))))
    exact List.rel_map (fun r s same => alike_ofRegister same) each

/-- Lines of a dump that differ do so in a string. -/
theorem alike_lines {m n : AddressMap} (reworded : m.Reworded P n) :
    (lines m).Forall₂ (Line.Alike [Json.escape] P) (lines n) := alike_ofMap reworded 0 "" ""

end Dump

namespace Manual

theorem alike_row (cells : List String) {a b : String} (text : P a b) :
    (Row.mk cells (.description a)).line.Alike [cell, id] P (Row.mk cells (.description b)).line :=
  .slot (List.mem_cons_self ..) text

variable (P) in
/-- Whether the lines of rows are alike. -/
def Row.Alike (row other : Row) : Prop := row.line.Alike [cell, id] P other.line

variable (P) in
/-- Whether the lines of blocks are alike. -/
def Block.Alike (block other : Block) : Prop :=
  block.lines.Forall₂ (Line.Alike [cell, id] P) other.lines

theorem blocks_same (blocks : List Block) : blocks.Forall₂ (Block.Alike P) blocks :=
  List.forall₂_same.mpr fun _ _ => alike_same _

theorem alike_table (columns : List String) {rows others : List Row}
    (each : rows.Forall₂ (Row.Alike P) others) :
    (Block.table columns rows).Alike P (.table columns others) :=
  .cons (.same _) (.cons (.same _)
    (List.forall₂_map_left_iff.mpr (List.forall₂_map_right_iff.mpr each)))

theorem alike_bitRows {runs others : List BitRun}
    (members : runs.Forall₂ (BitRun.Reworded P) others) (top : Nat) :
    (bitRows top runs).Forall₂ (Row.Alike P) (bitRows top others) := by
  induction members generalizing top with
  | nil => exact .nil
  | cons first _ ih => cases first with
    | padding width => exact .cons (.same _) (ih _)
    | field same => cases same with
      | mk text _ => exact .cons (alike_row _ text) (ih _)

theorem alike_valueBlocks (register : String) {f g : Field} (reworded : f.Reworded P g) :
    (valueBlocks register f).Forall₂ (Block.Alike P) (valueBlocks register g) := by
  cases reworded with
  | mk _ each =>
    rw [valueBlocks, valueBlocks, isEmpty_eq_of_forall₂ each]
    split
    · exact .nil
    · refine .cons (alike_same _)
        (.cons (alike_table _ (List.rel_map (fun v w same => ?_) each)) .nil)
      cases same with
      | mk text => exact alike_row _ text

theorem diagramOf_reworded (word : Word) {r s : Register} (reworded : r.Reworded P s) :
    diagramOf word r = diagramOf word s := by
  have runs := map_eq_of_forall₂ diagramRun (reworded.bitRuns word) fun run other same => by
    cases same with
    | padding => rfl
    | field same =>
      cases same
      rfl
  rw [diagramOf, diagramOf, runs]

section

variable (blank : ∀ a b, P a b → a.isEmpty = b.isEmpty)
include blank

theorem alike_registerBlocks (images : Bool) (word : Word) {r s : Register}
    (reworded : r.Reworded P s) :
    (registerBlocks images word r).Forall₂ (Block.Alike P) (registerBlocks images word s) := by
  have access := reworded.access_eq
  have reset := reworded.reset_eq
  have diagram := diagramOf_reworded word reworded
  have runs := List.forall₂_reverse_iff.mpr (reworded.bitRuns word)
  cases reworded with
  | mk text each =>
    rw [registerBlocks, registerBlocks, access, reset, diagram, blank _ _ text]
    refine List.rel_append (List.rel_append (List.rel_append (List.rel_append (List.rel_append
      (blocks_same _) ?_) (blocks_same _)) (blocks_same _)) (.cons (alike_table _ ?_) .nil)) ?_
    · -- A text of its own is a paragraph, and would leave one out if it were empty.
      split
      · exact .nil
      · have among : id ∈ [cell, id] := List.mem_cons_of_mem _ (List.mem_singleton_self _)
        exact .cons (.cons (.verbatim among text) .nil) .nil
    · exact alike_bitRows runs _
    · exact List.rel_flatMap each fun f g same => alike_valueBlocks _ same

theorem alike_blocks (options : Options) {m n : AddressMap} (reworded : m.Reworded P n) :
    (blocks options m).Forall₂ (Block.Alike P) (blocks options n) := by
  cases reworded with
  | mk each =>
    rw [blocks, blocks]
    refine List.rel_append (List.rel_append (List.rel_append (blocks_same _) (blocks_same _))
      (.cons (alike_same _) (.cons (alike_same _) (.cons (alike_table _ ?_) .nil)))) ?_
    · refine List.rel_map (fun r s same => ?_) each
      cases same with
      | mk text _ => exact alike_row _ text
    · exact List.rel_flatMap each fun r s same => alike_registerBlocks blank _ _ same

/-- Lines of a manual that differ do so in a cell or in the description of a register. -/
theorem alike_lines (options : Options) {m n : AddressMap} (reworded : m.Reworded P n) :
    (lines options m).Forall₂ (Line.Alike [cell, id] P) (lines options n) :=
  alike_append (alike_flatMap (alike_blocks blank options reworded) fun _ _ same =>
    alike_append same (alike_same _)) (alike_same _)

end

end Manual

end

/-- What the files of a target write for a description. -/
def Target.codes : Target → List (String → String)
  | header .. => [Header.commentText]
  | bindings _ => [id]
  | accessors _ => [Accessors.escape, id]
  | dump _ => [Json.escape]
  | manual .. => [Manual.cell, id]

theorem Target.unbroken_code (t : Target) {code : String → String} (among : code ∈ t.codes)
    {text : String} (single : Unbroken text) : Unbroken (code text) := by
  cases t <;> simp only [codes, List.mem_cons, List.not_mem_nil, or_false] at among
  case header =>
    subst among
    exact Header.unbroken_commentText single
  case bindings =>
    subst among
    exact single
  case accessors =>
    rcases among with rfl | rfl
    · exact Accessors.unbroken_escape single
    · exact single
  case dump =>
    subst among
    exact Json.unbroken_escape text
  case manual =>
    rcases among with rfl | rfl
    · exact Manual.unbroken_cell single
    · exact single

/-- The lines of the file of a target. -/
def Target.lines (m : AddressMap) : Target → List Line
  | header path lead => Header.lines (.of (lead.getD m.name)) (Header.guardName path) m
  | bindings _ => (Bindings.ofMap m).lines
  | accessors _ => (Accessors.ofMap m).lines
  | dump _ => Dump.lines m
  | manual _ options => Manual.lines options m

theorem Target.content_emit (m : AddressMap) (t : Target) :
    (t.emit m).content = Line.file (t.lines m) := by
  cases t with
  | header => rw [emit, lines, Header.artifact]
  | bindings => rw [emit, lines, Bindings.artifact]
  | accessors => rw [emit, lines, Accessors.artifact]
  | dump => rw [emit, lines, Dump.artifact]
  | manual => rw [emit, lines, Manual.artifact]

theorem Target.alike_lines (t : Target) {P : String → String → Prop}
    (blank : ∀ a b, P a b → a.isEmpty = b.isEmpty) {m n : AddressMap} (reworded : m.Reworded P n) :
    (t.lines m).Forall₂ (Line.Alike t.codes P) (t.lines n) := by
  cases t with
  | header path lead =>
    have name : m.name = n.name := by
      cases reworded
      rfl
    rw [lines, lines, name]
    exact Header.alike_lines blank _ _ reworded
  | bindings => exact Bindings.alike_lines blank reworded
  | accessors => exact Accessors.alike_lines blank reworded
  | dump => exact Dump.alike_lines reworded
  | manual path options => exact Manual.alike_lines blank options reworded

/-- Descriptions cannot reach beyond their places. Compiled maps that differ in the wording of
descriptions alone, where the same ones are left out, give files of as many lines. Each line of
one file is that of the other, but for the code of one description, which ends no line. -/
theorem compile_reworded {config other : Config} {d e : Description} {m n : AddressMap}
    (first : compile config d = .ok m) (second : compile other e = .ok n)
    (same : m.outline = n.outline)
    (empty : ∀ p ∈ m.descriptions.zip n.descriptions, p.1 = "" ↔ p.2 = "") (t : Target) :
    (textLines (t.emit m).content).length = (textLines (t.emit n).content).length ∧
      (textLines (t.emit m).content).Forall₂
        (TextAlike t.codes fun a b => (a, b) ∈ m.descriptions.zip n.descriptions)
        (textLines (t.emit n).content) := by
  obtain ⟨_, sound, rfl⟩ := compile_eq_ok_iff.mp first
  obtain ⟨_, correct, rfl⟩ := compile_eq_ok_iff.mp second
  have reworded := AddressMap.reworded_of_outline same
    (List.forall₂_iff_zip.mpr ⟨AddressMap.length_descriptions same, id⟩)
  have alike := textAlike_file (fun code among a b text => ?_)
    (t.alike_lines (fun a b text => ?_) reworded)
  · rw [t.content_emit, t.content_emit]
    exact ⟨alike.length_eq, alike⟩
  · obtain ⟨own, their⟩ := List.of_mem_zip text
    exact ⟨t.unbroken_code among (sound.unbroken.descriptions a own),
      t.unbroken_code among (correct.unbroken.descriptions b their)⟩
  · rw [Bool.eq_iff_iff, String.isEmpty_iff, String.isEmpty_iff]
    exact empty _ text

/-- A register map where one text is the description of whatever is described. -/
def timer (text : String) : Description where
  name := "timer"
  registers :=
    [{ name := "CTRL", address := 4, description := text,
       fields :=
         [{ name := "RUN", description := text,
            values := [{ name := "GO", value := 1, description := text }] },
          { name := "DIV", width := 4, lsb := 4 }] }]

def timerMap (text : String) : AddressMap := (timer text).mapOf {} .w32

/-- Neither quotes and bars nor a backslash at the end lead out of a description. -/
theorem compile_reworded_timer :
    compile {} (timer "Start") = .ok (timerMap "Start") ∧
      compile {} (timer "\"|*/ \\") = .ok (timerMap "\"|*/ \\") ∧
      (timerMap "Start").outline = (timerMap "\"|*/ \\").outline ∧
      (timerMap "Start").descriptions.zip (timerMap "\"|*/ \\").descriptions =
        [("Start", "\"|*/ \\"), ("Start", "\"|*/ \\"), ("Start", "\"|*/ \\"), ("", "")] ∧
      (textLines ((Target.accessors ⟨"timer.py"⟩).emit (timerMap "Start")).content).Forall₂
        (TextAlike [Accessors.escape, id] fun a b =>
          (a, b) ∈ (timerMap "Start").descriptions.zip (timerMap "\"|*/ \\").descriptions)
        (textLines ((Target.accessors ⟨"timer.py"⟩).emit (timerMap "\"|*/ \\")).content) := by
  have first : compile {} (timer "Start") = .ok (timerMap "Start") :=
    compile_eq_ok_iff.mpr ⟨.w32, by decide +kernel, rfl⟩
  have second : compile {} (timer "\"|*/ \\") = .ok (timerMap "\"|*/ \\") :=
    compile_eq_ok_iff.mpr ⟨.w32, by decide +kernel, rfl⟩
  have same : (timerMap "Start").outline = (timerMap "\"|*/ \\").outline := by decide +kernel
  exact ⟨first, second, same, by decide +kernel,
    (compile_reworded first second same (by decide +kernel) (.accessors ⟨"timer.py"⟩)).2⟩

end RegisterMap
