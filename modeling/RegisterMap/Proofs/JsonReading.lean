import RegisterMap.Proofs.JsonScalars
import RegisterMap.Proofs.TextLines
import Mathlib.Data.List.DropRight

namespace RegisterMap

theorem Line.file_cons (l : Line) (rest : List Line) :
    Line.file (l :: rest) = l.text ++ "\n" ++ Line.file rest := by
  simp [Line.file, String.join_cons]

namespace Json

/-- How a value is laid out: on one line, or with its members on lines of their own. -/
inductive Layout where
  | single
  | lines (depth : Nat)

namespace Layout

def deeper : Layout → Layout
  | single => single
  | lines depth => lines (depth + 1)

def margin : Layout → String
  | single => ""
  | lines depth => Json.margin depth

/-- What parts members. -/
def gap : Layout → String
  | single => ""
  | lines _ => "\n"

def colon : Layout → String
  | single => ":"
  | lines _ => ": "

end Layout

mutual

/-- A value as one text, from behind the margin of its first line. -/
def textAt (layout : Layout) : Json → String
  | null => "null"
  | bool b => if b then "true" else "false"
  | nat n => decimal n
  | str s | prose s => stringText s
  | arr items =>
    if items.isEmpty then "[]"
    else "[" ++ layout.gap ++ itemsAt layout.deeper items ++ layout.margin ++ "]"
  | obj entries =>
    if entries.isEmpty then "\x7b\x7d"
    else "\x7b" ++ layout.gap ++ entriesAt layout.deeper entries ++ layout.margin ++ "\x7d"

def itemsAt (layout : Layout) : List Json → String
  | [] => ""
  | item :: rest =>
    layout.margin ++ item.textAt layout ++ comma rest ++ layout.gap ++ itemsAt layout rest

def entriesAt (layout : Layout) : List (String × Json) → String
  | [] => ""
  | (key, item) :: rest =>
    layout.margin ++ (stringText key ++ layout.colon) ++ item.textAt layout ++ comma rest ++
      layout.gap ++ entriesAt layout rest

end

mutual

theorem file_lines (depth : Nat) (lead trail : String) (j : Json) :
    Line.file (j.lines depth lead trail) =
      margin depth ++ lead ++ j.textAt (.lines depth) ++ trail ++ "\n" := by
  cases j with
  | null => simp [lines, textAt, Line.file]
  | bool b => simp [lines, textAt, Line.file]
  | nat n => simp [lines, textAt, Line.file]
  | str s => simp [lines, textAt, Line.file]
  | prose s => simp [lines, textAt, Line.file, Line.text, stringText, String.append_assoc]
  | arr items =>
    rw [lines, textAt]
    split
    · simp [Line.file]
    · rw [Line.file_append, Line.file_cons, file_itemLines]
      simp [Line.file, String.append_assoc, Layout.gap, Layout.deeper, Layout.margin]
  | obj entries =>
    rw [lines, textAt]
    split
    · simp [Line.file]
    · rw [Line.file_append, Line.file_cons, file_entryLines]
      simp [Line.file, String.append_assoc, Layout.gap, Layout.deeper, Layout.margin]

theorem file_itemLines (depth : Nat) (items : List Json) :
    Line.file (itemLines depth items) = itemsAt (.lines depth) items := by
  cases items with
  | nil => rfl
  | cons item rest =>
    rw [itemLines, Line.file_append, file_lines depth "" (comma rest) item,
      file_itemLines depth rest, itemsAt, String.append_empty]
    rfl

theorem file_entryLines (depth : Nat) (entries : List (String × Json)) :
    Line.file (entryLines depth entries) = entriesAt (.lines depth) entries := by
  cases entries with
  | nil => rfl
  | cons entry rest =>
    rw [entryLines, Line.file_append, file_lines depth _ (comma rest) entry.2,
      file_entryLines depth rest, entriesAt]
    rfl

end

mutual

theorem compact_eq (j : Json) : j.compact = j.textAt .single := by
  cases j with
  | null | bool | nat | str | prose => rfl
  | arr items =>
    rw [compact, textAt, intercalate_compactItems]
    cases items <;> simp [itemsAt, Layout.gap, Layout.margin, Layout.deeper]
  | obj entries =>
    rw [compact, textAt, intercalate_compactEntries]
    cases entries <;> simp [entriesAt, Layout.gap, Layout.margin, Layout.deeper]

theorem intercalate_compactItems (items : List Json) :
    ",".intercalate (compactItems items) = itemsAt .single items := by
  match items with
  | [] => rfl
  | [item] => simp [compactItems, itemsAt, compact_eq item, comma, Layout.gap, Layout.margin]
  | item :: next :: rest =>
    rw [itemsAt, ← intercalate_compactItems (next :: rest), ← compact_eq item]
    simp [compactItems, String.intercalate_cons_cons, comma, Layout.gap, Layout.margin]

theorem intercalate_compactEntries (entries : List (String × Json)) :
    ",".intercalate (compactEntries entries) = entriesAt .single entries := by
  match entries with
  | [] => rfl
  | [(key, item)] =>
    simp [compactEntries, entriesAt, compact_eq item, comma, Layout.gap, Layout.margin, Layout.colon]
  | (key, item) :: (following, next) :: rest =>
    rw [entriesAt, ← intercalate_compactEntries ((following, next) :: rest), ← compact_eq item]
    simp [compactEntries, String.intercalate_cons_cons, comma, Layout.gap, Layout.margin,
      Layout.colon, String.append_assoc]

end

mutual

def node : Json → Node
  | null => .null
  | bool b => .bool b
  | nat n => .int n
  | str s | prose s => .text s
  | arr items => .list (nodes items) true
  | obj entries => .record (entryNodes entries) true

def nodes : List Json → List Node
  | [] => []
  | item :: rest => item.node :: nodes rest

def entryNodes : List (String × Json) → List (String × Node)
  | [] => []
  | (key, item) :: rest => (key, item.node) :: entryNodes rest

end

/-- Whether a reader takes a value as it is: its numbers fit in 64 bits, and no more than `depth`
lists and records lie in each other. -/
inductive Readable : Nat → Json → Prop
  | null {depth : Nat} : Readable depth null
  | bool {depth : Nat} (b : Bool) : Readable depth (bool b)
  | nat {depth n : Nat} (small : n < UInt64.size) : Readable depth (nat n)
  | str {depth : Nat} (s : String) : Readable depth (str s)
  | prose {depth : Nat} (s : String) : Readable depth (prose s)
  | arr {depth : Nat} {items : List Json} (each : ∀ item ∈ items, Readable depth item) :
    Readable (depth + 1) (arr items)
  | obj {depth : Nat} {entries : List (String × Json)}
    (each : ∀ entry ∈ entries, Readable depth entry.2) : Readable (depth + 1) (obj entries)

end Json

namespace JsonText

open Json (Layout comma)

theorem skipSpace_append {space : List Char} (blank : ∀ c ∈ space, isSpace c = true)
    (cs : List Char) : skipSpace (space ++ cs) = skipSpace cs :=
  List.dropWhile_append_of_pos blank

theorem skipSpace_cons {c : Char} (other : isSpace c = false) (rest : List Char) :
    skipSpace (c :: rest) = c :: rest := by simp [skipSpace, other]

theorem skipSpace_skipSpace (cs : List Char) : skipSpace (skipSpace cs) = skipSpace cs :=
  List.dropWhile_idempotent isSpace cs

theorem length_lt_of_skipSpace {cs inner : List Char} {c : Char}
    (found : skipSpace cs = c :: inner) :
    inner.length < cs.length := by
  have suffix := (List.dropWhile_suffix isSpace : cs.dropWhile isSpace <:+ cs).length_le
  rw [← skipSpace, found, List.length_cons] at suffix
  exact suffix

theorem blank_margin (layout : Layout) : ∀ c ∈ layout.margin.toList, isSpace c = true := by
  cases layout with
  | single => exact fun c inside => absurd inside (by simp [Layout.margin])
  | lines depth =>
    intro c inside
    rw [Layout.margin, Json.margin, String.toList_ofList] at inside
    rw [List.eq_of_mem_replicate inside]
    rfl

theorem blank_gap (layout : Layout) : ∀ c ∈ layout.gap.toList, isSpace c = true := by
  cases layout <;> simp [Layout.gap, isSpace]

theorem value_skipSpace (fuel depth : Nat) (cs : List Char) :
    value fuel depth (skipSpace cs) = value fuel depth cs := by
  cases fuel with
  | zero => rw [value, value]
  | succ fuel => rw [value, value, skipSpace_skipSpace]

theorem value_append {space : List Char} (blank : ∀ c ∈ space, isSpace c = true)
    (fuel depth : Nat) (cs : List Char) : value fuel depth (space ++ cs) = value fuel depth cs := by
  rw [← value_skipSpace, skipSpace_append blank, value_skipSpace]

theorem items_skipSpace (fuel depth : Nat) (cs : List Char) :
    items fuel depth (skipSpace cs) = items fuel depth cs := by
  cases fuel with
  | zero => rw [items, items]
  | succ fuel => rw [items, items, value_skipSpace]

theorem items_append {space : List Char} (blank : ∀ c ∈ space, isSpace c = true)
    {fuel depth : Nat} (cs : List Char) :
    items fuel depth (space ++ cs) = items fuel depth cs := by
  rw [← items_skipSpace, skipSpace_append blank, items_skipSpace]

/-- What begins with no bracket is no list and no record. -/
theorem value_scalar {c : Char} (fuel depth : Nat) (rest : List Char) (other : isSpace c = false)
    (list : c ≠ '[') (record : c ≠ '\x7b') :
    value (fuel + 1) depth (c :: rest) = scalar (c :: rest) := by
  rw [value, skipSpace_cons other]
  split
  · rename_i same
    exact absurd (List.cons.inj same).1 list
  · rename_i same
    exact absurd (List.cons.inj same).1 record
  · rfl

theorem value_list {cs : List Char} (fuel depth : Nat) (some : ∀ rest, skipSpace cs ≠ ']' :: rest) :
    value (fuel + 1) (depth + 1) ('[' :: cs) =
      (.list (items fuel depth cs).1 (items fuel depth cs).2.isSome, (items fuel depth cs).2) := by
  rw [value, skipSpace_cons rfl]
  simp only [items_skipSpace]

theorem value_record {cs inner : List Char} (fuel depth : Nat) (key : skipSpace cs = '"' :: inner) :
    value (fuel + 1) (depth + 1) ('\x7b' :: cs) =
      (.record (entries fuel depth inner).1 (entries fuel depth inner).2.isSome,
        (entries fuel depth inner).2) := by
  rw [value, skipSpace_cons rfl]
  simp only [key]

section

variable {fuel depth : Nat} {cs after : List Char} {node : Node}
  (read : value fuel depth cs = (node, some after))
include read

theorem items_last {rest : List Char} (close : skipSpace after = ']' :: rest) :
    items (fuel + 1) depth cs = ([node], some rest) := by
  rw [items, read]
  simp only [close]

theorem items_next {rest : List Char} (next : skipSpace after = ',' :: rest) :
    items (fuel + 1) depth cs =
      (node :: (items fuel depth rest).1, (items fuel depth rest).2) := by
  rw [items, read]
  simp only [next]

variable (key : String)

theorem entries_last {rest : List Char} (close : skipSpace after = '\x7d' :: rest) :
    entries (fuel + 1) depth ((Json.escape key).toList ++ '"' :: ':' :: cs) =
      ([(key, node)], some rest) := by
  rw [entries, stringAfter_escape]
  simp only [skipSpace_cons (show isSpace ':' = false by rfl), read, close]

theorem entries_next {rest inner : List Char} (next : skipSpace after = ',' :: rest)
    (quote : skipSpace rest = '"' :: inner) :
    entries (fuel + 1) depth ((Json.escape key).toList ++ '"' :: ':' :: cs) =
      ((key, node) :: (entries fuel depth inner).1, (entries fuel depth inner).2) := by
  rw [entries, stringAfter_escape]
  simp only [skipSpace_cons (show isSpace ':' = false by rfl), read, next, quote]

end

/-- What stands behind a member of a list or record: a comma, if `others` follow. -/
def behind {α : Type} (layout : Layout) (others : List α) (after : List Char) : List Char :=
  (comma others).toList ++ (layout.gap.toList ++ after)

section

variable {α : Type} (layout : Layout) {space : List Char} (blank : ∀ c ∈ space, isSpace c = true)

theorem behind_cons (a : α) (others : List α) (after : List Char) :
    behind layout (a :: others) after = ',' :: (layout.gap.toList ++ after) := by
  simp [behind, comma]

theorem endsNumber_behind_cons (a : α) (others : List α) (after : List Char) :
    EndsNumber (behind layout (a :: others) after) := by simp [behind_cons, EndsNumber]

theorem skipSpace_behind_cons (a : α) (others : List α) (after : List Char) :
    skipSpace (behind layout (a :: others) after) = ',' :: (layout.gap.toList ++ after) := by
  rw [behind_cons, skipSpace_cons rfl]

include blank

theorem blank_gap_append : ∀ c ∈ layout.gap.toList ++ space, isSpace c = true :=
  List.forall_mem_append.mpr ⟨blank_gap layout, blank⟩

theorem skipSpace_behind_nil {c : Char} (other : isSpace c = false) (rest : List Char) :
    skipSpace (behind layout ([] : List α) (space ++ c :: rest)) = c :: rest := by
  have text : behind layout ([] : List α) (space ++ c :: rest) =
      (layout.gap.toList ++ space) ++ c :: rest := by simp [behind, comma]
  rw [text, skipSpace_append (blank_gap_append layout blank), skipSpace_cons other]

/-- White space ends a number, as what a list or record ends with does. -/
theorem endsNumber_behind_nil {c : Char} (rest : List Char) (ends : EndsNumber (c :: rest)) :
    EndsNumber (behind layout ([] : List α) (space ++ c :: rest)) := by
  have text : behind layout ([] : List α) (space ++ c :: rest) =
      (layout.gap.toList ++ space) ++ c :: rest := by simp [behind, comma]
  have blank := blank_gap_append layout blank
  rw [text]
  cases around : layout.gap.toList ++ space with
  | nil => exact ends
  | cons d more =>
    have first := blank d (around ▸ List.mem_cons_self ..)
    simp only [isSpace, Bool.or_eq_true, beq_iff_eq] at first
    rcases first with ((rfl | rfl) | rfl) | rfl <;> simp [EndsNumber]

end

/-- Whether a value is read back from its text, wherever that stands and whatever follows. Two
units of fuel are enough for each character. -/
def ReadBack (depth : Nat) (j : Json) : Prop :=
  ∀ (layout : Layout) (fuel : Nat) (rest : List Char), EndsNumber rest →
    2 * ((j.textAt layout).toList ++ rest).length < fuel →
      value fuel depth ((j.textAt layout).toList ++ rest) = (j.node, some rest)

theorem itemsAt_cons (layout : Layout) (item : Json) (others : List Json) (after : List Char) :
    (Json.itemsAt layout (item :: others)).toList ++ after =
      layout.margin.toList ++ ((item.textAt layout).toList ++
        behind layout others ((Json.itemsAt layout others).toList ++ after)) := by
  simp [Json.itemsAt, behind]

/-- An entry from behind the quote that opens its key, with what follows. -/
def entryTail (layout : Layout) (key : String) (item : Json) (others : List (String × Json))
    (after : List Char) : List Char :=
  (Json.escape key).toList ++ '"' :: (layout.colon.toList ++ ((item.textAt layout).toList ++
    behind layout others ((Json.entriesAt layout others).toList ++ after)))

theorem skipSpace_entriesAt (layout : Layout) (key : String) (item : Json)
    (others : List (String × Json)) (after : List Char) :
    skipSpace ((Json.entriesAt layout ((key, item) :: others)).toList ++ after) =
      '"' :: entryTail layout key item others after := by
  have text : (Json.entriesAt layout ((key, item) :: others)).toList ++ after =
      layout.margin.toList ++ '"' :: entryTail layout key item others after := by
    simp [Json.entriesAt, Json.stringText, entryTail, behind]
  rw [text, skipSpace_append (blank_margin layout)]
  exact skipSpace_cons rfl _

/-- Behind a key stands a colon, and a blank behind it makes no difference. -/
theorem exists_colon (layout : Layout) :
    ∃ space, layout.colon.toList = ':' :: space ∧ ∀ c ∈ space, isSpace c = true := by
  cases layout with
  | single => exact ⟨[], by simp [Layout.colon], List.forall_mem_nil _⟩
  | lines depth => exact ⟨[' '], by simp [Layout.colon], by simp [isSpace]⟩

section

variable {depth : Nat} {space : List Char} (blank : ∀ c ∈ space, isSpace c = true)
  (layout : Layout) (rest : List Char)
include blank

theorem items_itemsAt {item : Json} {others : List Json} (first : ReadBack depth item)
    (later : ∀ j ∈ others, ReadBack depth j) (fuel : Nat)
    (enough : 2 * ((Json.itemsAt layout (item :: others)).toList ++
      (space ++ ']' :: rest)).length + 1 < fuel) :
    items fuel depth ((Json.itemsAt layout (item :: others)).toList ++ (space ++ ']' :: rest)) =
      (Json.nodes (item :: others), some rest) := by
  induction others generalizing item fuel with
  | nil =>
    obtain _ | fuel := fuel
    · exact absurd enough (Nat.not_lt_zero _)
    · have none : (Json.itemsAt layout []).toList = [] := by simp [Json.itemsAt]
      rw [itemsAt_cons, none, List.nil_append] at enough ⊢
      rw [List.length_append] at enough
      have close := @skipSpace_behind_nil Json layout _ blank ']' rfl rest
      have ends := @endsNumber_behind_nil Json layout _ blank ']' rest (by simp [EndsNumber])
      rw [items_append (blank_margin layout)]
      exact items_last (first layout fuel _ ends (by omega)) close
  | cons second others ih =>
    obtain _ | fuel := fuel
    · exact absurd enough (Nat.not_lt_zero _)
    · rw [itemsAt_cons] at enough ⊢
      rw [List.length_append] at enough
      obtain ⟨next, later⟩ := List.forall_mem_cons.mp later
      -- One unit of fuel goes to the first item, and less text than before is left behind it.
      have remaining := ih next later fuel (by
        simp only [behind_cons, List.length_append, List.length_cons] at enough ⊢
        omega)
      rw [items_append (blank_margin layout)]
      refine (items_next (first layout fuel _ (endsNumber_behind_cons layout second others _) (by omega))
        (skipSpace_behind_cons ..)).trans ?_
      rw [items_append (blank_gap layout), remaining]
      rfl

theorem entries_entryTail {key : String} {item : Json} {others : List (String × Json)}
    (first : ReadBack depth item) (later : ∀ entry ∈ others, ReadBack depth entry.2) (fuel : Nat)
    (enough : 2 * (entryTail layout key item others (space ++ '\x7d' :: rest)).length + 1 < fuel) :
    entries fuel depth (entryTail layout key item others (space ++ '\x7d' :: rest)) =
      (Json.entryNodes ((key, item) :: others), some rest) := by
  obtain ⟨colon, marked, between⟩ := exists_colon layout
  induction others generalizing key item fuel with
  | nil =>
    obtain _ | fuel := fuel
    · exact absurd enough (Nat.not_lt_zero _)
    · have none : (Json.entriesAt layout []).toList = [] := by simp [Json.entriesAt]
      rw [entryTail, marked, none, List.nil_append, List.cons_append] at enough ⊢
      simp only [List.length_append, List.length_cons] at enough
      have close := @skipSpace_behind_nil (String × Json) layout _ blank '\x7d' rfl rest
      have ends := @endsNumber_behind_nil (String × Json) layout _ blank '\x7d' rest
        (by simp [EndsNumber])
      refine entries_last ?_ key close
      rw [value_append between]
      refine first layout fuel _ ends ?_
      rw [List.length_append]
      omega
  | cons second others ih =>
    obtain _ | fuel := fuel
    · exact absurd enough (Nat.not_lt_zero _)
    · obtain ⟨next, later⟩ := List.forall_mem_cons.mp later
      have quote := skipSpace_entriesAt layout second.1 second.2 others (space ++ '\x7d' :: rest)
      have shorter := length_lt_of_skipSpace quote
      rw [entryTail, marked, List.cons_append] at enough ⊢
      -- From here on only the length of what follows counts, not what it is.
      generalize (Json.entriesAt layout (second :: others)).toList ++ (space ++ '\x7d' :: rest) =
        after at enough quote shorter ⊢
      simp only [behind_cons, List.length_append, List.length_cons] at enough
      have read : value fuel depth
          (colon ++ ((item.textAt layout).toList ++ behind layout (second :: others) after)) =
            (item.node, some (behind layout (second :: others) after)) := by
        rw [value_append between]
        refine first layout fuel _ (endsNumber_behind_cons layout second others _) ?_
        simp only [behind_cons, List.length_append, List.length_cons]
        omega
      have remaining := @ih second.1 second.2 next later fuel (by omega)
      rw [entries_next read key (skipSpace_behind_cons ..)
        ((skipSpace_append (blank_gap layout) _).trans quote), remaining]
      rfl

end

theorem afterWord_append (word rest : List Char) : afterWord word (word ++ rest) = some rest := by
  induction word with
  | nil => rw [afterWord, List.nil_append]
  | cons c word ih => rw [List.cons_append, afterWord, if_pos rfl, ih]

theorem scalar_word (node : Node) (ending : String) (rest : List Char) :
    scalar.word node ending (ending.toList ++ rest) = (node, some rest) := by
  rw [scalar.word, afterWord_append]

/-- A text that a value is read back from, if the reader has any fuel at all. -/
theorem ReadBack.of_succ {depth : Nat} {j : Json}
    (each : ∀ (layout : Layout) (fuel : Nat) (rest : List Char), EndsNumber rest →
      2 * ((j.textAt layout).toList ++ rest).length ≤ fuel →
        value (fuel + 1) depth ((j.textAt layout).toList ++ rest) = (j.node, some rest)) :
    ReadBack depth j := by
  intro layout fuel rest ends enough
  obtain _ | fuel := fuel
  · exact absurd enough (Nat.not_lt_zero _)
  · exact each layout fuel rest ends (Nat.lt_succ_iff.mp enough)

theorem readBack_null (depth : Nat) : ReadBack depth .null := .of_succ fun layout fuel rest _ _ => by
  have text : (Json.textAt layout .null).toList ++ rest = 'n' :: ("ull".toList ++ rest) := by
    simp [Json.textAt]
  rw [text, value_scalar fuel depth _ rfl (by decide) (by decide), scalar, scalar_word, Json.node]

theorem readBack_bool (depth : Nat) (b : Bool) : ReadBack depth (.bool b) :=
  .of_succ fun layout fuel rest _ _ => by
    cases b with
    | false =>
      have text : (Json.textAt layout (.bool false)).toList ++ rest =
          'f' :: ("alse".toList ++ rest) := by simp [Json.textAt]
      rw [text, value_scalar fuel depth _ rfl (by decide) (by decide), scalar, scalar_word,
        Json.node]
    | true =>
      have text : (Json.textAt layout (.bool true)).toList ++ rest =
          't' :: ("rue".toList ++ rest) := by simp [Json.textAt]
      rw [text, value_scalar fuel depth _ rfl (by decide) (by decide), scalar, scalar_word,
        Json.node]

theorem readBack_string {depth : Nat} {j : Json} {s : String}
    (text : ∀ layout, j.textAt layout = Json.stringText s) (tree : j.node = .text s) :
    ReadBack depth j := .of_succ fun layout fuel rest _ _ => by
  have quoted : (Json.stringText s).toList ++ rest =
      '"' :: ((Json.escape s).toList ++ '"' :: rest) := by simp [Json.stringText]
  rw [text, quoted, value_scalar fuel depth _ rfl (by decide) (by decide), scalar,
    stringAfter_escape, tree]

theorem readBack_nat {n : Nat} (small : n < UInt64.size) (depth : Nat) :
    ReadBack depth (.nat n) := .of_succ fun layout fuel rest ends _ => by
  have read := scalar_decimal ends small
  obtain ⟨c, others, letters, digit⟩ := decimal_head n
  have other : ∀ {d : Char}, d.isDigit = false → c ≠ d := by
    rintro d none rfl
    exact absurd digit (Bool.eq_false_iff.mp none)
  have plain : isSpace c = false := by
    simp [isSpace, other (show ' '.isDigit = false by rfl), other (show '\n'.isDigit = false by rfl),
      other (show '\t'.isDigit = false by rfl), other (show '\r'.isDigit = false by rfl)]
  rw [Json.textAt]
  rw [letters, List.cons_append] at read ⊢
  rw [value_scalar fuel depth _ plain (other rfl) (other rfl), read, Json.node]

/-- No member of a list begins with the bracket that ends it. -/
theorem items_bracket (fuel depth : Nat) (rest : List Char) :
    (items fuel depth (']' :: rest)).2 = none := by
  have broken (fuel : Nat) : value fuel depth (']' :: rest) = (.broken, none) := by
    cases fuel with
    | zero => rw [value]
    | succ fuel =>
      rw [value_scalar fuel depth _ rfl (by decide) (by decide)]
      rfl
  cases fuel with
  | zero => rw [items]
  | succ fuel => rw [items, broken]

theorem readBack_arr {depth : Nat} {members : List Json}
    (each : ∀ item ∈ members, ReadBack depth item) : ReadBack (depth + 1) (.arr members) :=
  .of_succ fun layout fuel rest _ enough => by
    cases members with
    | nil =>
      have text : (Json.textAt layout (.arr [])).toList ++ rest = '[' :: ']' :: rest := by
        simp [Json.textAt]
      rw [text, value, skipSpace_cons rfl]
      simp only [skipSpace_cons (show isSpace ']' = false by rfl)]
      rfl
    | cons item others =>
      obtain ⟨first, later⟩ := List.forall_mem_cons.mp each
      have text : (Json.textAt layout (.arr (item :: others))).toList ++ rest =
          '[' :: (layout.gap.toList ++ ((Json.itemsAt layout.deeper (item :: others)).toList ++
            (layout.margin.toList ++ ']' :: rest))) := by simp [Json.textAt]
      rw [text] at enough ⊢
      have inner := items_itemsAt (blank_margin layout) layout.deeper rest first later fuel (by
        simp only [List.length_cons, List.length_append] at enough ⊢
        omega)
      -- A list with members is not taken for an empty one: `items` would read nothing there.
      have some (after : List Char) : skipSpace (layout.gap.toList ++ ((Json.itemsAt layout.deeper
          (item :: others)).toList ++ (layout.margin.toList ++ ']' :: rest))) ≠ ']' :: after := by
        intro none
        have broken := items_bracket fuel depth after
        rw [← none, items_skipSpace, items_append (blank_gap layout), inner] at broken
        cases broken
      rw [value_list fuel depth some, items_append (blank_gap layout), inner]
      rfl

theorem readBack_obj {depth : Nat} {members : List (String × Json)}
    (each : ∀ entry ∈ members, ReadBack depth entry.2) : ReadBack (depth + 1) (.obj members) :=
  .of_succ fun layout fuel rest _ enough => by
    cases members with
    | nil =>
      have text : (Json.textAt layout (.obj [])).toList ++ rest = '\x7b' :: '\x7d' :: rest := by
        simp [Json.textAt]
      rw [text, value, skipSpace_cons rfl]
      simp only [skipSpace_cons (show isSpace '\x7d' = false by rfl)]
      rfl
    | cons entry others =>
      obtain ⟨key, item⟩ := entry
      obtain ⟨first, later⟩ := List.forall_mem_cons.mp each
      have text : (Json.textAt layout (.obj ((key, item) :: others))).toList ++ rest =
          '\x7b' :: (layout.gap.toList ++
            ((Json.entriesAt layout.deeper ((key, item) :: others)).toList ++
              (layout.margin.toList ++ '\x7d' :: rest))) := by simp [Json.textAt]
      have quote := skipSpace_entriesAt layout.deeper key item others
        (layout.margin.toList ++ '\x7d' :: rest)
      have shorter := length_lt_of_skipSpace quote
      rw [text] at enough ⊢
      have inner := @entries_entryTail _ _ (blank_margin layout) layout.deeper rest key item _ first
        later fuel (by
        simp only [List.length_cons, List.length_append] at enough shorter
        omega)
      rw [value_record fuel depth ((skipSpace_append (blank_gap layout) _).trans quote), inner]
      rfl

/-- Every value that a reader can take is read back as its tree. -/
theorem readBack_of_readable {depth : Nat} {j : Json} (readable : Json.Readable depth j) :
    ReadBack depth j := by
  induction readable with
  | null => exact readBack_null _
  | bool b => exact readBack_bool _ b
  | nat small => exact readBack_nat small _
  | str s => exact readBack_string (fun _ => rfl) rfl
  | prose s => exact readBack_string (fun _ => rfl) rfl
  | arr _ each => exact readBack_arr each
  | obj _ each => exact readBack_obj each

/-- The text of a value, with white space behind it, is a document that is read back as its tree. -/
theorem read_textAt {j : Json} (readable : Json.Readable nesting j) (layout : Layout)
    {text : String} {space : List Char} (whole : text.toList = (j.textAt layout).toList ++ space)
    (ends : EndsNumber space) (blank : ∀ c ∈ space, isSpace c = true) :
    read text = (j.node, true) := by
  have value := readBack_of_readable readable layout
    (2 * ((j.textAt layout).toList ++ space).length + 2) space ends (by omega)
  have nothing : skipSpace space = [] := List.dropWhile_eq_nil_iff.mpr blank
  rw [read, whole]
  simp only [value, nothing]
  rfl

/-- The lines of a value are a document. -/
theorem read_file {j : Json} (readable : Json.Readable nesting j) :
    read (Line.file (j.lines 0 "" "")) = (j.node, true) := by
  have text : (Line.file (j.lines 0 "" "")).toList = (j.textAt (.lines 0)).toList ++ ['\n'] := by
    rw [Json.file_lines]
    simp [Json.margin]
  exact read_textAt readable (.lines 0) text (by simp [EndsNumber]) (by simp [isSpace])

theorem read_compact {j : Json} (readable : Json.Readable nesting j) :
    read j.compact = (j.node, true) :=
  read_textAt readable .single (by rw [Json.compact_eq, List.append_nil]) (by simp [EndsNumber])
    (List.forall_mem_nil _)

end JsonText

end RegisterMap
