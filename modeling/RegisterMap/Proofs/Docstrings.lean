import RegisterMap.Document.TomlText.Strings
import RegisterMap.Proofs.PropertyLines

namespace RegisterMap.Accessors

/-- The body of a literal and what follows it. It ends before the first three quotes in a row that
stand behind no backslash; a backslash always takes a character with it. Source text must not have a
null character anywhere, not even in a literal. -/
def bodyAfter : List Char → Option (List Char × List Char)
  | '"' :: '"' :: '"' :: rest => some ([], rest)
  | '\\' :: c :: rest =>
    if c = '\x00' then none
    else (bodyAfter rest).map fun (body, rest) => ('\\' :: c :: body, rest)
  | c :: rest =>
    if c = '\x00' then none else (bodyAfter rest).map fun (body, rest) => (c :: body, rest)
  | [] => none

/-- Inside a literal, every end of a line is a line feed. -/
def lineFeeds : List Char → List Char
  | '\r' :: '\n' :: rest => '\n' :: lineFeeds rest
  | '\r' :: rest => '\n' :: lineFeeds rest
  | c :: rest => c :: lineFeeds rest
  | [] => []

/-- Escapes of one letter. -/
def letterEscapes : List (Char × Char) :=
  [('\\', '\\'), ('\'', '\''), ('"', '"'), ('a', '\x07'), ('b', '\x08'), ('f', '\x0c'),
    ('n', '\n'), ('r', '\r'), ('t', '\t'), ('v', '\x0b')]

/-- Octal digits behind those of `value`, no more than told. -/
def octalAfter (value : Nat) : Nat → List Char → Nat × List Char
  | count + 1, c :: rest =>
    match digitValue? 8 c with
    | some digit => octalAfter (value * 8 + digit) count rest
    | none => (value, c :: rest)
  | _, rest => (value, rest)

/-- A character by its name, up to the bracket behind it. -/
def namedAfter (names : String → Option Char) (cs : List Char) : Option (Char × List Char) :=
  match cs.dropWhile (· != '}') with
  | _ :: rest => (names (String.ofList (cs.takeWhile (· != '}')))).map fun c => (c, rest)
  | [] => none

/-- What an escape stands for, and what follows it; the backslash is read. One that is not known
stands for itself. -/
def escaped (names : String → Option Char) : List Char → Option (List Char × List Char)
  | [] => none
  | '\n' :: rest => some ([], rest)
  | 'x' :: rest => (TomlText.codeAfter 2 rest).map fun (c, rest) => ([c], rest)
  | 'u' :: rest => (TomlText.codeAfter 4 rest).map fun (c, rest) => ([c], rest)
  | 'U' :: rest => (TomlText.codeAfter 8 rest).map fun (c, rest) => ([c], rest)
  | 'N' :: '{' :: rest => (namedAfter names rest).map fun (c, rest) => ([c], rest)
  | 'N' :: _ => none
  | c :: rest =>
    match digitValue? 8 c, letterEscapes.lookup c with
    | some digit, _ =>
      let (code, rest) := octalAfter digit 2 rest
      some ([Char.ofNat code], rest)
    | none, some d => some ([d], rest)
    | none, none => some (['\\', c], rest)

theorem octalAfter_length (value count : Nat) (cs : List Char) :
    (octalAfter value count cs).2.length ≤ cs.length := by
  induction count generalizing value cs with
  | zero => simp [octalAfter]
  | succ count ih =>
    cases cs with
    | nil => simp [octalAfter]
    | cons c rest =>
      rw [octalAfter]
      split
      · exact Nat.le_succ_of_le (ih _ rest)
      · exact le_rfl

theorem namedAfter_length {names : String → Option Char} {cs rest : List Char} {c : Char}
    (read : namedAfter names cs = some (c, rest)) : rest.length ≤ cs.length := by
  unfold namedAfter at read
  split at read
  · rename_i behind
    obtain ⟨_, _, same⟩ := Option.map_eq_some_iff.mp read
    cases same
    have suffix := List.dropWhile_suffix (l := cs) (· != '}')
    rw [behind] at suffix
    exact ((List.suffix_cons ..).trans suffix).length_le
  · cases read

theorem escaped_length {names : String → Option Char} {cs piece rest : List Char}
    (read : escaped names cs = some (piece, rest)) : rest.length ≤ cs.length := by
  -- Whichever reader an escape begins with, it takes the letter and more of what follows.
  have code {c : Char} {more : List Char} {reader : Option (Char × List Char)}
      (shorter : ∀ d left, reader = some (d, left) → left.length ≤ more.length)
      (made : (reader.map fun (d, left) => ([d], left)) = some (piece, rest)) :
      rest.length ≤ (c :: more).length := by
    obtain ⟨⟨d, _⟩, found, same⟩ := Option.map_eq_some_iff.mp made
    cases same
    exact Nat.le_succ_of_le (shorter d _ found)
  unfold escaped at read
  split at read
  · cases read
  · cases read
    simp
  · exact code (fun _ _ => TomlText.codeAfter_length) read
  · exact code (fun _ _ => TomlText.codeAfter_length) read
  · exact code (fun _ _ => TomlText.codeAfter_length) read
  · exact Nat.le_succ_of_le (code (fun _ _ => namedAfter_length) read)
  · cases read
  · split at read
    · cases read
      exact Nat.le_succ_of_le (octalAfter_length ..)
    · cases read
      simp
    · cases read
      simp

/-- The value of a body. -/
def valueOf (names : String → Option Char) : List Char → Option (List Char)
  | [] => some []
  | '\\' :: cs =>
    match _read : escaped names cs with
    | some (piece, rest) => (valueOf names rest).map (piece ++ ·)
    | none => none
  | c :: rest => (valueOf names rest).map (c :: ·)
termination_by body => body.length
decreasing_by
  · exact Nat.lt_succ_of_le (escaped_length _read)
  · simp

/-- The value of a literal and what follows it, where `names` are the characters that have a name.
An escape for half of a pair has no value here, since texts have no such characters. -/
def readLiteral (names : String → Option Char) : List Char → Option (String × List Char)
  | '"' :: '"' :: '"' :: rest => do
    let (body, rest) ← bodyAfter rest
    let value ← valueOf names (lineFeeds body)
    return (String.ofList value, rest)
  | _ => none

/-- How a letter of a description is written. -/
def letters (c : Char) : List Char := if c = '\\' ∨ c = '"' then ['\\', c] else [c]

theorem letters_of_mark {c : Char} (mark : c = '\\' ∨ c = '"') : letters c = ['\\', c] :=
  if_pos mark

theorem letters_of_other {c : Char} (other : ¬ (c = '\\' ∨ c = '"')) : letters c = [c] :=
  if_neg other

/-- The letters of one character are passed over together, unless it is none that can stand there. -/
theorem bodyAfter_letters (c : Char) (rest : List Char) :
    bodyAfter (letters c ++ rest) = if c = '\x00' then none
      else (bodyAfter rest).map fun (body, rest) => (letters c ++ body, rest) := by
  by_cases mark : c = '\\' ∨ c = '"'
  · rw [letters_of_mark mark]
    rfl
  · rw [letters_of_other mark, List.cons_append, List.nil_append, bodyAfter]
    · rfl
    · rintro more rfl
      exact absurd (Or.inr rfl) mark
    · rintro d more rfl
      exact absurd (Or.inl rfl) mark

theorem bodyAfter_flatMap (text rest : List Char) :
    bodyAfter (text.flatMap letters ++ '"' :: '"' :: '"' :: rest) =
      if '\x00' ∈ text then none else some (text.flatMap letters, rest) := by
  induction text with
  | nil => rfl
  | cons c text ih =>
    rw [List.flatMap_cons, List.append_assoc, bodyAfter_letters, ih]
    by_cases null : c = '\x00'
    · rw [if_pos null, if_pos (null ▸ List.mem_cons_self ..)]
    · have later : '\x00' ∈ c :: text ↔ '\x00' ∈ text :=
        List.mem_cons.trans (or_iff_right (Ne.symm null))
      rw [if_neg null, if_congr later rfl rfl]
      split <;> rfl

theorem lineFeeds_of_not_mem {body : List Char} (none : '\r' ∉ body) : lineFeeds body = body := by
  induction body with
  | nil => rfl
  | cons c rest ih =>
    obtain ⟨own, others⟩ := not_or.mp (List.mem_cons.not.mp none)
    rw [lineFeeds, ih others]
    · rintro more rfl
      exact absurd rfl own
    · rintro rfl
      exact absurd rfl own

theorem valueOf_letters (names : String → Option Char) (c : Char) (rest : List Char) :
    valueOf names (letters c ++ rest) = (valueOf names rest).map (c :: ·) := by
  by_cases mark : c = '\\' ∨ c = '"'
  · have known : escaped names (c :: rest) = some ([c], rest) := by
      rcases mark with rfl | rfl
      · rfl
      · rfl
    rw [letters_of_mark mark, List.cons_append, List.cons_append, List.nil_append, valueOf]
    split
    · rename_i piece more read
      rw [known] at read
      cases read
      rfl
    · rename_i read
      rw [known] at read
      cases read
  · rw [letters_of_other mark, List.cons_append, List.nil_append, valueOf]
    exact fun backslash => mark (Or.inl backslash)

theorem valueOf_flatMap (names : String → Option Char) (text : List Char) :
    valueOf names (text.flatMap letters) = some text := by
  induction text with
  | nil => rw [List.flatMap_nil, valueOf]
  | cons c text ih =>
    rw [List.flatMap_cons, valueOf_letters, ih]
    rfl

theorem toList_escape (text : String) : (escape text).toList = text.toList.flatMap letters :=
  String.toList_ofList

theorem escape_append (first second : String) :
    escape (first ++ second) = escape first ++ escape second := by
  simp [escape]

/-- A text in three quotes is read as one literal, whatever follows it. Only a null character, which is
written as it is, keeps it from being read. -/
theorem readLiteral_escape (names : String → Option Char) {text : String} (single : Unbroken text)
    (rest : List Char) :
    readLiteral names (("\"\"\"" ++ escape text ++ "\"\"\"").toList ++ rest) =
      if '\x00' ∈ text.toList then none else some (text, rest) := by
  have parts : ("\"\"\"" ++ escape text ++ "\"\"\"").toList ++ rest =
      '"' :: '"' :: '"' :: (text.toList.flatMap letters ++ '"' :: '"' :: '"' :: rest) := by
    rw [String.toList_append, String.toList_append, toList_escape]
    simp
  have returns : '\r' ∉ text.toList.flatMap letters := by
    rw [← toList_escape]
    exact fun inside => (unbroken_escape single _ inside).2 rfl
  rw [parts, readLiteral, bodyAfter_flatMap]
  split
  · rfl
  · simp only [Option.bind_eq_bind, Option.bind_some, lineFeeds_of_not_mem returns, valueOf_flatMap]
    rw [String.ofList_toList]
    rfl

/-- A docstring without the margin of its line. -/
def docstring (description : String) (access : Access) : String :=
  (docLine "" description access).text

/-- What a docstring says: a description and, in brackets, how access is allowed. -/
def explained (description : String) (access : Access) : String :=
  if description.isEmpty then "(" ++ access.long ++ ")"
  else description ++ (" (" ++ access.long ++ ")")

theorem text_docLine (margin description : String) (access : Access) :
    (docLine margin description access).text = margin ++ docstring description access := by
  unfold docstring docLine
  split
  · simp [String.append_assoc]
  · simp [Line.text, String.append_assoc]

/-- What a docstring says stands in three quotes. -/
theorem docstring_eq (description : String) (access : Access) : docstring description access =
    "\"\"\"" ++ escape (explained description access) ++ "\"\"\"" := by
  unfold docstring docLine explained
  split
  · cases access <;> decide
  · have mode : " (" ++ access.long ++ ")\"\"\"" =
        escape (" (" ++ access.long ++ ")") ++ "\"\"\"" := by
      cases access <;> decide
    calc _ = "\"\"\"" ++ escape description ++ (" (" ++ access.long ++ ")\"\"\"") := by
          rw [Line.text, String.empty_append]
      _ = "\"\"\"" ++ escape description ++ (escape (" (" ++ access.long ++ ")") ++ "\"\"\"") := by
          rw [mode]
      _ = _ := by
          rw [escape_append description]
          simp only [String.append_assoc]

theorem unbroken_explained {description : String} (single : Unbroken description)
    (access : Access) : Unbroken (explained description access) := by
  have mode : Unbroken ("(" ++ access.long ++ ")") ∧ Unbroken (" (" ++ access.long ++ ")") := by
    cases access <;> decide
  unfold explained
  split
  · exact mode.1
  · exact unbroken_append.mpr ⟨single, mode.2⟩

theorem null_mem_explained_iff (description : String) (access : Access) :
    '\x00' ∈ (explained description access).toList ↔ '\x00' ∈ description.toList := by
  have mode : '\x00' ∉ ("(" ++ access.long ++ ")").toList ∧
      '\x00' ∉ (" (" ++ access.long ++ ")").toList := by
    cases access <;> decide
  unfold explained
  split
  · rename_i none
    rw [String.isEmpty_iff.mp none]
    exact iff_of_false mode.1 (by decide)
  · rw [String.toList_append, List.mem_append, or_iff_left mode.2]

theorem readLiteral_docstring (names : String → Option Char) {description : String}
    (single : Unbroken description) (access : Access) (rest : List Char) :
    readLiteral names ((docstring description access).toList ++ rest) =
      if '\x00' ∈ description.toList then none else some (explained description access, rest) := by
  rw [docstring_eq, readLiteral_escape names (unbroken_explained single access)]
  exact if_congr (null_mem_explained_iff description access) rfl rfl

/-- Every docstring of accessors for a compiled map is one literal, that ends with its last three
quotes: what follows it, whatever this is, is left as it is. Its value is the description with the
access behind it. So is that of every property, below the line that names the property. A description
with a null character is the only exception: its docstring is no literal at all. -/
theorem compile_docstrings {config : Config} {d : Description} {m : AddressMap}
    (compiled : compile config d = .ok m) (path : Path) (names : String → Option Char) :
    (∀ description ∈ m.descriptions, ∀ (access : Access) (rest : List Char),
      readLiteral names ((docstring description access).toList ++ rest) =
        if '\x00' ∈ description.toList then none
        else some (explained description access, rest)) ∧
    ∀ p ∈ (ofMap m).properties, p.description ∈ m.descriptions ∧
      Stand [.plain ("    def " ++ p.name ++ "(self):"),
        .plain ("        " ++ docstring p.description p.access)] (artifact path m).content := by
  have whole := compile_unbroken compiled
  refine ⟨fun description among access rest => ?_, fun p inside => ⟨?_, ?_⟩⟩
  · exact readLiteral_docstring names (whole.descriptions _ among) access rest
  · obtain ⟨r, among, ⟨f, within, rfl⟩ | rfl⟩ := mem_properties_iff.mp inside
    · exact AddressMap.field_mem_descriptions among within
    · exact AddressMap.register_mem_descriptions among
  · have stand := stand_property whole path inside
    rw [Property.lines_eq] at stand
    have method : Stand [.plain ("    def " ++ p.name ++ "(self):"),
        docLine "        " p.description p.access] (artifact path m).content :=
      (stand.mono (List.infix_append ..)).mono (List.prefix_append ..).isInfix
    simpa only [Stand, List.map_cons, List.map_nil, Line.text_plain, text_docLine] using method

/-- Descriptions that begin and end with quotes and backslashes, and one with a null character in it. -/
def quoted : Description where
  name := "quoted"
  registers :=
    [{ name := "CTRL", address := 0, description := "\\\"\"\" ends with \"\"\" and \\",
       fields := [{ name := "EN", description := "see \x00 below", access := .readOnly }] }]

theorem compile_quoted : compile {} quoted = .ok (quoted.mapOf {} .w32) :=
  compile_eq_ok_iff.mpr ⟨.w32, by decide +kernel, rfl⟩

theorem descriptions_quoted : (quoted.mapOf {} .w32).descriptions =
    ["\\\"\"\" ends with \"\"\" and \\", "see \x00 below"] := by cbv

theorem quoted_docstrings :
    compile {} quoted = .ok (quoted.mapOf {} .w32) ∧
      "\\\"\"\" ends with \"\"\" and \\" ∈ (quoted.mapOf {} .w32).descriptions ∧
      readLiteral (fun _ => none)
          ((docstring "\\\"\"\" ends with \"\"\" and \\" .readOnly).toList ++ ['"', '\n']) =
        some ("\\\"\"\" ends with \"\"\" and \\ (read-only)", ['"', '\n']) := by
  have among : "\\\"\"\" ends with \"\"\" and \\" ∈ (quoted.mapOf {} .w32).descriptions := by
    rw [descriptions_quoted]
    exact List.mem_cons_self ..
  obtain ⟨read, -⟩ := compile_docstrings compile_quoted ⟨"quoted.py"⟩ fun _ => none
  have value : explained "\\\"\"\" ends with \"\"\" and \\" .readOnly =
      "\\\"\"\" ends with \"\"\" and \\ (read-only)" := by simp [explained, Access.long]
  have free : '\x00' ∉ "\\\"\"\" ends with \"\"\" and \\".toList := by decide
  have literal := read _ among .readOnly ['"', '\n']
  rw [if_neg free, value] at literal
  exact ⟨compile_quoted, among, literal⟩

/-- Descriptions may have any characters but line breaks, and all but quotes and backslashes are written
as they are. So a map with a null character compiles, and a docstring of it cannot be read. -/
theorem blotted_unread :
    ¬ ∀ (config : Config) (d : Description) (m : AddressMap), compile config d = .ok m →
      ∀ description ∈ m.descriptions, ∀ (access : Access) (rest : List Char),
        readLiteral (fun _ => none) ((docstring description access).toList ++ rest) =
          some (explained description access, rest) := by
  intro readable
  have among : "see \x00 below" ∈ (quoted.mapOf {} .w32).descriptions := by
    rw [descriptions_quoted]
    exact List.mem_cons_of_mem _ (List.mem_cons_self ..)
  have single : Unbroken "see \x00 below" := by decide
  have null : '\x00' ∈ "see \x00 below".toList := by decide
  have read := readable {} quoted _ compile_quoted _ among .readWrite []
  rw [readLiteral_docstring _ single, if_pos null] at read
  cases read

end RegisterMap.Accessors
