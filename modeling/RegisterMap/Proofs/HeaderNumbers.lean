import RegisterMap.Header.Text
import RegisterMap.Proofs.Descriptions
import RegisterMap.Proofs.LineReading
import RegisterMap.Proofs.NumberTable
import RegisterMap.Proofs.Scopes
import RegisterMap.Proofs.SlotNames

namespace RegisterMap

namespace Header

/-- What a line of a header says that has a number in it: a constant, or a named value. -/
inductive Statement where
  | constant (entry : String × Nat)
  | value (entry : String × Nat)
  deriving DecidableEq, Repr

def forms : List (Form Statement) :=
  [.naming false "#define " " " fun name n => .constant (name, n),
    .naming false "    " " = " fun name n => .value (name, n)]

namespace Lead

variable (lead : Lead)

/-- A name of a map as it stands in a header. -/
def extend (entry : String × Nat) : String × Nat := (lead.capital ++ ("_" ++ entry.1), entry.2)

/-- A name without the lead in front of it. A name that does not begin with the lead is kept. -/
def strip (entry : String × Nat) : String × Nat :=
  (String.ofList ((entry.1.toList.dropPrefix? (lead.capital ++ "_").toList).getD entry.1.toList),
    entry.2)

@[simp] theorem strip_extend (entry : String × Nat) : lead.strip (lead.extend entry) = entry := by
  rw [strip, extend, ← String.append_assoc, String.toList_append, dropPrefix?_append,
    Option.getD_some, String.ofList_toList]

end Lead

def Statement.constant? : Statement → Option (String × Nat)
  | constant entry => some entry
  | value _ => none

def Statement.value? : Statement → Option (String × Nat)
  | constant _ => none
  | value entry => some entry

/-- The constants that a reader of a header finds, by their names behind the lead. -/
def constantsIn (lead : Lead) (content : String) : List (String × Nat) :=
  ((readings forms content).filterMap Statement.constant?).map lead.strip

def valuesIn (lead : Lead) (content : String) : List (String × Nat) :=
  ((readings forms content).filterMap Statement.value?).map lead.strip

theorem isWord_storage (word : Word) : IsWord (storage word) := by
  simp +decide [storage, isWord_decimal]

theorem unbroken_qualifier (access : Access) : Unbroken (qualifier access) := by
  cases access <;> decide

theorem unbroken_commentText {description : String} (single : Unbroken description) :
    Unbroken (commentText description) := by
  refine single.of_subset ?_
  rw [commentText, String.toList_ofList]
  exact (List.rdropWhile_prefix ..).subset

theorem reads_withComment {code mark description : String} (silent : Silent forms code)
    (whole : Unbroken code) (start : Unbroken mark) (single : Unbroken description) :
    Reads forms [withComment code mark description] [] := by
  unfold withComment
  split
  · exact .plain silent whole
  · have comment := unbroken_commentText single
    refine .silent (List.forall_mem_singleton.mpr ?_) (List.forall_mem_singleton.mpr ?_)
    · simp [Line.text, whole, start, comment]
    · simp only [Line.text, String.toList_append, List.append_assoc]
      exact silent _

/-- A bit field looks like an enumerator at first, but a name or a colon stands behind its type. -/
theorem said_storage (word : Word) {behind : List Char}
    (other : wordsBehind [" = "] (' ' :: behind) = none) :
    said forms (("    " ++ storage word).toList ++ ' ' :: behind) = none := by
  -- The form of constants fails at once, that of values only behind the type.
  have value : wordsBehind ["    ", " = "] (("    " ++ storage word).toList ++ ' ' :: behind) =
      none := by
    rw [String.toList_append, List.append_assoc, wordsBehind_word (isWord_storage word) ?_, other]
    · rfl
    · simp [isNameChar]
  refine (said_of_none ?_).trans (said_of_none value)
  rw [String.toList_append]
  rfl

theorem silent_padding (word : Word) : Silent forms ("    " ++ storage word ++ " : ") := by
  intro rest
  rw [String.toList_append, List.append_assoc]
  exact said_storage word rfl

theorem silent_member (word : Word) {name : String} (named : IsWord name) :
    Silent forms ("    " ++ storage word ++ " " ++ name ++ " : ") := by
  intro rest
  have parts : ("    " ++ storage word ++ " " ++ name ++ " : ").toList ++ rest =
      ("    " ++ storage word).toList ++ ' ' :: (name.toList ++ ' ' :: (':' :: ' ' :: rest)) := by
    simp
  rw [parts]
  exact said_storage word (wordsBehind_equals named (by decide) _ _)

theorem silent_qualifier (access : Access) : Silent forms ("        " ++ qualifier access) := by
  intro rest
  rw [String.toList_append, List.append_assoc]
  rfl

theorem reads_bitMember {word : Word} {run : BitRun}
    (whole : ∀ f, run = .field f → IsWord f.name ∧ Unbroken f.description) :
    Reads forms [(BitMember.ofRun run).line word] [] := by
  have type := (isWord_storage word).unbroken
  cases run with
  | padding width => exact .plain ((silent_padding word).appends [_, _]) (by simp +decide [type])
  | field f =>
    obtain ⟨named, single⟩ := whole f rfl
    refine reads_withComment ((silent_member word named).appends [_, _]) ?_ (by decide) single
    simp +decide [type, named.unbroken]

theorem reads_mapMember {word : Word} {member : MapMember}
    (whole : ∀ access name bits description, member = .register access name bits description →
      IsWord name ∧ Unbroken bits ∧ Unbroken description) :
    Reads forms (member.lines word) [] := by
  have storage := (isWord_storage word).unbroken
  cases member with
  | reserved index words =>
    have span : Silent forms ("    __IO " ++ Header.storage word) := fun rest => by
      rw [Header.storage, String.toList_append, String.toList_append, String.toList_append]
      rfl
    exact .plain (span.appends [_, _, _, _, _]) (by simp +decide [storage])
  | register access name bits description =>
    obtain ⟨named, type, single⟩ := whole access name bits description rfl
    have kind := silent_qualifier access
    have mode := unbroken_qualifier access
    have opening : Reads forms ["    union \x7b"] [] := .silent (by decide) (by decide)
    have ending : Reads forms ["    \x7d;"] [] := .silent (by decide) (by decide)
    refine opening.below (Reads.below ?_ (Reads.below ?_ ending))
    · refine reads_withComment (kind.appends [_, _, _, _, _]) ?_ (by decide) single
      simp +decide [mode, storage, named.unbroken]
    · refine .plain (kind.appends [_, _, _, _, _, _, _]) ?_
      simp +decide [mode, type, named.unbroken]

/-- A lead that was made of a word: capital letters for constants, small ones for types. -/
structure Lead.Plain (lead : Lead) : Prop where
  capital : IsWord lead.capital
  small : IsWord lead.small

theorem Lead.plain_of {name : String} (word : IsWord name) : (Lead.of name).Plain := by
  have capital := word.asciiUpper
  constructor
  · rwa [of, toCapitals_eq_asciiUpper word]
  · rw [of, toCapitals_eq_asciiUpper word, toSmallLetters_eq_asciiLower capital]
    exact capital.asciiLower

section

variable {lead : Lead} (plain : lead.Plain)
include plain

theorem isWord_extend {name : String} (named : IsWord name) (n : Nat) :
    IsWord (lead.extend (name, n)).1 := by simp +decide [Lead.extend, plain.capital, named]

/-- A constant by its full name. -/
theorem reads_constant {word : Word} {full name : String} {value : Literal}
    (unmarked : value.isMarked = false) (parts : full = lead.capital ++ ("_" ++ name))
    (named : IsWord name) :
    Reads forms ((Declaration.define full value).lines word)
      [.constant (lead.extend (name, value.value))] := by
  have whole : IsWord full := parts ▸ isWord_extend plain named 0
  have text : "#define " ++ full ++ " " ++ value.text =
      "#define " ++ (full ++ (" " ++ (value.text ++ ""))) := by simp [String.append_assoc]
  rw [Lead.extend, ← parts]
  refine .line ?_ (said_of_some ?_)
  · simp +decide [whole.unbroken]
  · rw [Line.text_plain, text]
    exact Form.naming_said whole (by simp [isNameChar]) (by decide) (by simp) (by simp [unmarked])

theorem reads_value {l : Line} {name rest : String} {n : Nat} (named : IsWord name)
    (parts : l.text =
      "    " ++ ((lead.extend (name, n)).1 ++ (" = " ++ ((Literal.hex n).text ++ rest))))
    (tail : Unbroken rest) (ends : ∀ c ∈ rest.toList.head?, isNameChar c = false) :
    Reads forms [l] [.value (lead.extend (name, n))] := by
  have whole := isWord_extend plain named n
  have other : said forms l.text.toList = said (forms.drop 1) l.text.toList := by
    refine said_of_none ?_
    rw [parts, String.toList_append]
    rfl
  refine .line ?_ ?_
  · simp only [parts, unbroken_append]
    exact ⟨by decide, whole.unbroken, by decide, Literal.unbroken_text _, tail⟩
  · rw [other, parts]
    refine said_of_some ?_
    exact Form.naming_said whole (by simp [isNameChar]) (by decide) ends
      (by simp [Literal.isMarked])

theorem reads_enumerator {name description : String} {n : Nat} (named : IsWord name)
    (single : Unbroken description) :
    Reads forms [(Enumerator.mk (lead.extend (name, n)).1 n description).line]
      [.value (lead.extend (name, n))] := by
  have comment := unbroken_commentText single
  unfold Enumerator.line withComment
  split
  · refine @reads_value _ plain _ _ "," _ named ?_ (by decide) ?_
    · simp [String.append_assoc, Literal.text]
    · simp [isNameChar]
  · refine @reads_value _ plain _ _ ("," ++ " //" ++ commentText description) _ named ?_ ?_ ?_
    · simp [Line.text, String.append_assoc, Literal.text]
    · simp +decide [comment]
    · simp [isNameChar]

/-- The name of the map itself is defined as no number. -/
theorem reads_overlay {type base : String} (whole : Unbroken type) (start : Unbroken base) :
    Reads forms ["#define " ++ lead.capital ++ " ((" ++ type ++ "*)(" ++ base ++ "))"] [] := by
  have silent : Silent forms ("#define " ++ lead.capital ++ " ((") := by
    intro rest
    have parts : ("#define " ++ lead.capital ++ " ((").toList ++ rest =
        "#define ".toList ++ (lead.capital.toList ++ (' ' :: '(' :: '(' :: rest)) := by simp
    rw [parts]
    refine (said_of_bind ?_).trans (said_of_none (by rfl))
    simp only [Form.naming]
    rw [wordsBehind_word plain.capital (by simp [isNameChar])]
    rfl
  refine .plain (silent.appends [_, _, _, _]) ?_
  simp +decide [plain.capital.unbroken, whole, start]

end

namespace Lead

variable (lead : Lead)

theorem constant_pair (a b : String) :
    lead.constant [a, b] = lead.capital ++ ("_" ++ (a ++ "_" ++ b)) := by
  simp [constant, String.intercalate_cons_cons, String.append_assoc]

theorem constant_triple (a b c : String) :
    lead.constant [a, b, c] = lead.capital ++ ("_" ++ (a ++ "_" ++ b ++ "_" ++ c)) := by
  simp [constant, String.intercalate_cons_cons, String.append_assoc]

section

variable {lead : Lead} (plain : lead.Plain) {parts : List String}
  (words : ∀ part ∈ parts, IsWord part)
include plain words

theorem isWord_constant : IsWord (lead.constant parts) :=
  forall_mem_intercalate (show IsWord "_" by decide)
    (List.forall_mem_cons.mpr ⟨plain.capital, words⟩)

theorem isWord_typeName : IsWord (lead.typeName parts) := by
  have all : ∀ part ∈ lead.small :: parts ++ ["t"], IsWord part :=
    List.forall_mem_append.mpr ⟨List.forall_mem_cons.mpr ⟨plain.small, words⟩, by decide⟩
  exact forall_mem_intercalate (show IsWord "_" by decide) all

end

end Lead

section

variable (lead : Lead)

def fieldStatements (r : Register) (f : Field) : List Statement :=
  ((f.numbers r).map fun entry => .constant (lead.extend entry)) ++
    (f.valueNumbers r).map fun entry => .value (lead.extend entry)

def registerStatements (r : Register) : List Statement :=
  (r.ownNumbers.map fun entry => .constant (lead.extend entry)) ++
    r.fields.flatMap (fieldStatements lead r)

def statements (m : AddressMap) : List Statement :=
  .constant (lead.extend ("BASE_ADDR", m.base)) :: m.registers.flatMap (registerStatements lead)

end

theorem reads_block {opening name : String} {members : List Line} {told : List Statement}
    (silent : Silent forms opening) (start : Unbroken opening) (named : Unbroken name)
    (inner : Reads forms members told) : Reads forms (block opening members name) told := by
  have first : Reads forms [.plain (opening ++ " \x7b")] [] :=
    .plain (silent.appends [_]) (by simp +decide [start])
  have last : Reads forms [.plain ("\x7d " ++ name ++ ";")] [] :=
    .plain (Silent.appends (fun rest => by rfl) [_, _]) (by simp +decide [named])
  exact (first.below inner).append_silent last

theorem reads_space (word : Word) : Reads forms (Declaration.space.lines word) [] :=
  .silent (List.forall_mem_singleton.mpr (by decide)) (List.forall_mem_singleton.mpr (by decide))

theorem reads_remark {word : Word} {subject description : String} (named : Unbroken subject)
    (single : Unbroken description) :
    Reads forms ((Declaration.remark subject description).lines word) [] :=
  reads_withComment (Silent.appends (fun rest => by rfl) [_]) (by simp +decide [named]) (by decide)
    single

section

variable {lead : Lead} (plain : lead.Plain) {m : AddressMap} (whole : m.Unbroken) {r : Register}
  (inside : r ∈ m.registers)
include plain whole inside

theorem reads_enumerators {f : Field} (within : f ∈ r.fields) :
    Reads forms
      (f.values.map fun v => Enumerator.line
        ⟨lead.constant [asciiUpper r.name, asciiUpper f.name, asciiUpper v.name], v.value,
          v.description⟩)
      ((f.valueNumbers r).map fun entry => .value (lead.extend entry)) := by
  rw [Field.valueNumbers, List.map_map]
  refine .map fun v of => ?_
  have register := (isWord_of_isIdentifier (whole.identifiers.register r inside)).asciiUpper
  have field := (isWord_of_isIdentifier (whole.identifiers.field r inside f within)).asciiUpper
  have value := (isWord_of_isIdentifier (whole.identifiers.value r inside f within v of)).asciiUpper
  rw [Lead.constant_triple]
  exact reads_enumerator plain (by simp +decide [register, field, value])
    (whole.value inside within of)

/-- The constant of a field that ends in some word. -/
theorem reads_fieldConstant {f : Field} (within : f ∈ r.fields) (word : Word) {ending : String}
    (last : IsWord ending) (value : Literal) (unmarked : value.isMarked = false) :
    Reads forms
      ((Declaration.define (lead.constant [asciiUpper r.name, asciiUpper f.name, ending])
        value).lines word)
      [.constant (lead.extend (f.capitals r ++ ("_" ++ ending), value.value))] := by
  have register := (isWord_of_isIdentifier (whole.identifiers.register r inside)).asciiUpper
  have field := (isWord_of_isIdentifier (whole.identifiers.field r inside f within)).asciiUpper
  refine reads_constant plain unmarked ?_ ?_
  · simp [Lead.constant_triple, Field.capitals, String.append_assoc]
  · simp +decide [Field.capitals, register, field, last]

theorem reads_fieldDeclarations {f : Field} (within : f ∈ r.fields) (word : Word) :
    Reads forms ((fieldDeclarations lead r f).flatMap (Declaration.lines word))
      (fieldStatements lead r f) := by
  have register := isWord_of_isIdentifier (whole.identifiers.register r inside)
  have field := isWord_of_isIdentifier (whole.identifiers.field r inside f within)
  have constant {ending : String} (last : IsWord ending) :=
    reads_fieldConstant plain whole inside within word last
  have remark : Reads forms
      ((Declaration.remark (r.name ++ "." ++ f.name) f.description).lines word) [] :=
    reads_remark (by simp +decide [register.unbroken, field.unbroken]) (whole.field inside within)
  have values : Reads forms
      ((if f.values.isEmpty then []
        else
          [Declaration.values (lead.typeName [asciiLower r.name, asciiLower f.name])
            (f.values.map fun v =>
              ⟨lead.constant [asciiUpper r.name, asciiUpper f.name, asciiUpper v.name], v.value,
                v.description⟩)]).flatMap (Declaration.lines word))
      ((f.valueNumbers r).map fun entry => .value (lead.extend entry)) := by
    split
    · rename_i none
      rw [Field.valueNumbers, List.isEmpty_iff.mp none]
      exact .silent nofun nofun
    · have type : Unbroken (lead.typeName [asciiLower r.name, asciiLower f.name]) :=
        (Lead.isWord_typeName plain (by simp [register.asciiLower, field.asciiLower])).unbroken
      rw [List.flatMap_singleton, Declaration.lines, List.map_map]
      exact reads_block (fun rest => by rfl) (by decide) type
        (reads_enumerators plain whole inside within)
  have width : IsWord "WIDTH" := by decide
  have lsb : IsWord "LSB" := by decide
  have mask : IsWord "MASK" := by decide
  have reset : IsWord "RESET" := by decide
  have constants := (constant width (.decimal f.width) rfl).append
    ((constant lsb (.decimal f.lsb) rfl).append
      ((constant mask (.hex f.mask) rfl).append (constant reset (.hex f.reset) rfl)))
  rw [fieldDeclarations, List.cons_append, List.cons_append, List.flatMap_cons,
    List.flatMap_append, List.flatMap_append]
  exact remark.append ((constants.append values).append_silent (reads_space word))

theorem reads_bits (word : Word) :
    Reads forms
      ((Declaration.bits (lead.typeName [asciiLower r.name])
        ((r.bitRuns word).map .ofRun)).lines word) [] := by
  have register := isWord_of_isIdentifier (whole.identifiers.register r inside)
  have type : Unbroken (lead.typeName [asciiLower r.name]) :=
    (Lead.isWord_typeName plain (by simp [register.asciiLower])).unbroken
  have members : Reads forms
      ((r.bitRuns word).flatMap fun run => [(BitMember.ofRun run).line word])
      ((r.bitRuns word).flatMap fun _ => []) := by
    refine .flatMap fun run among => reads_bitMember ?_
    rintro f rfl
    have within := r.fieldsByLsb_perm.mem_iff.mp (BitRun.mem_of_field_mem_cover among)
    exact ⟨isWord_of_isIdentifier (whole.identifiers.field r inside f within),
      whole.field inside within⟩
  rw [flatMap_nil, ← List.map_eq_flatMap] at members
  refine reads_block (fun rest => by rfl) (by decide) type ?_
  rw [List.map_map]
  exact members

/-- The constant of a register that ends in some word. -/
theorem reads_registerConstant (word : Word) {ending : String} (last : IsWord ending)
    (value : Literal) (unmarked : value.isMarked = false) :
    Reads forms ((Declaration.define (lead.constant [asciiUpper r.name, ending]) value).lines word)
      [.constant (lead.extend (asciiUpper r.name ++ ("_" ++ ending), value.value))] := by
  have register := (isWord_of_isIdentifier (whole.identifiers.register r inside)).asciiUpper
  refine reads_constant plain unmarked ?_ ?_
  · simp [Lead.constant_pair, String.append_assoc]
  · simp +decide [register, last]

theorem reads_registerDeclarations (word : Word) :
    Reads forms ((registerDeclarations lead word r).flatMap (Declaration.lines word))
      (registerStatements lead r) := by
  have register := isWord_of_isIdentifier (whole.identifiers.register r inside)
  have remark : Reads forms ((Declaration.remark r.name r.description).lines word) [] :=
    reads_remark register.unbroken (whole.register inside)
  have first : IsWord "ADDR" := by decide
  have second : IsWord "RESET" := by decide
  have address := reads_registerConstant plain whole inside word first (.hex r.address) rfl
  have reset := reads_registerConstant plain whole inside word second (.hex r.reset) rfl
  have bits := reads_bits plain whole inside word
  have fields : Reads forms
      ((r.fields.flatMap (fieldDeclarations lead r)).flatMap (Declaration.lines word))
      (r.fields.flatMap (fieldStatements lead r)) := by
    rw [List.flatMap_assoc]
    exact .flatMap fun f within => reads_fieldDeclarations plain whole inside within word
  rw [registerDeclarations, List.flatMap_append]
  exact (remark.append (address.append
    (reset.append (bits.append_silent (reads_space word))))).append fields

omit inside in
theorem reads_mapMembers {word : Word} {index : Nat} {slots : List Slot}
    (among : ∀ r ∈ slots.filterMap Slot.register?, r ∈ m.registers) :
    Reads forms ((mapMembers lead index slots).flatMap (MapMember.lines word)) [] := by
  induction slots generalizing index with
  | nil => exact .silent nofun nofun
  | cons slot rest ih => cases slot with
    | reserved s =>
      rw [mapMembers, List.flatMap_cons]
      refine Reads.append (reads_mapMember ?_) (ih among)
      rintro _ _ _ _ ⟨⟩
    | register r =>
      obtain ⟨own, others⟩ := List.forall_mem_cons.mp among
      have register := isWord_of_isIdentifier (whole.identifiers.register r own)
      rw [mapMembers, List.flatMap_cons]
      refine Reads.append (reads_mapMember ?_) (ih others)
      rintro _ _ _ _ ⟨⟩
      exact ⟨register, (Lead.isWord_typeName plain (by simp [register.asciiLower])).unbroken,
        whole.register own⟩

omit inside in
/-- The declarations of a header state the constants and values of its map. -/
theorem reads_declarations :
    Reads forms ((declarations lead m).flatMap (Declaration.lines m.word)) (statements lead m) := by
  have named : IsWord "BASE_ADDR" := by decide
  have base : Reads forms
      ((Declaration.define (lead.constant ["BASE_ADDR"]) (.hex m.base)).lines m.word)
      [.constant (lead.extend ("BASE_ADDR", m.base))] := by
    refine @reads_constant _ plain _ _ _ (.hex m.base) rfl ?_ named
    simp [Lead.constant, String.intercalate_cons_cons, String.append_assoc]
  have registers : Reads forms
      ((m.registers.flatMap (registerDeclarations lead m.word)).flatMap (Declaration.lines m.word))
      (m.registers.flatMap (registerStatements lead)) := by
    rw [List.flatMap_assoc]
    exact .flatMap fun r inside => reads_registerDeclarations plain whole inside m.word
  have space := reads_space m.word
  have type : Unbroken (lead.typeName []) := (@Lead.isWord_typeName lead plain [] nofun).unbroken
  have remark : Reads forms ((Declaration.remark "Register map structure" "").lines m.word) [] :=
    reads_remark (by decide) (by decide)
  have map : Reads forms
      ((Declaration.map (lead.typeName []) (mapMembers lead 0 m.slots)).lines m.word) [] := by
    refine reads_block (fun rest => by rfl) (by decide) type (reads_mapMembers plain whole ?_)
    rw [AddressMap.slots, register?_mergeSlots]
    exact fun r inside => inside
  have overlay : Reads forms ((Declaration.overlay lead.capital (lead.typeName [])
      (lead.constant ["BASE_ADDR"])).lines m.word) [] := by
    refine reads_overlay plain type ?_
    simp +decide [Lead.constant, String.intercalate_cons_cons, plain.capital.unbroken]
  rw [declarations, List.flatMap_append, List.flatMap_append]
  exact ((base.append_silent space).append registers).append_silent
    (space.append (remark.append (map.append (space.append (overlay.append space)))))

end

section

variable {guard : String} (named : IsWord guard)
include named

theorem reads_opening : Reads forms (opening guard) [] := by
  have first : Reads forms ["// Created with " ++ generatorName] [] :=
    .silent (by decide) (by decide)
  have asked : Reads forms [.plain ("#ifndef " ++ guard)] [] :=
    .plain (Silent.appends (fun rest => by rfl) [_]) (by simp +decide [named.unbroken])
  have given : Reads forms [.plain ("#define " ++ guard)] [] := by
    refine .silent (List.forall_mem_singleton.mpr ?_) (List.forall_mem_singleton.mpr ?_)
    · simp +decide [named.unbroken]
    · have alone : "#define " ++ guard = "#define " ++ (guard ++ "") := by simp
      rw [Line.text_plain, alone]
      refine (said_of_none ?_).trans (said_of_none ?_)
      · exact wordsBehind_cons named (by simp) _
      · rw [String.toList_append]
        rfl
  have rest : Reads forms ((opening "").drop 3) [] := .silent (by decide) (by decide)
  exact first.below (asked.below (given.below rest))

theorem reads_ending : Reads forms (ending guard) [] := by
  have start : Reads forms ((ending "").take 4) [] := .silent (by decide) (by decide)
  have last : Reads forms [.plain ("#endif /* " ++ guard ++ " */")] [] :=
    .plain (Silent.appends (fun rest => by rfl) [_, _]) (by simp +decide [named.unbroken])
  exact start.append last

end

theorem isWord_guardName (path : Path) : IsWord (guardName path) := by
  refine isWord_append.mpr ⟨isWord_append.mpr ⟨by decide, fun c inside => ?_⟩, by decide⟩
  rw [String.toList_map] at inside
  obtain ⟨d, _, rfl⟩ := List.mem_map.mp inside
  split
  · exact isNameChar_of_isAlphanum ‹_›
  · rfl

section

variable (lead : Lead) (m : AddressMap)

theorem constants_statements :
    ((statements lead m).filterMap Statement.constant?).map lead.strip =
      ("BASE_ADDR", m.base) :: m.registers.flatMap Register.numbers := by
  have field (r : Register) (f : Field) :
      ((fieldStatements lead r f).filterMap Statement.constant?).map lead.strip = f.numbers r := by
    simp [fieldStatements, List.filterMap_map, Function.comp_def, Statement.constant?]
  have register (r : Register) :
      ((registerStatements lead r).filterMap Statement.constant?).map lead.strip = r.numbers := by
    simp [registerStatements, Register.numbers, field, List.filterMap_map, List.filterMap_flatMap,
      List.map_flatMap, Function.comp_def, Statement.constant?]
  rw [statements, List.filterMap_cons, List.filterMap_flatMap]
  simp only [Statement.constant?, List.map_cons, List.map_flatMap, register, Lead.strip_extend]

theorem values_statements :
    ((statements lead m).filterMap Statement.value?).map lead.strip =
      m.registers.flatMap Register.valueNumbers := by
  have field (r : Register) (f : Field) :
      ((fieldStatements lead r f).filterMap Statement.value?).map lead.strip =
        f.valueNumbers r := by
    simp [fieldStatements, List.filterMap_map, Function.comp_def, Statement.value?]
  have register (r : Register) :
      ((registerStatements lead r).filterMap Statement.value?).map lead.strip =
        r.valueNumbers := by
    simp [registerStatements, Register.valueNumbers, field, List.filterMap_map,
      List.filterMap_flatMap, List.map_flatMap, Function.comp_def, Statement.value?]
  rw [statements, List.filterMap_cons, List.filterMap_flatMap]
  simp only [Statement.value?, List.map_flatMap, register]

end

theorem content_artifact (path : Path) (lead : Option String) (m : AddressMap) :
    (artifact path lead m).content =
      Line.file (lines (.of (lead.getD m.name)) (guardName path) m) := by rw [artifact]

section

variable {m : AddressMap} (whole : m.Unbroken) (path : Path) {lead : Option String}
  (given : ∀ name ∈ lead, IsWord name)
include whole given

theorem plain_lead : (Lead.of (lead.getD m.name)).Plain := by
  refine Lead.plain_of ?_
  cases lead with
  | none => exact isWord_of_isIdentifier whole.name
  | some name => exact given name rfl

theorem reads_lines : Reads forms (lines (.of (lead.getD m.name)) (guardName path) m)
    (statements (.of (lead.getD m.name)) m) := by
  have guard := isWord_guardName path
  exact ((reads_opening guard).append
    (reads_declarations (plain_lead whole given) whole)).append_silent (reads_ending guard)

/-- The lines of a header are those that it was made of. -/
theorem textLines_artifact : textLines (artifact path lead m).content =
    (lines (.of (lead.getD m.name)) (guardName path) m).map (fun l => l.text.toList) ++ [[]] := by
  rw [content_artifact, Line.textLines_file_of_unbroken (reads_lines whole path given).unbroken]

theorem readings_artifact : readings forms (artifact path lead m).content =
    statements (.of (lead.getD m.name)) m := by
  have nothing : said forms [] = none := by decide
  rw [content_artifact]
  exact (reads_lines whole path given).readings_file nothing

theorem constantsIn_artifact :
    constantsIn (.of (lead.getD m.name)) (artifact path lead m).content =
      ("BASE_ADDR", m.base) :: m.registers.flatMap Register.numbers := by
  rw [constantsIn, readings_artifact whole path given, constants_statements]

theorem valuesIn_artifact : valuesIn (.of (lead.getD m.name)) (artifact path lead m).content =
    m.registers.flatMap Register.valueNumbers := by
  rw [valuesIn, readings_artifact whole path given, values_statements]

end

end Header

end RegisterMap
