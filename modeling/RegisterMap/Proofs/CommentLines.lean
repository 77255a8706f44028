import RegisterMap.Header.Text
import RegisterMap.Proofs.Descriptions
import RegisterMap.Proofs.FieldLayout
import RegisterMap.Proofs.SlotNames

namespace RegisterMap

/-- Whether a character is neither a line break nor a backslash. -/
def Bare (c : Char) : Prop := c ≠ '\n' ∧ c ≠ '\r' ∧ c ≠ '\\'

instance {c : Char} : Decidable (Bare c) :=
  inferInstanceAs (Decidable (c ≠ '\n' ∧ c ≠ '\r' ∧ c ≠ '\\'))

/-- A text of such characters. -/
def BareText (text : String) : Prop := ∀ c ∈ text.toList, Bare c

instance {text : String} : Decidable (BareText text) :=
  decidable_of_iff (text.toList.all (fun c => decide (Bare c)) = true) (by simp [BareText])

section

variable {first second : String}

@[simp] theorem bareText_append :
    BareText (first ++ second) ↔ BareText first ∧ BareText second := by
  rw [BareText, String.toList_append, List.forall_mem_append]
  rfl

theorem BareText.unbroken (bare : BareText first) : Unbroken first := fun c inside =>
  ⟨(bare c inside).1, (bare c inside).2.1⟩

theorem BareText.backslash_not_mem (bare : BareText first) : '\\' ∉ first.toList := fun inside =>
  (bare _ inside).2.2 rfl

theorem IsWord.bare (word : IsWord first) : BareText first := by
  intro c inside
  have named := word c inside
  refine ⟨?_, ?_, ?_⟩ <;> (rintro rfl; cases named)

end

theorem bare_of_isAlpha {c : Char} (letter : c.isAlpha = true) : Bare c := by
  refine ⟨?_, ?_, ?_⟩ <;> (rintro rfl; cases letter)

theorem bare_ofNat {n : Nat} (other : n ≠ 10 ∧ n ≠ 13 ∧ n ≠ 92) : Bare (Char.ofNat n) := by
  have number {c : Char} (same : Char.ofNat n = c) : c.toNat = n ∨ c.toNat = 0 := by
    rw [← same, Char.toNat_ofNat]
    split
    · exact Or.inl rfl
    · exact Or.inr rfl
  refine ⟨?_, ?_, ?_⟩ <;>
    (intro same
     rcases number same with equal | equal
     · exact absurd equal (by simp; omega)
     · exact absurd equal (by decide))

/-- No letter of a run has a line break or a backslash for its other case. -/
def CaseRun.Clear (run : CaseRun) : Prop :=
  92 < run.first + run.shift ∨ 13 < run.first + run.shift ∧ run.last + run.shift < 92

instance {run : CaseRun} : Decidable run.Clear := inferInstanceAs (Decidable (_ ∨ _))

theorem CaseRun.Clear.bare {run : CaseRun} (clear : run.Clear) {n : Nat}
    (covers : run.covers n = true) : Bare (Char.ofNat (n + run.shift).toNat) := by
  simp only [CaseRun.covers, Bool.and_eq_true, decide_eq_true_eq] at covers
  refine bare_ofNat ?_
  unfold CaseRun.Clear at clear
  omega

theorem clear_capitalRuns : ∀ run ∈ capitalRuns.toList, run.Clear := by decide +kernel

theorem clear_smallRuns : ∀ run ∈ smallRuns.toList, run.Clear := by decide +kernel

theorem bare_of_mem_capitalSequences {entry : Nat × List Nat} (inside : entry ∈ capitalSequences)
    {n : Nat} (part : n ∈ entry.2) : Bare (Char.ofNat n) := by
  have all : ∀ entry ∈ capitalSequences.toList, ∀ n ∈ entry.2, n ≠ 10 ∧ n ≠ 13 ∧ n ≠ 92 := by
    decide
  exact bare_ofNat (all entry (Array.mem_toList_iff.mpr inside) n part)

theorem bare_toUpper {c : Char} (bare : Bare c) : Bare c.toUpper := by
  by_cases letter : c.isAlpha = true
  · exact bare_of_isAlpha (by rwa [Char.isAlpha_toUpper_eq_isAlpha])
  · have other : ¬ c.isLower = true := fun lower =>
      letter (by rw [Char.isAlpha, lower, Bool.or_true])
    rwa [Char.toUpper_eq_of_not_isLower other]

theorem bare_toLower {c : Char} (bare : Bare c) : Bare c.toLower := by
  by_cases letter : c.isAlpha = true
  · exact bare_of_isAlpha (by rwa [Char.isAlpha_toLower_eq_isAlpha])
  · have other : ¬ c.isUpper = true := fun upper =>
      letter (by rw [Char.isAlpha, upper, Bool.true_or])
    rwa [Char.toLower_eq_of_not_isUpper other]

theorem bare_of_mem_capital {c d : Char} (bare : Bare c) (inside : d ∈ capital c) : Bare d := by
  rcases Nat.lt_or_ge c.toNat 0x80 with ascii | beyond
  · rw [capital, if_pos ascii, List.mem_singleton] at inside
    exact inside ▸ bare_toUpper bare
  · rcases mem_capital_cases beyond inside with rfl | ⟨entry, among, n, part, rfl⟩ |
      ⟨run, among, covers, rfl⟩
    · exact bare
    · exact bare_of_mem_capitalSequences among part
    · exact (clear_capitalRuns run (Array.mem_toList_iff.mpr among)).bare covers

theorem bare_of_mem_small {c d : Char} (bare : Bare c) (inside : d ∈ small c) : Bare d := by
  rcases Nat.lt_or_ge c.toNat 0x80 with ascii | beyond
  · rw [small, if_pos ascii, List.mem_singleton] at inside
    exact inside ▸ bare_toLower bare
  · rcases mem_small_cases beyond inside with rfl | dotted | ⟨run, among, covers, rfl⟩
    · exact bare
    · have letter : Bare 'i' := by decide
      have dot : Bare '\u0307' := @bare_ofNat 0x307 (by decide)
      exact List.forall_mem_cons.mpr ⟨letter, List.forall_mem_singleton.mpr dot⟩ d dotted
    · exact (clear_smallRuns run (Array.mem_toList_iff.mpr among)).bare covers

theorem bareText_toCapitals {text : String} (bare : BareText text) :
    BareText (toCapitals text) := by
  rw [BareText, toCapitals, String.toList_ofList]
  exact List.forall_mem_flatMap.mpr fun c inside d part => bare_of_mem_capital (bare c inside) part

theorem bare_of_mem_smallAfter {before letters : List Char} (bare : ∀ c ∈ letters, Bare c) :
    ∀ d ∈ smallAfter before letters, Bare d := by
  induction letters generalizing before with
  | nil => exact List.forall_mem_nil _
  | cons c rest ih =>
    obtain ⟨first, others⟩ := List.forall_mem_cons.mp bare
    rw [smallAfter]
    refine List.forall_mem_append.mpr ⟨?_, ih others⟩
    split
    · split
      · exact List.forall_mem_singleton.mpr (@bare_ofNat 0x3c2 (by decide))
      · exact List.forall_mem_singleton.mpr (@bare_ofNat 0x3c3 (by decide))
    · exact fun d inside => bare_of_mem_small first inside

theorem bareText_toSmallLetters {text : String} (bare : BareText text) :
    BareText (toSmallLetters text) := by
  rw [BareText, toSmallLetters, String.toList_ofList]
  exact bare_of_mem_smallAfter bare

namespace Header

/-- A lead whose names keep to their lines. -/
structure Lead.Bare (lead : Lead) : Prop where
  capital : BareText lead.capital
  small : BareText lead.small

theorem Lead.bare_of {name : String} (bare : BareText name) : (Lead.of name).Bare where
  capital := bareText_toCapitals bare
  small := bareText_toSmallLetters (bareText_toCapitals bare)

theorem Lead.bareText_constant {lead : Lead} (bare : lead.Bare) {parts : List String}
    (words : ∀ part ∈ parts, IsWord part) : BareText (lead.constant parts) :=
  forall_mem_intercalate (show BareText "_" by decide)
    (List.forall_mem_cons.mpr ⟨bare.capital, fun part inside => (words part inside).bare⟩)

theorem Lead.bareText_typeName {lead : Lead} (bare : lead.Bare) {parts : List String}
    (words : ∀ part ∈ parts, IsWord part) : BareText (lead.typeName parts) := by
  have all : ∀ part ∈ lead.small :: parts ++ ["t"], BareText part :=
    List.forall_mem_append.mpr
      ⟨List.forall_mem_cons.mpr ⟨bare.small, fun part inside => (words part inside).bare⟩, by decide⟩
  exact forall_mem_intercalate (show BareText "_" by decide) all

section

variable (texts : List String)

/-- A line with nothing from outside but the comment at its end, which is made of one of some
texts. -/
structure Comments (l : Line) : Prop where
  before : BareText l.before
  slot : l.slot = "" ∨ ∃ text ∈ texts, l.slot = commentText text
  after : l.after = ""

/-- What a part of a header may say to have only lines of comments. -/
def BitMember.Known : BitMember → Prop
  | field name _ description => BareText name ∧ description ∈ texts
  | padding _ => True

def Enumerator.Known (e : Enumerator) : Prop := BareText e.name ∧ e.description ∈ texts

def MapMember.Known : MapMember → Prop
  | reserved .. => True
  | register _ name bits description => BareText name ∧ BareText bits ∧ description ∈ texts

def Declaration.Known : Declaration → Prop
  | remark subject description => BareText subject ∧ (description = "" ∨ description ∈ texts)
  | define name _ => BareText name
  | bits name members => BareText name ∧ ∀ member ∈ members, member.Known texts
  | values name enumerators => BareText name ∧ ∀ e ∈ enumerators, e.Known texts
  | map name members => BareText name ∧ ∀ member ∈ members, member.Known texts
  | overlay name type base => BareText name ∧ BareText type ∧ BareText base
  | space => True

variable {texts}

theorem Comments.plain {text : String} (bare : BareText text) : Comments texts (.plain text) :=
  ⟨bare, Or.inl rfl, rfl⟩

theorem comments_of_plain {lines : List Line}
    (all : ∀ l ∈ lines, BareText l.before ∧ l.slot = "" ∧ l.after = "") :
    ∀ l ∈ lines, Comments texts l := fun l inside =>
  ⟨(all l inside).1, Or.inl (all l inside).2.1, (all l inside).2.2⟩

/-- A comment stands in its line whether or not there is a text for it. -/
@[simp] theorem slot_withComment (code mark description : String) :
    (withComment code mark description).slot = commentText description := by
  unfold withComment
  split
  · rename_i none
    rw [String.isEmpty_iff.mp none]
    rfl
  · rfl

theorem Comments.withComment {code mark description : String} (bare : BareText code)
    (opening : BareText mark) (known : description = "" ∨ description ∈ texts) :
    Comments texts (withComment code mark description) := by
  unfold Header.withComment
  split
  · exact .plain bare
  · rename_i some
    rcases known with rfl | among
    · exact absurd rfl some
    · exact ⟨bareText_append.mpr ⟨bare, opening⟩, Or.inr ⟨description, among, rfl⟩, rfl⟩

theorem bareText_storage (word : Word) : BareText (storage word) := by cases word <;> decide

theorem bareText_qualifier (access : Access) : BareText (qualifier access) := by
  cases access <;> decide

@[simp] theorem bareText_decimal (n : Nat) : BareText (decimal n) := (isWord_decimal n).bare

@[simp] theorem bareText_literal (l : Literal) : BareText l.text := (isWord_literal l).bare

theorem BitMember.Known.comments {member : BitMember} (known : member.Known texts) (word : Word) :
    Comments texts (member.line word) := by
  have type := bareText_storage word
  cases member with
  | field name width description =>
    obtain ⟨named, among⟩ := known
    exact .withComment (by simp +decide [type, named]) (by decide) (Or.inr among)
  | padding width => exact .plain (by simp +decide [type])

theorem Enumerator.Known.comments {e : Enumerator} (known : e.Known texts) :
    Comments texts e.line := by
  have value : BareText (hexLiteral e.value) := bareText_literal (.hex e.value)
  exact .withComment (by simp +decide [known.1, value]) (by decide) (Or.inr known.2)

theorem MapMember.Known.comments {member : MapMember} (known : member.Known texts) (word : Word) :
    ∀ l ∈ member.lines word, Comments texts l := by
  have type := bareText_storage word
  cases member with
  | reserved index words =>
    exact List.forall_mem_singleton.mpr (.plain (by simp +decide [type]))
  | register access name bits description =>
    obtain ⟨named, view, among⟩ := known
    have mode := bareText_qualifier access
    refine List.forall_mem_cons.mpr ⟨.plain (by decide), List.forall_mem_cons.mpr ⟨?_,
      List.forall_mem_cons.mpr ⟨.plain ?_, List.forall_mem_singleton.mpr (.plain (by decide))⟩⟩⟩
    · exact .withComment (by simp +decide [mode, type, named]) (by decide) (Or.inr among)
    · simp +decide [mode, view, named]

theorem comments_block {opening name : String} {members : List Line} (start : BareText opening)
    (named : BareText name) (inner : ∀ l ∈ members, Comments texts l) :
    ∀ l ∈ block opening members name, Comments texts l := by
  refine List.forall_mem_cons.mpr ⟨.plain (by simp +decide [start]),
    List.forall_mem_append.mpr ⟨inner, List.forall_mem_singleton.mpr (.plain ?_)⟩⟩
  simp +decide [named]

theorem Declaration.Known.comments {declaration : Declaration} (known : declaration.Known texts)
    (word : Word) : ∀ l ∈ declaration.lines word, Comments texts l := by
  cases declaration with
  | remark subject description =>
    obtain ⟨named, among⟩ := known
    refine List.forall_mem_singleton.mpr (.withComment ?_ (by decide) among)
    simp +decide [named]
  | define name value =>
    refine List.forall_mem_singleton.mpr (.plain ?_)
    simp +decide [show BareText name from known]
  | bits name members =>
    obtain ⟨named, inner⟩ := known
    refine comments_block (by decide) named ?_
    exact List.forall_mem_map.mpr fun member inside => (inner member inside).comments word
  | values name enumerators =>
    obtain ⟨named, inner⟩ := known
    refine comments_block (by decide) named ?_
    exact List.forall_mem_map.mpr fun e inside => (inner e inside).comments
  | map name members =>
    obtain ⟨named, inner⟩ := known
    refine comments_block (by decide) named ?_
    exact List.forall_mem_flatMap.mpr fun member inside => (inner member inside).comments word
  | overlay name type base =>
    obtain ⟨named, kind, start⟩ := known
    refine List.forall_mem_singleton.mpr (.plain ?_)
    simp +decide [named, kind, start]
  | space => exact List.forall_mem_singleton.mpr (.plain (by decide))

end

section

variable {lead : Lead} (bare : lead.Bare) {m : AddressMap} (identifiers : Identifiers m.registers)
  {r : Register} (inside : r ∈ m.registers)
include bare identifiers inside

theorem known_fieldDeclarations {f : Field} (within : f ∈ r.fields) :
    ∀ declaration ∈ fieldDeclarations lead r f, declaration.Known m.descriptions := by
  have register := isWord_of_isIdentifier (identifiers.register r inside)
  have field := isWord_of_isIdentifier (identifiers.field r inside f within)
  have constant {last : String} (word : IsWord last) :
      BareText (lead.constant [asciiUpper r.name, asciiUpper f.name, last]) :=
    lead.bareText_constant bare (by simp [register.asciiUpper, field.asciiUpper, word])
  have values : Declaration.Known m.descriptions
      (.values (lead.typeName [asciiLower r.name, asciiLower f.name])
        (f.values.map fun v =>
          ⟨lead.constant [asciiUpper r.name, asciiUpper f.name, asciiUpper v.name], v.value,
            v.description⟩)) := by
    refine ⟨lead.bareText_typeName bare (by simp [register.asciiLower, field.asciiLower]), ?_⟩
    refine List.forall_mem_map.mpr fun v part => ⟨constant ?_, ?_⟩
    · exact (isWord_of_isIdentifier (identifiers.value r inside f within v part)).asciiUpper
    · exact AddressMap.value_mem_descriptions inside within part
  have remark : Declaration.Known m.descriptions (.remark (r.name ++ "." ++ f.name) f.description) :=
    ⟨by simp +decide [register.bare, field.bare],
      Or.inr (AddressMap.field_mem_descriptions inside within)⟩
  have width : IsWord "WIDTH" := by decide
  have lsb : IsWord "LSB" := by decide
  have mask : IsWord "MASK" := by decide
  have reset : IsWord "RESET" := by decide
  refine List.forall_mem_append.mpr ⟨List.forall_mem_append.mpr
    ⟨List.forall_mem_cons.mpr ⟨remark, ?_⟩, ?_⟩, List.forall_mem_singleton.mpr trivial⟩
  · exact List.forall_mem_cons.mpr ⟨constant width, List.forall_mem_cons.mpr ⟨constant lsb,
      List.forall_mem_cons.mpr ⟨constant mask, List.forall_mem_singleton.mpr (constant reset)⟩⟩⟩
  · split
    · exact List.forall_mem_nil _
    · exact List.forall_mem_singleton.mpr values

theorem known_registerDeclarations (word : Word) :
    ∀ declaration ∈ registerDeclarations lead word r, declaration.Known m.descriptions := by
  have register := isWord_of_isIdentifier (identifiers.register r inside)
  have constant {last : String} (final : IsWord last) :
      BareText (lead.constant [asciiUpper r.name, last]) :=
    lead.bareText_constant bare (by simp [register.asciiUpper, final])
  have address : IsWord "ADDR" := by decide
  have reset : IsWord "RESET" := by decide
  have bits : Declaration.Known m.descriptions
      (.bits (lead.typeName [asciiLower r.name]) ((r.bitRuns word).map .ofRun)) := by
    refine ⟨lead.bareText_typeName bare (by simp [register.asciiLower]), ?_⟩
    refine List.forall_mem_map.mpr fun run among => ?_
    cases run with
    | field f =>
      have within := r.fieldsByLsb_perm.mem_iff.mp (BitRun.mem_of_field_mem_cover among)
      exact ⟨(isWord_of_isIdentifier (identifiers.field r inside f within)).bare,
        AddressMap.field_mem_descriptions inside within⟩
    | padding width => trivial
  have remark : Declaration.Known m.descriptions (.remark r.name r.description) :=
    ⟨register.bare, Or.inr (AddressMap.register_mem_descriptions inside)⟩
  refine List.forall_mem_append.mpr ⟨?_, List.forall_mem_flatMap.mpr fun f within =>
    known_fieldDeclarations bare identifiers inside within⟩
  exact List.forall_mem_cons.mpr ⟨remark, List.forall_mem_cons.mpr ⟨constant address,
    List.forall_mem_cons.mpr ⟨constant reset, List.forall_mem_cons.mpr ⟨bits,
      List.forall_mem_singleton.mpr trivial⟩⟩⟩⟩

omit inside in
theorem known_mapMembers {index : Nat} {slots : List Slot}
    (among : ∀ r ∈ slots.filterMap Slot.register?, r ∈ m.registers) :
    ∀ member ∈ mapMembers lead index slots, member.Known m.descriptions := by
  induction slots generalizing index with
  | nil => exact List.forall_mem_nil _
  | cons slot rest ih => cases slot with
    | reserved s => exact List.forall_mem_cons.mpr ⟨trivial, ih among⟩
    | register r =>
      obtain ⟨own, others⟩ := List.forall_mem_cons.mp among
      have register := isWord_of_isIdentifier (identifiers.register r own)
      refine List.forall_mem_cons.mpr ⟨⟨register.bare, ?_, ?_⟩, ih others⟩
      · exact lead.bareText_typeName bare (by simp [register.asciiLower])
      · exact AddressMap.register_mem_descriptions own

omit inside in
theorem known_declarations :
    ∀ declaration ∈ declarations lead m, declaration.Known m.descriptions := by
  have word : IsWord "BASE_ADDR" := by decide
  have base : BareText (lead.constant ["BASE_ADDR"]) :=
    lead.bareText_constant bare (List.forall_mem_singleton.mpr word)
  have type : BareText (lead.typeName []) := lead.bareText_typeName bare (List.forall_mem_nil _)
  have remark : Declaration.Known m.descriptions (.remark "Register map structure" "") :=
    ⟨by decide, Or.inl rfl⟩
  have map : Declaration.Known m.descriptions
      (.map (lead.typeName []) (mapMembers lead 0 m.slots)) := by
    refine ⟨type, known_mapMembers bare identifiers ?_⟩
    rw [AddressMap.slots, register?_mergeSlots]
    exact fun r inside => inside
  refine List.forall_mem_append.mpr ⟨List.forall_mem_append.mpr ⟨?_, ?_⟩, ?_⟩
  · exact List.forall_mem_cons.mpr ⟨base, List.forall_mem_singleton.mpr trivial⟩
  · exact List.forall_mem_flatMap.mpr fun r inside =>
      known_registerDeclarations bare identifiers inside m.word
  · exact List.forall_mem_cons.mpr ⟨trivial, List.forall_mem_cons.mpr ⟨remark,
      List.forall_mem_cons.mpr ⟨map, List.forall_mem_cons.mpr ⟨trivial,
        List.forall_mem_cons.mpr ⟨⟨bare.capital, type, base⟩,
          List.forall_mem_singleton.mpr trivial⟩⟩⟩⟩⟩

end

theorem comments_opening {texts : List String} {guard : String} (named : IsWord guard) :
    ∀ l ∈ opening guard, Comments texts l := by
  have rest : ∀ l ∈ (opening "").drop 3, Comments texts l := comments_of_plain (by decide)
  exact List.forall_mem_cons.mpr ⟨.plain (by decide), List.forall_mem_cons.mpr
    ⟨.plain (by simp +decide [named.bare]), List.forall_mem_cons.mpr
      ⟨.plain (by simp +decide [named.bare]), rest⟩⟩⟩

theorem comments_ending {texts : List String} {guard : String} (named : IsWord guard) :
    ∀ l ∈ ending guard, Comments texts l := by
  have start : ∀ l ∈ (ending "").take 4, Comments texts l := comments_of_plain (by decide)
  have last : Comments texts (.plain ("#endif /* " ++ guard ++ " */")) :=
    .plain (by simp +decide [named.bare])
  have parts : ending guard = (ending "").take 4 ++ [.plain ("#endif /* " ++ guard ++ " */")] := rfl
  rw [parts]
  exact List.forall_mem_append.mpr ⟨start, List.forall_mem_singleton.mpr last⟩

/-- In a header descriptions stand in comments at the ends of lines, and nowhere else. -/
theorem comments_of_mem_lines {lead : Lead} (bare : lead.Bare) {m : AddressMap}
    (identifiers : Identifiers m.registers) {guard : String} (named : IsWord guard) :
    ∀ l ∈ lines lead guard m, Comments m.descriptions l :=
  List.forall_mem_append.mpr ⟨List.forall_mem_append.mpr ⟨comments_opening named,
    List.forall_mem_flatMap.mpr fun declaration inside =>
      (known_declarations bare identifiers declaration inside).comments m.word⟩,
    comments_ending named⟩

/-- Every description is printed, as far as a comment takes it. -/
theorem exists_comment {m : AddressMap} {text : String} (described : text ∈ m.descriptions)
    (lead : Lead) (guard : String) : ∃ l ∈ lines lead guard m, l.slot = commentText text := by
  have printed {r : Register} (inside : r ∈ m.registers) {declaration : Declaration}
      (part : declaration ∈ registerDeclarations lead m.word r) {l : Line}
      (line : l ∈ declaration.lines m.word) : l ∈ lines lead guard m := by
    have declared : declaration ∈ declarations lead m :=
      List.mem_append_left _ (List.mem_append_right _ (List.mem_flatMap.mpr ⟨r, inside, part⟩))
    exact List.mem_append_left _
      (List.mem_append_right _ (List.mem_flatMap.mpr ⟨declaration, declared, line⟩))
  have ofField {r : Register} {f : Field} (within : f ∈ r.fields) {declaration : Declaration}
      (part : declaration ∈ fieldDeclarations lead r f) :
      declaration ∈ registerDeclarations lead m.word r :=
    List.mem_append_right _ (List.mem_flatMap.mpr ⟨f, within, part⟩)
  obtain ⟨r, inside, rfl | ⟨f, within, rfl | ⟨v, part, rfl⟩⟩⟩ :=
    AddressMap.mem_descriptions.mp described
  · have remark : .remark r.name r.description ∈ registerDeclarations lead m.word r :=
      List.mem_append_left _ (List.mem_cons_self ..)
    exact ⟨_, printed inside remark (List.mem_singleton_self _), slot_withComment ..⟩
  · have remark : .remark (r.name ++ "." ++ f.name) f.description ∈ fieldDeclarations lead r f :=
      List.mem_append_left _ (List.mem_append_left _ (List.mem_cons_self ..))
    exact ⟨_, printed inside (ofField within remark) (List.mem_singleton_self _), slot_withComment ..⟩
  · have some : ¬ f.values.isEmpty = true := fun none => by
      rw [List.isEmpty_iff.mp none] at part
      cases part
    have values : .values (lead.typeName [asciiLower r.name, asciiLower f.name])
        (f.values.map fun v =>
          ⟨lead.constant [asciiUpper r.name, asciiUpper f.name, asciiUpper v.name], v.value,
            v.description⟩) ∈ fieldDeclarations lead r f := by
      refine List.mem_append_left _ (List.mem_append_right _ ?_)
      rw [if_neg some]
      exact List.mem_singleton_self _
    have enumerator := List.mem_map_of_mem (f := fun v : NamedValue =>
      Enumerator.mk (lead.constant [asciiUpper r.name, asciiUpper f.name, asciiUpper v.name])
        v.value v.description) part
    have line := List.mem_map_of_mem (f := Enumerator.line) enumerator
    exact ⟨_, printed inside (ofField within values) (.tail _ (List.mem_append_left _ line)),
      slot_withComment ..⟩

end Header

end RegisterMap
