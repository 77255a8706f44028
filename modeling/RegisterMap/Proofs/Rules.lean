import RegisterMap.Proofs.Checking

namespace RegisterMap

/-- What has to hold, and what is told where it does not. -/
structure Rule where
  holds : Prop
  otherwise : Violation

def Kept (rules : List Rule) : Prop := ∀ rule ∈ rules, rule.holds

/-- The first rule of a list that does not hold is the one that is told of, whatever comes after
it. -/
inductive FirstBroken : List Rule → Violation → Prop
  | here {rule rest} : ¬ rule.holds → FirstBroken (rule :: rest) rule.otherwise
  | later {rule rest v} : rule.holds → FirstBroken rest v → FirstBroken (rule :: rest) v

/-- The rules of the members of a list in turn. Those of a member may speak of the ones before it,
of which the nearest comes first. -/
def inTurn {α : Type} (rules : List α → α → List Rule) (before : List α) : List α → List Rule
  | [] => []
  | a :: rest => rules before a ++ inTurn rules (a :: before) rest

section

variable {α β : Type} {rules more : List Rule} {v : Violation}

theorem kept_append : Kept (rules ++ more) ↔ Kept rules ∧ Kept more := List.forall_mem_append

theorem kept_singleton {rule : Rule} : Kept [rule] ↔ rule.holds := List.forall_mem_singleton

theorem kept_flatMap {rules : α → List Rule} {l : List α} :
    Kept (l.flatMap rules) ↔ ∀ a ∈ l, Kept (rules a) := List.forall_mem_flatMap

theorem FirstBroken.exists_mem (broken : FirstBroken rules v) :
    ∃ rule ∈ rules, ¬ rule.holds ∧ rule.otherwise = v := by
  induction broken with
  | @here rule rest fails => exact ⟨rule, List.mem_cons_self .., fails, rfl⟩
  | later _ _ ih =>
    obtain ⟨rule, inside, fails, told⟩ := ih
    exact ⟨rule, List.mem_cons_of_mem _ inside, fails, told⟩

theorem exists_firstBroken (broken : ¬ Kept rules) : ∃ v, FirstBroken rules v := by
  induction rules with
  | nil => exact absurd (List.forall_mem_nil _) broken
  | cons rule rest ih =>
    by_cases holds : rule.holds
    · have others : ¬ Kept rest := fun kept => broken (List.forall_mem_cons.mpr ⟨holds, kept⟩)
      obtain ⟨v, first⟩ := ih others
      exact ⟨v, .later holds first⟩
    · exact ⟨_, .here holds⟩

theorem firstBroken_append_iff :
    FirstBroken (rules ++ more) v ↔ FirstBroken rules v ∨ Kept rules ∧ FirstBroken more v := by
  constructor
  · intro broken
    induction rules with
    | nil => exact .inr ⟨List.forall_mem_nil _, broken⟩
    | cons rule rest ih =>
      cases broken with
      | here fails => exact .inl (.here fails)
      | later holds others =>
        rcases ih others with first | ⟨kept, second⟩
        · exact .inl (.later holds first)
        · exact .inr ⟨List.forall_mem_cons.mpr ⟨holds, kept⟩, second⟩
  · rintro (first | ⟨kept, second⟩)
    · induction first with
      | here fails => exact .here fails
      | later holds _ ih => exact .later holds ih
    · induction rules with
      | nil => exact second
      | cons rule rest ih =>
        obtain ⟨holds, others⟩ := List.forall_mem_cons.mp kept
        exact .later holds (ih others)

/-- A rule of a member speaks of that member and of some that stand before it. -/
theorem exists_of_mem_inTurn {rules : List α → α → List Rule} {before l : List α} {rule : Rule}
    (inside : rule ∈ inTurn rules before l) :
    ∃ earlier, ∃ a ∈ l, rule ∈ rules earlier a ∧ ∀ b ∈ earlier, b ∈ before ∨ [b, a].Sublist l := by
  induction l generalizing before with
  | nil => cases inside
  | cons c rest ih =>
    rcases List.mem_append.mp inside with own | later
    · exact ⟨before, c, List.mem_cons_self .., own, fun b first => .inl first⟩
    · obtain ⟨earlier, a, member, of, known⟩ := ih later
      refine ⟨earlier, a, List.mem_cons_of_mem _ member, of, fun b first => ?_⟩
      rcases known b first with old | pair
      · rcases List.mem_cons.mp old with rfl | old
        · exact .inr ((List.singleton_sublist.mpr member).cons_cons b)
        · exact .inl old
      · exact .inr (pair.cons c)

/-- Where a rule does not hold, it tells what is so. -/
def Honest (so : Violation → Prop) (rules : List Rule) : Prop :=
  ∀ rule ∈ rules, ¬ rule.holds → so rule.otherwise

variable {so : Violation → Prop}

theorem honest_nil : Honest so [] := List.forall_mem_nil _

theorem honest_append : Honest so (rules ++ more) ↔ Honest so rules ∧ Honest so more :=
  List.forall_mem_append

theorem honest_cons {rule : Rule} :
    Honest so (rule :: rules) ↔ (¬ rule.holds → so rule.otherwise) ∧ Honest so rules :=
  List.forall_mem_cons

theorem honest_flatMap {rules : α → List Rule} {l : List α} :
    Honest so (l.flatMap rules) ↔ ∀ a ∈ l, Honest so (rules a) := List.forall_mem_flatMap

theorem honest_inTurn {rules : List α → α → List Rule} {l : List α}
    (each : ∀ a ∈ l, ∀ earlier, (∀ b ∈ earlier, [b, a].Sublist l) → Honest so (rules earlier a)) :
    Honest so (inTurn rules [] l) := by
  intro rule inside
  obtain ⟨earlier, a, member, of, known⟩ := exists_of_mem_inTurn inside
  have before b (first : b ∈ earlier) := (known b first).resolve_left List.not_mem_nil
  exact each a member earlier before rule of

theorem FirstBroken.of_honest (broken : FirstBroken rules v) (honest : Honest so rules) : so v := by
  obtain ⟨rule, inside, fails, rfl⟩ := broken.exists_mem
  exact honest rule inside fails

end

/-- A check that goes through rules in their order: it makes `built` where all of them hold, and
otherwise tells of the first one that does not. -/
structure Obeys {α : Type} (check : Except Violation α) (rules : List Rule) (built : α) : Prop where
  passes : Kept rules → check = .ok built
  stops : ∀ {v}, FirstBroken rules v → check = .error v

namespace Obeys

variable {α β : Type} {rules more : List Rule}

theorem pure (a : α) : Obeys (.ok a) [] a where
  passes _ := rfl
  stops broken := nomatch broken

/-- Where all rules that do not hold tell of the same thing, it does not matter which of them is the
first. -/
theorem failsAmong {told : Violation} {b : β} (broken : ¬ Kept rules)
    (same : ∀ rule ∈ rules, ¬ rule.holds → rule.otherwise = told) :
    Obeys (.error told) (rules ++ more) b where
  passes kept := absurd (kept_append.mp kept).1 broken
  stops first := by
    rcases firstBroken_append_iff.mp first with own | ⟨kept, _⟩
    · obtain ⟨rule, inside, fails, rfl⟩ := own.exists_mem
      rw [same rule inside fails]
    · exact absurd kept broken

theorem fails {rule : Rule} {b : β} (broken : ¬ rule.holds) :
    Obeys (.error rule.otherwise) (rule :: rules) b := by
  refine failsAmong (kept_singleton.not.mpr broken) fun other inside _ => ?_
  rw [List.mem_singleton.mp inside]

theorem keeps {check : Except Violation α} {a : α} (obeys : Obeys check more a)
    (kept : Kept rules) : Obeys check (rules ++ more) a where
  passes all := obeys.passes (kept_append.mp all).2
  stops first := by
    rcases firstBroken_append_iff.mp first with broken | ⟨_, later⟩
    · obtain ⟨rule, inside, fails, _⟩ := broken.exists_mem
      exact absurd (kept rule inside) fails
    · exact obeys.stops later

/-- A condition that is required before anything else, in the words of its rule. -/
theorem guard {condition stated : Prop} [Decidable condition] {otherwise : Violation}
    {next : Unit → Except Violation β} {b : β} (same : condition ↔ stated)
    (after : stated → Obeys (next ()) rules b) :
    Obeys (require condition otherwise >>= next) (⟨stated, otherwise⟩ :: rules) b := by
  by_cases holds : condition
  · have stated := same.mp holds
    rw [require, if_pos holds]
    exact (after stated).keeps (kept_singleton.mpr stated)
  · have broken : ¬ (Rule.mk stated otherwise).holds := same.not.mp holds
    rw [require, if_neg holds]
    exact .fails broken

/-- One check after the other. The second one needs to obey its rules only where those of the
first one hold. -/
theorem bind {first : Except Violation α} {next : α → Except Violation β} {a : α} {b : β}
    (one : Obeys first rules a) (two : Kept rules → Obeys (next a) more b) :
    Obeys (first >>= next) (rules ++ more) b where
  passes kept := by
    obtain ⟨first, second⟩ := kept_append.mp kept
    rw [one.passes first]
    exact (two first).passes second
  stops broken := by
    rcases firstBroken_append_iff.mp broken with first | ⟨kept, second⟩
    · rw [one.stops first]
      rfl
    · rw [one.passes kept]
      exact (two kept).stops second

/-- A check after which nothing can fail. -/
theorem last {first : Except Violation α} {next : α → Except Violation β} {a : α} {b : β}
    (one : Obeys first rules a) (two : Kept rules → next a = .ok b) :
    Obeys (first >>= next) rules b := by
  rw [← List.append_nil rules]
  exact one.bind fun kept => two kept ▸ .pure b

theorem mapM {check : α → Except Violation β} {rules : α → List Rule} {built : α → β} {l : List α}
    (each : ∀ a ∈ l, Obeys (check a) (rules a) (built a)) :
    Obeys (l.mapM check) (l.flatMap rules) (l.map built) := by
  induction l with
  | nil => exact .pure []
  | cons a rest ih =>
    obtain ⟨first, others⟩ := List.forall_mem_cons.mp each
    rw [List.mapM_cons, List.flatMap_cons]
    exact first.bind fun _ => (ih others).last fun _ => rfl

theorem eq_error_iff {check : Except Violation α} {a : α} (obeys : Obeys check rules a)
    {v : Violation} : check = .error v ↔ FirstBroken rules v := by
  refine ⟨fun failed => ?_, obeys.stops⟩
  have broken : ¬ Kept rules := fun kept => by
    rw [obeys.passes kept] at failed
    cases failed
  obtain ⟨w, first⟩ := exists_firstBroken broken
  rw [obeys.stops first] at failed
  cases failed
  exact first

end Obeys

end RegisterMap
