import RegisterMap.FieldCheck
import RegisterMap.Violation
import Mathlib.Data.List.Basic

namespace RegisterMap

variable {ε α β : Type}

theorem bind_eq_ok_iff {first : Except ε α} {next : α → Except ε β} {b : β} :
    (first >>= next) = .ok b ↔ ∃ a, first = .ok a ∧ next a = .ok b := by
  cases first <;> simp [bind, Except.bind]

@[simp] theorem require_eq_ok_iff {condition : Prop} [Decidable condition] {otherwise : Violation}
    {u : Unit} : require condition otherwise = .ok u ↔ condition := by
  by_cases holds : condition <;> simp [require, holds]

@[simp] theorem pure_eq_ok_iff {a b : α} : (pure a : Except ε α) = .ok b ↔ a = b :=
  Except.ok.injEq a b ▸ Iff.rfl

/-- A check that makes `built a` of each `a` that passes, and fails on the others, takes a list
just when all its members pass. -/
theorem mapM_eq_ok_iff {check : α → Except ε β} {passes : α → Prop} {built : α → β}
    (exact : ∀ a b, check a = .ok b ↔ passes a ∧ built a = b) {l : List α} {made : List β} :
    l.mapM check = .ok made ↔ (∀ a ∈ l, passes a) ∧ l.map built = made := by
  induction l generalizing made with
  | nil => simp [pure, Except.pure]
  | cons a rest ih =>
    simp only [List.mapM_cons, bind_eq_ok_iff, exact, ih, List.forall_mem_cons, List.map_cons]
    constructor
    · rintro ⟨_, ⟨passed, rfl⟩, _, ⟨others, rfl⟩, same⟩
      exact ⟨⟨passed, others⟩, Except.ok.inj same⟩
    · rintro ⟨⟨passed, others⟩, rfl⟩
      exact ⟨_, ⟨passed, rfl⟩, _, ⟨others, rfl⟩, rfl⟩

theorem firstRepeated?_nil_eq_none_iff [DecidableEq α] {l : List α} :
    firstRepeated? [] l = none ↔ l.Nodup :=
  firstRepeated?_eq_none_iff.trans (and_iff_left fun _ _ => List.not_mem_nil)

end RegisterMap
