import RegisterMap.Register

namespace RegisterMap

/-- The first member of a list that is equal to one before it; `earlier` went before the list. -/
def firstRepeated? {α : Type} [DecidableEq α] (earlier : List α) : List α → Option α
  | [] => none
  | a :: rest => if a ∈ earlier then some a else firstRepeated? (a :: earlier) rest

/-- The first two neighbours of which the second begins before the first ends. -/
def firstOverlap? : List Field → Option (Field × Field)
  | a :: b :: rest => if b.lsb < a.stop then some (a, b) else firstOverlap? (b :: rest)
  | _ => none

/-- Names of fields differ within a register, and no two fields share a bit. In the order of
their lowest bits it is enough to look at neighbours. -/
def checkFields (r : Register) : Except Violation Unit :=
  match firstRepeated? [] (r.fields.map Field.name) with
  | some name => .error (.duplicateFieldName r.name name)
  | none =>
    match firstOverlap? r.fieldsByLsb with
    | some (a, b) => .error (.overlap r.name a.name a.lsb a.width b.name b.lsb b.width)
    | none => .ok ()

theorem firstRepeated?_eq_none_iff {α : Type} [DecidableEq α] {earlier l : List α} :
    firstRepeated? earlier l = none ↔ l.Nodup ∧ ∀ a ∈ l, a ∉ earlier := by
  induction l generalizing earlier with
  | nil => simp [firstRepeated?]
  | cons a rest ih =>
    simp only [firstRepeated?, List.nodup_cons, List.mem_cons, forall_eq_or_imp]
    split
    · simp_all
    · rw [ih]
      constructor
      · rintro ⟨distinct, apart⟩
        refine ⟨⟨fun inside => (apart a inside) (List.mem_cons_self ..), distinct⟩, ‹_›, ?_⟩
        exact fun b inside before => (apart b inside) (List.mem_cons_of_mem _ before)
      · rintro ⟨⟨first, distinct⟩, _, apart⟩
        refine ⟨distinct, fun b inside before => ?_⟩
        rcases List.mem_cons.mp before with rfl | before
        · exact first inside
        · exact apart b inside before

end RegisterMap
