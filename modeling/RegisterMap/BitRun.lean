import RegisterMap.Register

namespace RegisterMap

/-- A run of bits inside a register word. -/
inductive BitRun where
  | field (f : Field)
  /-- Bits of no field. -/
  | padding (width : Nat)
  deriving DecidableEq, Repr

namespace BitRun

def width : BitRun → Nat
  | field f => f.width
  | padding width => width

/-- The bits that runs take together. -/
def totalWidth : List BitRun → Nat
  | [] => 0
  | run :: rest => run.width + totalWidth rest

/-- Padding, unless there would be no bit of it. -/
def gap (width : Nat) : List BitRun := if width = 0 then [] else [padding width]

/-- The runs from bit `next` to the end of the word, for fields that begin in this order. -/
def cover (word : Word) (next : Nat) : List Field → List BitRun
  | [] => gap (word.bits - next)
  | f :: rest => gap (f.lsb - next) ++ field f :: cover word f.stop rest

end BitRun

/-- The word of a register from bit 0 upwards, as fields and the padding between them. -/
def Register.bitRuns (word : Word) (r : Register) : List BitRun :=
  BitRun.cover word 0 r.fieldsByLsb

namespace BitRun

@[simp] theorem totalWidth_nil : totalWidth [] = 0 := rfl

@[simp] theorem totalWidth_cons (run : BitRun) (rest : List BitRun) :
    totalWidth (run :: rest) = run.width + totalWidth rest := rfl

@[simp] theorem totalWidth_append (runs others : List BitRun) :
    totalWidth (runs ++ others) = totalWidth runs + totalWidth others := by
  induction runs with
  | nil => simp
  | cons run rest ih =>
    simp only [List.cons_append, totalWidth_cons, ih]
    omega

@[simp] theorem totalWidth_gap (width : Nat) : totalWidth (gap width) = width := by
  unfold gap
  split <;> simp_all [BitRun.width]

/-- The field that a run is, unless it is padding. -/
def field? : BitRun → Option Field
  | field f => some f
  | padding _ => none

theorem gap_cases (width : Nat) : gap width = [] ∨ gap width = [padding width] ∧ 0 < width := by
  unfold gap
  split
  · exact Or.inl rfl
  · exact Or.inr ⟨rfl, by omega⟩

/-- Runs have the fields that they cover, each in its turn. -/
@[simp] theorem filterMap_field?_cover (word : Word) (next : Nat) (fields : List Field) :
    (cover word next fields).filterMap field? = fields := by
  have nothing (width : Nat) : (gap width).filterMap field? = [] := by
    rcases gap_cases width with none | ⟨some, -⟩
    · rw [none, List.filterMap_nil]
    · rw [some]
      rfl
  induction fields generalizing next with
  | nil => exact nothing _
  | cons f rest ih =>
    rw [cover, List.filterMap_append, nothing, List.nil_append]
    exact congrArg (f :: ·) (ih f.stop)

theorem mem_of_field_mem_cover {word : Word} {next : Nat} {fields : List Field} {f : Field}
    (inside : .field f ∈ cover word next fields) : f ∈ fields := by
  rw [← filterMap_field?_cover word next fields]
  exact List.mem_filterMap.mpr ⟨_, inside, rfl⟩

/-- Fields that follow each other without overlap fill the word up together with their padding. -/
theorem totalWidth_cover {word : Word} {next : Nat} {fields : List Field} (start : next ≤ word.bits)
    (apart : ∀ f ∈ fields, next ≤ f.lsb ∧ f.stop ≤ word.bits)
    (ordered : fields.Pairwise fun f g => f.stop ≤ g.lsb) :
    next + totalWidth (cover word next fields) = word.bits := by
  induction fields generalizing next with
  | nil =>
    simp only [cover, totalWidth_gap]
    omega
  | cons f rest ih =>
    obtain ⟨low, high⟩ := apart f (List.mem_cons_self ..)
    obtain ⟨after, others⟩ := List.pairwise_cons.mp ordered
    have tail := ih high (fun g inside =>
      ⟨after g inside, (apart g (List.mem_cons_of_mem _ inside)).2⟩) others
    simp only [cover, totalWidth_append, totalWidth_cons, totalWidth_gap, BitRun.width]
    have : f.stop = f.lsb + f.width := rfl
    omega

end BitRun

end RegisterMap
