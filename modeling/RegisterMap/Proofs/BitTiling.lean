import RegisterMap.BitRun
import RegisterMap.Proofs.RegisterWord

namespace RegisterMap

/-- Parts put one upon the other from bit `start` on, each with the bit that it begins at. -/
def stacked {α : Type} (width : α → Nat) (start : Nat) : List α → List (Nat × α)
  | [] => []
  | part :: rest => (start, part) :: stacked width (start + width part) rest

section

variable {α β : Type} (width : α → Nat)

theorem stacked_map (g : β → α) (start : Nat) (parts : List β) :
    stacked width start (parts.map g) =
      (stacked (width ∘ g) start parts).map fun part => (part.1, g part.2) := by
  induction parts generalizing start with
  | nil => rfl
  | cons part rest ih => exact congrArg ((start, g part) :: ·) (ih (start + width (g part)))

@[simp] theorem map_snd_stacked (start : Nat) (parts : List α) :
    (stacked width start parts).map Prod.snd = parts := by
  induction parts generalizing start with
  | nil => rfl
  | cons part rest ih => exact congrArg (part :: ·) (ih (start + width part))

theorem snd_mem_of_mem_stacked {start : Nat} {parts : List α} {part : Nat × α}
    (inside : part ∈ stacked width start parts) : part.2 ∈ parts := by
  rw [← map_snd_stacked width start parts]
  exact List.mem_map_of_mem inside

theorem mem_stacked_of_split (start : Nat) (below above : List α) (part : α) :
    (start + (below.map width).sum, part) ∈ stacked width start (below ++ part :: above) := by
  induction below generalizing start with
  | nil => exact List.mem_cons_self ..
  | cons first rest ih =>
    have later := ih (start + width first)
    rw [List.map_cons, List.sum_cons, ← Nat.add_assoc]
    exact List.mem_cons_of_mem _ later

theorem stacked_head (start : Nat) (parts : List α) :
    ∀ part ∈ (stacked width start parts).head?, part.1 = start := by
  cases parts with
  | nil => exact fun part none => nomatch none
  | cons first rest =>
    intro part head
    cases head
    rfl

theorem stacked_isChain (start : Nat) (parts : List α) :
    (stacked width start parts).IsChain fun a b => b.1 = a.1 + width a.2 := by
  induction parts generalizing start with
  | nil => exact .nil
  | cons part rest ih => exact List.isChain_cons.mpr ⟨stacked_head width _ rest, ih _⟩

/-- The last part ends where all parts together do. -/
theorem stacked_last (start : Nat) (parts : List α) :
    ∀ part ∈ (stacked width start parts).getLast?,
      part.1 + width part.2 = start + (parts.map width).sum := by
  induction parts generalizing start with
  | nil => exact fun part none => nomatch none
  | cons first rest ih =>
    intro part last
    rw [List.map_cons, List.sum_cons, ← Nat.add_assoc]
    cases rest with
    | nil =>
      cases last
      rfl
    | cons second rest => exact ih _ part (by rwa [stacked, stacked, List.getLast?_cons_cons] at last)

end

namespace BitRun

theorem totalWidth_eq_sum (runs : List BitRun) : totalWidth runs = (runs.map width).sum := by
  induction runs with
  | nil => rfl
  | cons run rest ih => rw [totalWidth_cons, ih, List.map_cons, List.sum_cons]

section

variable {word : Word} {next : Nat} {fields : List Field}

theorem padding_pos_of_mem_cover {width : Nat} (inside : padding width ∈ cover word next fields) :
    0 < width := by
  have own {size : Nat} (inside : padding width ∈ gap size) : 0 < width := by
    rcases gap_cases size with none | ⟨some, positive⟩
    · rw [none] at inside
      cases inside
    · rw [some] at inside
      cases List.mem_singleton.mp inside
      exact positive
  induction fields generalizing next with
  | nil => exact own inside
  | cons f rest ih =>
    rcases List.mem_append.mp inside with before | inside
    · exact own before
    · rcases List.mem_cons.mp inside with same | later
      · cases same
      · exact ih later

/-- Padding stands between fields only, and at the two ends. -/
theorem cover_apart (word : Word) (next : Nat) (fields : List Field) :
    (cover word next fields).IsChain fun a b => a.field?.isSome ∨ b.field?.isSome := by
  induction fields generalizing next with
  | nil =>
    rw [cover]
    rcases gap_cases (word.bits - next) with none | ⟨some, -⟩
    · rw [none]
      exact .nil
    · rw [some]
      exact .singleton _
  | cons f rest ih =>
    have later : (field f :: cover word f.stop rest).IsChain fun a b =>
        a.field?.isSome ∨ b.field?.isSome :=
      List.isChain_cons.mpr ⟨fun _ _ => Or.inl rfl, ih f.stop⟩
    rw [cover]
    rcases gap_cases (f.lsb - next) with none | ⟨some, -⟩
    · rw [none]
      exact later
    · rw [some]
      exact List.isChain_cons_cons.mpr ⟨Or.inr rfl, later⟩

/-- A gap, put where the field before it ends, ends where the next one begins. -/
theorem stacked_gap_append {stop : Nat} (low : next ≤ stop) (runs : List BitRun) :
    stacked width next (gap (stop - next) ++ runs) =
      (gap (stop - next)).map (next, ·) ++ stacked width stop runs := by
  rcases Nat.eq_or_lt_of_le low with same | less
  · rw [same, Nat.sub_self]
    rfl
  · have wide : gap (stop - next) = [padding (stop - next)] := if_neg (by omega)
    have ends : next + (padding (stop - next)).width = stop := by
      rw [width]
      omega
    rw [wide, List.singleton_append, stacked, ends]
    rfl

/-- Widths add up to the places that the fields ask for. -/
theorem start_eq_lsb (start : next ≤ word.bits)
    (apart : ∀ f ∈ fields, next ≤ f.lsb ∧ f.stop ≤ word.bits)
    (ordered : fields.Pairwise fun f g => f.stop ≤ g.lsb) {place : Nat} {f : Field}
    (inside : (place, field f) ∈ stacked width next (cover word next fields)) : place = f.lsb := by
  have none {start width : Nat} : (place, field f) ∉ (gap width).map (start, ·) := by
    rcases gap_cases width with none | ⟨some, -⟩
    · simp [none]
    · simp [some]
  -- Every run ends where the next one is stacked, so that one gap is passed at a time.
  induction fields generalizing next with
  | nil =>
    have whole := stacked_gap_append start []
    rw [List.append_nil, stacked, List.append_nil] at whole
    rw [cover, whole] at inside
    exact absurd inside none
  | cons g rest ih =>
    obtain ⟨low, high⟩ := apart g (List.mem_cons_self ..)
    obtain ⟨after, others⟩ := List.pairwise_cons.mp ordered
    rw [cover, stacked_gap_append low, stacked] at inside
    rcases List.mem_append.mp inside with before | inside
    · exact absurd before none
    · rcases List.mem_cons.mp inside with same | later
      · cases same
        rfl
      · exact ih high (fun f inside =>
          ⟨after f inside, (apart f (List.mem_cons_of_mem _ inside)).2⟩) others later

end

end BitRun

namespace Register

variable {word : Word} {r : Register}

/-- The runs of a register fill its word up, field by field and gap by gap. -/
structure RunsTile (word : Word) (r : Register) : Prop where
  /-- No field is missing or comes twice. -/
  fields : (r.bitRuns word).filterMap BitRun.field? = r.fieldsByLsb
  every : r.fieldsByLsb.Perm r.fields
  ascending : r.fieldsByLsb.Pairwise fun f g => f.lsb < g.lsb
  below : ∀ before f after, r.bitRuns word = before ++ .field f :: after →
    BitRun.totalWidth before = f.lsb
  total : BitRun.totalWidth (r.bitRuns word) = word.bits
  padding_pos : ∀ width, .padding width ∈ r.bitRuns word → 0 < width
  apart : (r.bitRuns word).IsChain fun a b => a.field?.isSome ∨ b.field?.isSome

namespace Fitted

variable (fitted : r.Fitted word)
include fitted

theorem ordered : r.fieldsByLsb.Pairwise fun f g => f.stop ≤ g.lsb :=
  (fieldsByLsb_pairwise_iff fitted.width_pos).mpr fitted.apart

theorem sorted_inside : ∀ f ∈ r.fieldsByLsb, 0 ≤ f.lsb ∧ f.stop ≤ word.bits := fun f among =>
  ⟨Nat.zero_le _, fitted.inside f (r.fieldsByLsb_perm.mem_iff.mp among)⟩

theorem start_eq_lsb {start : Nat} {f : Field}
    (inside : (start, .field f) ∈ stacked BitRun.width 0 (r.bitRuns word)) : start = f.lsb :=
  BitRun.start_eq_lsb (Nat.zero_le _) fitted.sorted_inside fitted.ordered inside

theorem total : BitRun.totalWidth (r.bitRuns word) = word.bits := by
  have whole := BitRun.totalWidth_cover (Nat.zero_le _) fitted.sorted_inside fitted.ordered
  rwa [Nat.zero_add] at whole

theorem run_width_pos {run : BitRun} (inside : run ∈ r.bitRuns word) : 0 < run.width := by
  cases run with
  | field f =>
    exact fitted.width_pos f
      (r.fieldsByLsb_perm.mem_iff.mp (BitRun.mem_of_field_mem_cover inside))
  | padding width => exact BitRun.padding_pos_of_mem_cover inside

theorem runsTile : r.RunsTile word where
  fields := BitRun.filterMap_field?_cover ..
  every := r.fieldsByLsb_perm
  ascending := fitted.ordered.imp_of_mem fun {f _} left _ follows => by
    have wide := fitted.width_pos f (r.fieldsByLsb_perm.mem_iff.mp left)
    rw [Field.stop] at follows
    omega
  below before f after split := by
    -- The widths before a field are the place where it is stacked.
    have placed := mem_stacked_of_split BitRun.width 0 before after (.field f)
    rw [← split] at placed
    rw [BitRun.totalWidth_eq_sum, ← fitted.start_eq_lsb placed, Nat.zero_add]
  total := fitted.total
  padding_pos _ inside := BitRun.padding_pos_of_mem_cover inside
  apart := BitRun.cover_apart ..

end Fitted

end Register

end RegisterMap
