import RegisterMap.Text.CaseTable

namespace RegisterMap

/-- The capital form of ASCII letters; all else stays. -/
def asciiUpper (text : String) : String := text.map Char.toUpper

/-- The small form of ASCII letters; all else stays. -/
def asciiLower (text : String) : String := text.map Char.toLower

private def shiftBy (runs : Array CaseRun) (c : Char) : Char :=
  match runs.find? (·.covers c.toNat) with
  | some run => Char.ofNat (c.toNat + run.shift).toNat
  | none => c

/-- The capital form of a letter of any script, several characters where it needs them. -/
def capital (c : Char) : List Char :=
  if c.toNat < 0x80 then [c.toUpper]
  else match capitalSequences.find? (·.1 == c.toNat) with
    | some (_, letters) => letters.map Char.ofNat
    | none => [shiftBy capitalRuns c]

/-- The small form of a letter of any script, apart from the place of a sigma in its word. -/
def small (c : Char) : List Char :=
  if c.toNat < 0x80 then [c.toLower]
  else if c = 'İ' then ['i', '\u0307']
  else [shiftBy smallRuns c]

private theorem shiftBy_cases (runs : Array CaseRun) (c : Char) : shiftBy runs c = c ∨
    ∃ run ∈ runs, run.covers c.toNat = true ∧
      shiftBy runs c = Char.ofNat (c.toNat + run.shift).toNat := by
  unfold shiftBy
  split
  · rename_i run found
    have covers := Array.find?_some (p := fun run : CaseRun => run.covers c.toNat) found
    exact Or.inr ⟨run, Array.mem_of_find?_eq_some found, covers, rfl⟩
  · exact Or.inl rfl

/-- Beyond ASCII the capital form is the letter itself, or one that a table has. -/
theorem mem_capital_cases {c d : Char} (beyond : 0x80 ≤ c.toNat) (inside : d ∈ capital c) :
    d = c ∨ (∃ entry ∈ capitalSequences, ∃ n ∈ entry.2, Char.ofNat n = d) ∨
      ∃ run ∈ capitalRuns, run.covers c.toNat = true ∧
        d = Char.ofNat (c.toNat + run.shift).toNat := by
  rw [capital, if_neg (Nat.not_lt.mpr beyond)] at inside
  split at inside
  · rename_i letters found
    exact Or.inr (Or.inl ⟨_, Array.mem_of_find?_eq_some found, List.mem_map.mp inside⟩)
  · rw [List.mem_singleton.mp inside]
    exact (shiftBy_cases capitalRuns c).imp_right Or.inr

theorem mem_small_cases {c d : Char} (beyond : 0x80 ≤ c.toNat) (inside : d ∈ small c) :
    d = c ∨ d ∈ ['i', '\u0307'] ∨
      ∃ run ∈ smallRuns, run.covers c.toNat = true ∧
        d = Char.ofNat (c.toNat + run.shift).toNat := by
  rw [small, if_neg (Nat.not_lt.mpr beyond)] at inside
  split at inside
  · exact Or.inr (Or.inl inside)
  · rw [List.mem_singleton.mp inside]
    exact (shiftBy_cases smallRuns c).imp_right Or.inr

private def within (ranges : Array (Nat × Nat)) (c : Char) : Bool :=
  ranges.any fun range => range.1 ≤ c.toNat && c.toNat ≤ range.2

/-- Whether the nearest character that counts is a letter with case. -/
def meetsLetter (text : List Char) : Bool :=
  match text.dropWhile (within passedOverRanges) with
  | c :: _ => within casedRanges c
  | [] => false

/-- Small forms from left to right; `before` holds what was passed, nearest first. A sigma that
ends a word has a form of its own. -/
def smallAfter (before : List Char) : List Char → List Char
  | [] => []
  | c :: rest =>
    let letters := if c = 'Σ' then
        (if meetsLetter before && !meetsLetter rest then ['ς'] else ['σ'])
      else small c
    letters ++ smallAfter (c :: before) rest

def toCapitals (text : String) : String := String.ofList (text.toList.flatMap capital)

def toSmallLetters (text : String) : String := String.ofList (smallAfter [] text.toList)

end RegisterMap
