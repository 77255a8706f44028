import RegisterMap.FileSystem

namespace RegisterMap

theorem Path.join_nothing (p : Path) : (⟨""⟩ : Path).join p = p := by
  have empty : "".isEmpty = true := rfl
  simp [join, empty]

namespace FileSystem

/-- Where a path leads by its names alone, whether or not anything is there. -/
def place (fs : FileSystem) (p : Path) : Location := (names p).foldl step (fs.origin p)

section

variable {fs : FileSystem} {p : Path} {content : String}

theorem walk_foldl {loc last : Location} {path : List String}
    (walked : fs.walk loc path = .ok last) : path.foldl step loc = last := by
  induction path generalizing loc with
  | nil => exact Except.ok.inj walked
  | cons name rest ih =>
    rw [walk] at walked
    cases there : fs.needDirectory loc with
    | error e =>
      rw [there] at walked
      cases walked
    | ok _ =>
      rw [there] at walked
      exact ih walked

theorem place_of_locate {loc : Location} (found : fs.locate p = .ok loc) : fs.place p = loc := by
  rw [locate] at found
  split at found
  · cases found
  · exact walk_foldl found

theorem find?_nil (fs : FileSystem) : fs.find? [] = some .directory := rfl

theorem read_eq_ok_iff : fs.read p = .ok content ↔
    fs.locate p = .ok (fs.place p) ∧ fs.find? (fs.place p) = some (.file content) ∧
      endsInSlash p = false := by
  rw [read]
  cases found : fs.locate p with
  | error e => simp [bind, Except.bind]
  | ok loc =>
    rw [place_of_locate found]
    simp only [bind, Except.bind, true_and]
    split
    · simp [*]
    · simp [*]
    · rename_i old there
      cases slash : endsInSlash p <;> simp [there]

theorem write_eq_ok_iff {after : FileSystem} : fs.write p content = .ok after ↔
    fs.locate p = .ok (fs.place p) ∧ fs.find? (fs.place p) ≠ some .directory ∧
      endsInName p = true ∧ endsInSlash p = false ∧
      fs.set (fs.place p) (.file content) = after := by
  rw [write]
  cases found : fs.locate p with
  | error e => simp [bind, Except.bind]
  | ok loc =>
    rw [place_of_locate found]
    cases named : endsInName p <;> cases slash : endsInSlash p <;>
      simp [bind, Except.bind, pure, Except.pure]
    by_cases there : fs.find? loc = some .directory <;> simp [there]

end

/-- What becomes of files while some paths are written to: a directory stays, and a file has its
content still, unless one of the paths leads to it. -/
structure Grown (writes : List (Path × String)) (before after : FileSystem) : Prop where
  workdir : after.workdir = before.workdir
  directory {loc} : before.find? loc = some .directory → after.find? loc = some .directory
  file {loc content} : before.find? loc = some (.file content) →
    after.find? loc = some (.file content) ∨
      ∃ w ∈ writes, before.place w.1 = loc ∧ after.find? loc = some (.file w.2)

namespace Grown

variable {writes more : List (Path × String)} {before middle after : FileSystem} {p : Path}

theorem refl (fs : FileSystem) : Grown writes fs fs := ⟨rfl, id, .inl⟩

theorem place_eq (grown : Grown writes before after) (p : Path) :
    after.place p = before.place p := by
  rw [place, origin, grown.workdir]
  rfl

theorem trans (first : Grown writes before middle) (second : Grown more middle after) :
    Grown (writes ++ more) before after where
  workdir := second.workdir.trans first.workdir
  directory there := second.directory (first.directory there)
  file there := by
    rcases first.file there with kept | ⟨w, inside, leads, written⟩
    · rcases second.file kept with kept | ⟨w, inside, leads, written⟩
      · exact .inl kept
      · exact .inr ⟨w, List.mem_append_right _ inside, first.place_eq w.1 ▸ leads, written⟩
    · rcases second.file written with kept | ⟨v, later, onto, rewritten⟩
      · exact .inr ⟨w, List.mem_append_left _ inside, leads, kept⟩
      · exact .inr ⟨v, List.mem_append_right _ later, first.place_eq v.1 ▸ onto, rewritten⟩

theorem set_directory {fs : FileSystem} {loc : Location} (free : fs.find? loc = none) :
    Grown [] fs (fs.set loc .directory) where
  workdir := rfl
  directory {other} there := by
    have apart : other ≠ loc := by
      rintro rfl
      cases free.symm.trans there
    rw [find?_set_of_ne _ _ apart]
    exact there
  file {other content} there := by
    have apart : other ≠ loc := by
      rintro rfl
      cases free.symm.trans there
    rw [find?_set_of_ne _ _ apart]
    exact .inl there

theorem set_file {fs : FileSystem} {p : Path} {content : String}
    (free : fs.find? (fs.place p) ≠ some .directory) :
    Grown [(p, content)] fs (fs.set (fs.place p) (.file content)) where
  workdir := rfl
  directory {other} there := by
    have apart : other ≠ fs.place p := fun same => free (same ▸ there)
    rw [find?_set_of_ne _ _ apart]
    exact there
  file {other old} there := by
    by_cases same : other = fs.place p
    · have inside : fs.place p ≠ [] := fun root => free (root ▸ find?_nil fs)
      rw [same, find?_set_self _ _ inside]
      exact .inr ⟨(p, content), List.mem_singleton_self _, rfl, rfl⟩
    · rw [find?_set_of_ne _ _ same]
      exact .inl there

theorem needDirectory (grown : Grown writes before after) {loc : Location}
    (there : before.needDirectory loc = .ok ()) : after.needDirectory loc = .ok () := by
  rw [FileSystem.needDirectory] at there ⊢
  split at there
  · rename_i found
    rw [grown.directory found]
  · cases there
  · cases there

theorem walk (grown : Grown writes before after) {loc last : Location} {path : List String}
    (walked : before.walk loc path = .ok last) : after.walk loc path = .ok last := by
  induction path generalizing loc with
  | nil => exact walked
  | cons name rest ih =>
    rw [FileSystem.walk] at walked ⊢
    cases there : before.needDirectory loc with
    | error e =>
      rw [there] at walked
      cases walked
    | ok _ =>
      rw [there] at walked
      rw [grown.needDirectory there]
      exact ih walked

theorem locate (grown : Grown writes before after) {loc : Location}
    (found : before.locate p = .ok loc) : after.locate p = .ok loc := by
  rw [FileSystem.locate] at found ⊢
  split at found
  · cases found
  · rename_i named
    rw [if_neg named, origin, grown.workdir]
    exact grown.walk found

/-- A file that could be read can be read still, and has another content only where a write leads to
it. -/
theorem read (grown : Grown writes before after) {content : String}
    (known : before.read p = .ok content) :
    after.read p = .ok content ∨
      ∃ w ∈ writes, before.place w.1 = before.place p ∧ after.read p = .ok w.2 := by
  obtain ⟨found, there, plain⟩ := read_eq_ok_iff.mp known
  have located := grown.locate found
  simp only [read_eq_ok_iff, grown.place_eq, located, plain, true_and, and_true]
  exact grown.file there

end Grown

/-- What becomes of files while directories are made: some are added where nothing was. -/
inductive Widened (before : FileSystem) : FileSystem → Prop
  | refl : Widened before before
  | add {fs loc} (first : Widened before fs) (free : fs.find? loc = none) :
    Widened before (fs.set loc .directory)

namespace Widened

variable {before middle after : FileSystem}

theorem trans (first : Widened before middle) (second : Widened middle after) :
    Widened before after := by
  induction second with
  | refl => exact first
  | add _ free ih => exact ih.add free

theorem grown (widened : Widened before after) : Grown [] before after := by
  induction widened with
  | refl => exact .refl before
  | add _ free ih => exact ih.trans (.set_directory free)

end Widened

theorem makeDirectory_widened {fs after : FileSystem} {p : Path}
    (made : fs.makeDirectory p = .ok after) : Widened fs after := by
  rw [makeDirectory] at made
  cases found : fs.locate p with
  | error e =>
    rw [found] at made
    cases made
  | ok loc =>
    simp only [found, bind, Except.bind] at made
    split at made
    · cases made
    · split at made
      · cases made
      · cases made
        exact .add .refl ‹_›

theorem makeChain_widened (fs : FileSystem) (chain : List Path) :
    Widened fs (fs.makeChain chain).1 := by
  -- Directories that were made above stay also where the chain stops there.
  induction chain with
  | nil => exact .refl
  | cons p above ih =>
    rw [makeChain]
    split
    · exact .refl
    · split
      · exact makeDirectory_widened ‹_›
      · split
        · rename_i stopped
          rw [stopped] at ih
          exact ih
        · rename_i created
          rw [created] at ih
          split
          · exact ih.trans (makeDirectory_widened ‹_›)
          · exact ih
      · exact .refl

theorem makeDirectories_widened (fs : FileSystem) (p : Path) :
    Widened fs (fs.makeDirectories p).1 := fs.makeChain_widened _

theorem makeDirectories_grown (fs : FileSystem) (p : Path) : Grown [] fs (fs.makeDirectories p).1 :=
  (fs.makeDirectories_widened p).grown

theorem write_grown {fs after : FileSystem} {p : Path} {content : String}
    (written : fs.write p content = .ok after) : Grown [(p, content)] fs after := by
  obtain ⟨_, free, _, _, rfl⟩ := write_eq_ok_iff.mp written
  exact .set_file free

/-- What was written is read. -/
theorem read_of_write {fs after : FileSystem} {p : Path} {content : String}
    (written : fs.write p content = .ok after) : after.read p = .ok content := by
  have grown := write_grown written
  obtain ⟨found, free, _, plain, rfl⟩ := write_eq_ok_iff.mp written
  have inside : fs.place p ≠ [] := fun root => free (root ▸ find?_nil fs)
  refine read_eq_ok_iff.mpr ⟨?_, ?_, plain⟩
  · rw [grown.place_eq]
    exact grown.locate found
  · rw [grown.place_eq]
    exact find?_set_self fs _ inside

/-- A file can be written by a path that is a mere name. -/
structure Takes (fs : FileSystem) (p : Path) : Prop where
  beside : p.parent? = some ⟨""⟩
  found : fs.locate p = .ok (fs.place p)
  free : fs.find? (fs.place p) ≠ some .directory
  named : endsInName p = true
  plain : endsInSlash p = false

namespace Takes

variable {fs : FileSystem} {p : Path} (takes : fs.Takes p)
include takes

theorem write_eq (content : String) :
    fs.write p content = .ok (fs.set (fs.place p) (.file content)) :=
  write_eq_ok_iff.mpr ⟨takes.found, takes.free, takes.named, takes.plain, rfl⟩

/-- No other write is in its way. -/
theorem after_write {after : FileSystem} {q : Path} {content : String}
    (written : fs.write q content = .ok after) : after.Takes p := by
  have grown := write_grown written
  obtain ⟨_, free, _, _, rfl⟩ := write_eq_ok_iff.mp written
  refine ⟨takes.beside, ?_, ?_, takes.named, takes.plain⟩
  · rw [grown.place_eq]
    exact grown.locate takes.found
  · rw [grown.place_eq]
    by_cases same : fs.place p = fs.place q
    · have inside : fs.place q ≠ [] := fun root => free (root ▸ find?_nil fs)
      rw [same, find?_set_self fs _ inside]
      simp
    · rw [find?_set_of_ne fs _ same]
      exact takes.free

end Takes

end FileSystem

end RegisterMap
