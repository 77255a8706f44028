import RegisterMap.Proofs.BuildInputs

namespace RegisterMap

/-- How what is read in the place of a file fails to be that file, if it does. -/
def Artifact.stale? (dir : Path) (a : Artifact) : Except FileError String → Option Stale
  | .ok content => if content = a.content then none else some (.differs (dir.join a.path))
  | .error _ => some (.missing (dir.join a.path))

theorem Artifact.stale?_eq_none_iff {dir : Path} {a : Artifact}
    {existing : Except FileError String} : a.stale? dir existing = none ↔ existing = .ok a.content := by
  cases existing with
  | ok content => by_cases same : content = a.content <;> simp [stale?, same]
  | error e => simp [stale?]

/-- What of some files is out of date, in their order. -/
def FileSystem.stale (fs : FileSystem) (dir : Path) (artifacts : List Artifact) : List Stale :=
  artifacts.flatMap fun a => (a.stale? dir (fs.read (dir.join a.path))).toList

theorem FileSystem.stale_eq_nil_iff {fs : FileSystem} {dir : Path} {artifacts : List Artifact} :
    fs.stale dir artifacts = [] ↔ ∀ a ∈ artifacts, fs.read (dir.join a.path) = .ok a.content := by
  simp only [stale, List.flatMap_eq_nil_iff, Option.toList_eq_nil_iff, Artifact.stale?_eq_none_iff]

namespace Looks

theorem tryRead (p : Path) : Looks (ExceptT.lift (Host.readFile p)) fun fs => .ok (fs.read p) :=
  ⟨fun s => ⟨s.output, rfl⟩⟩

theorem compareArtifact (dir : Path) (a : Artifact) :
    Looks (compareArtifact dir a) fun fs => .ok (a.stale? dir (fs.read (dir.join a.path))) := by
  refine @bind _ _ _ _ _ (fun existing _ => .ok (a.stale? dir existing)) (tryRead _)
    fun existing => ?_
  cases existing with
  | ok content =>
    by_cases same : content = a.content
    · simp only [same, if_true, Artifact.stale?]
      exact (log ..).bind fun _ => pure none
    · simp only [same, if_false, Artifact.stale?]
      exact pure _
  | error e => exact pure _

theorem staleArtifacts (dir : Path) (artifacts : List Artifact) :
    Looks (staleArtifacts dir artifacts) fun fs => .ok (fs.stale dir artifacts) := by
  induction artifacts with
  | nil => exact pure []
  | cons a rest ih =>
    exact (compareArtifact dir a).bind fun first =>
      ih.bind fun others => pure (first.toList ++ others)

/-- A check passes over files that are all up to date, and fails with the list of those that are
not. -/
theorem check (dir : Path) (artifacts : List Artifact) :
    Looks (do writeArtifacts dir .check artifacts; return artifacts) fun fs =>
      if fs.stale dir artifacts = [] then .ok artifacts
      else .error (.outOfDate (fs.stale dir artifacts)) := by
  have verdict (stale : List Stale) :
      Looks ((if stale.isEmpty then Pure.pure () else throw (.outOfDate stale)) >>=
          fun _ => Pure.pure artifacts)
        fun _ => if stale = [] then .ok artifacts else .error (.outOfDate stale) := by
    cases stale with
    | nil => exact pure artifacts
    | cons first rest => exact settle (.error (.outOfDate (first :: rest)))
  have found := (staleArtifacts dir artifacts).bind verdict
  rw [← bind_assoc] at found
  exact found

end Looks

section

variable {s after : Session} {spec : Path} {names : List String} {out : Option Path}
  {artifacts : List Artifact}

/-- A check succeeds exactly where all files that the inputs ask for are there as they should be. -/
theorem check_buildFile_iff :
    (s.run (buildFile spec names out .check)).1 = .ok artifacts ↔
      s.files.generated spec names = .ok artifacts ∧ ∀ a ∈ artifacts,
        s.files.read ((outputDirectory spec out).join a.path) = .ok a.content := by
  cases made : s.files.generated spec names with
  | error e =>
    obtain ⟨output, ended⟩ := run_buildFile_error s spec names out .check made
    rw [ended]
    simp
  | ok generated =>
    obtain ⟨output, ended⟩ := run_buildFile_ok s spec names out .check made
    obtain ⟨later, checked⟩ :=
      (Looks.check (outputDirectory spec out) generated).ends { s with output }
    rw [ended, checked]
    by_cases fresh : s.files.stale (outputDirectory spec out) generated = []
    · simp only [fresh, if_true, Except.ok.injEq, iff_self_and]
      rintro rfl
      exact FileSystem.stale_eq_nil_iff.mp fresh
    · simp only [fresh, if_false, Except.ok.injEq, reduceCtorEq, false_iff, not_and]
      rintro rfl current
      exact fresh (FileSystem.stale_eq_nil_iff.mpr current)

/-- Where a build has spared its inputs, the next one asks for the same files. -/
theorem generated_after_write
    (built : s.run (buildFile spec names out .write) = (.ok artifacts, after))
    (spared : ∀ input ∈ s.files.inputs spec, ∀ a ∈ artifacts,
      s.files.place ((outputDirectory spec out).join a.path) ≠ s.files.place input) :
    after.files.generated spec names = .ok artifacts := by
  have made := generated_of_buildFile built
  have grown := grown_of_buildFile built
  rw [← made]
  refine FileSystem.generated_congr fun input inside => ?_
  rcases grown.inputs made input inside with kept | ⟨a, member, leads, _⟩
  · exact kept
  · exact absurd leads (spared input inside a member)

/-- A build that has written its files and spared its inputs is up to date just if no two of its
files that lead to one place differ: of such files the last one stays. -/
theorem check_after_write_iff
    (built : s.run (buildFile spec names out .write) = (.ok artifacts, after))
    (spared : ∀ input ∈ s.files.inputs spec, ∀ a ∈ artifacts,
      s.files.place ((outputDirectory spec out).join a.path) ≠ s.files.place input) :
    (after.run (buildFile spec names out .check)).1 = .ok artifacts ↔
      ∀ a ∈ artifacts, ∀ b ∈ artifacts,
        s.files.place ((outputDirectory spec out).join a.path) =
          s.files.place ((outputDirectory spec out).join b.path) → a.content = b.content := by
  have grown := grown_of_buildFile built
  rw [check_buildFile_iff, generated_after_write built spared]
  simp only [true_and]
  constructor
  · intro current a left b right meets
    -- One file is at the place of both, and the check has read it twice.
    have first := (FileSystem.read_eq_ok_iff.mp (current a left)).2.1
    have second := (FileSystem.read_eq_ok_iff.mp (current b right)).2.1
    rw [grown.place_eq] at first second
    rw [meets, second] at first
    exact (Entry.file.inj (Option.some.inj first)).symm
  · intro agree a inside
    obtain ⟨b, member, meets, known⟩ := read_of_buildFile built a inside
    rw [known, agree b member a inside meets]

end

def headerFor (lead : String) : Artifact := Header.artifact ⟨"regs.h"⟩ (some lead) uart

theorem crowded_spared : ∀ input ∈ crowded.files.inputs ⟨"regbuild.toml"⟩,
    crowded.files.place ((outputDirectory ⟨"regbuild.toml"⟩ none).join ⟨"regs.h"⟩) ≠
      crowded.files.place input := by
  rw [FileSystem.inputs, crowded_inputs.1]
  decide

/-- The second header takes the place of the first one, and a check right after that misses the
first one. -/
theorem headers_outdated :
    ∃ after, crowded.run (buildFile ⟨"regbuild.toml"⟩ ["a", "b"] none .write) =
        (.ok [headerFor "A", headerFor "B"], after) ∧
      (∀ input ∈ crowded.files.inputs ⟨"regbuild.toml"⟩, ∀ a ∈ [headerFor "A", headerFor "B"],
        crowded.files.place ((outputDirectory ⟨"regbuild.toml"⟩ none).join a.path) ≠
          crowded.files.place input) ∧
      ∃ e, (after.run (buildFile ⟨"regbuild.toml"⟩ ["a", "b"] none .check)).1 = .error e := by
  have differ : (headerFor "A").content ≠ (headerFor "B").content := by decide +kernel
  have takes : ∀ a ∈ [headerFor "A", headerFor "B"], crowded.files.Takes a.path :=
    List.forall_mem_cons.mpr ⟨crowded_takes.1, List.forall_mem_singleton.mpr crowded_takes.1⟩
  have spared : ∀ input ∈ crowded.files.inputs ⟨"regbuild.toml"⟩,
      ∀ a ∈ [headerFor "A", headerFor "B"],
        crowded.files.place ((outputDirectory ⟨"regbuild.toml"⟩ none).join a.path) ≠
          crowded.files.place input := by
    intro input inside
    have apart := crowded_spared input inside
    exact List.forall_mem_cons.mpr ⟨apart, List.forall_mem_singleton.mpr apart⟩
  have made : crowded.files.generated ⟨"regbuild.toml"⟩ ["a", "b"] =
      .ok [headerFor "A", headerFor "B"] :=
    @crowded_generated ["a", "b"] [.header ⟨"regs.h"⟩ (some "A"), .header ⟨"regs.h"⟩ (some "B")] rfl
  obtain ⟨after, built⟩ := run_buildFile_beside crowded ⟨"regbuild.toml"⟩ ["a", "b"] made
    crowded_beside takes
  refine ⟨after, built, spared, ?_⟩
  cases checked : (after.run (buildFile ⟨"regbuild.toml"⟩ ["a", "b"] none .check)).1 with
  | error e => exact ⟨e, rfl⟩
  | ok found =>
    obtain ⟨again, current⟩ := check_buildFile_iff.mp checked
    cases again.symm.trans (generated_after_write built spared)
    obtain ⟨first, others⟩ := List.forall_mem_cons.mp current
    have second := List.forall_mem_singleton.mp others
    exact absurd (Except.ok.inj (first.symm.trans second)) differ

theorem header_upToDate :
    ∃ after, crowded.run (buildFile ⟨"regbuild.toml"⟩ ["a"] none .write) =
        (.ok [headerFor "A"], after) ∧
      (after.run (buildFile ⟨"regbuild.toml"⟩ ["a"] none .check)).1 = .ok [headerFor "A"] := by
  have made : crowded.files.generated ⟨"regbuild.toml"⟩ ["a"] = .ok [headerFor "A"] :=
    @crowded_generated ["a"] [.header ⟨"regs.h"⟩ (some "A")] rfl
  obtain ⟨after, built⟩ := run_buildFile_beside crowded ⟨"regbuild.toml"⟩ ["a"] made crowded_beside
    (List.forall_mem_singleton.mpr crowded_takes.1)
  refine ⟨after, built, (check_after_write_iff built ?_).mpr ?_⟩
  · exact fun input inside => List.forall_mem_singleton.mpr (crowded_spared input inside)
  · intro a left b right _
    rw [List.mem_singleton.mp left, List.mem_singleton.mp right]

end RegisterMap
