import RegisterMap.Proofs.FileContents
import RegisterMap.Proofs.FreshBuild

namespace RegisterMap

namespace FileSystem

/-- Why a build generates nothing: the first of its steps that fails, from the specification over
the targets and the description to the map. -/
inductive Refuses (fs : FileSystem) (path : Path) (names : List String) : Failure → Prop
  | spec {e : Failure} (failed : fs.spec path = .error e) : Refuses fs path names e
  | targets {loaded : BuildSpec} {e : Failure} (spec : fs.spec path = .ok loaded)
    (failed : loaded.targetsNamed names = .error e) : Refuses fs path names e
  | description {loaded : BuildSpec} {targets : List Target} {e : Failure}
    (spec : fs.spec path = .ok loaded) (chosen : loaded.targetsNamed names = .ok targets)
    (failed : fs.description loaded.regmap = .error e) : Refuses fs path names e
  | map {loaded : BuildSpec} {targets : List Target} {d : Description} {violation : Violation}
    (spec : fs.spec path = .ok loaded) (chosen : loaded.targetsNamed names = .ok targets)
    (described : fs.description loaded.regmap = .ok d)
    (failed : compile loaded.config d = .error violation) :
    Refuses fs path names (.invalidMap loaded.regmap violation)

section

variable {fs : FileSystem} {path : Path} {names : List String} {e : Failure}

theorem generated_of_refuses (refuses : fs.Refuses path names e) :
    fs.generated path names = .error e := by
  rw [generated]
  cases refuses with
  | spec failed =>
    rw [failed]
    rfl
  | targets spec failed =>
    simp only [spec, bind, Except.bind, failed]
  | description spec chosen failed =>
    simp only [spec, bind, Except.bind, chosen, FileSystem.map, failed]
  | map spec chosen described failed =>
    simp only [spec, bind, Except.bind, chosen, FileSystem.map, described, failed]
    rfl

theorem refuses_of_generated (failed : fs.generated path names = .error e) :
    fs.Refuses path names e := by
  rw [generated] at failed
  cases spec : fs.spec path with
  | error e' =>
    rw [spec] at failed
    cases failed
    exact .spec spec
  | ok loaded =>
    simp only [spec, bind, Except.bind] at failed
    cases chosen : loaded.targetsNamed names with
    | error e' =>
      rw [chosen] at failed
      cases failed
      exact .targets spec chosen
    | ok targets =>
      simp only [chosen, FileSystem.map, bind, Except.bind] at failed
      cases described : fs.description loaded.regmap with
      | error e' =>
        rw [described] at failed
        cases failed
        exact .description spec chosen described
      | ok d =>
        simp only [described] at failed
        cases compiled : compile loaded.config d with
        | error violation =>
          rw [compiled] at failed
          cases failed
          exact .map spec chosen described compiled
        | ok m =>
          rw [compiled] at failed
          cases failed

end

/-- What a check says of an artifact that is not in its place. -/
def staleness (fs : FileSystem) (dir : Path) (a : Artifact) : Stale :=
  match fs.read (dir.join a.path) with
  | .ok _ => .differs (dir.join a.path)
  | .error _ => .missing (dir.join a.path)

/-- A check lists just the artifacts that are not in their places, each of them once and in turn. -/
theorem stale_eq (fs : FileSystem) (dir : Path) (artifacts : List Artifact) :
    fs.stale dir artifacts =
      (artifacts.filter fun a => fs.read (dir.join a.path) ≠ .ok a.content).map
        (fs.staleness dir) := by
  induction artifacts with
  | nil => rfl
  | cons a rest ih =>
    rw [stale, List.flatMap_cons, List.filter_cons, ← stale, ih]
    cases known : fs.read (dir.join a.path) with
    | error e => simp [Artifact.stale?, staleness, known]
    | ok content => by_cases same : content = a.content <;>
        simp [Artifact.stale?, staleness, known, same]

end FileSystem

/-- What a build does to files and how it ends, whatever it finds. -/
structure Session.Builds (s : Session) (spec : Path) (names : List String) (out : Option Path) :
    Prop where
  /-- A build that generates nothing touches nothing. -/
  refused : ∀ mode e, s.files.Refuses spec names e →
    ∃ output, s.run (buildFile spec names out mode) = (.error e, { s with output })
  generates : (∃ e, s.files.Refuses spec names e) ∨
    ∃ artifacts, s.files.generated spec names = .ok artifacts
  untouched : (s.run (buildFile spec names out .check)).2.files = s.files
  checked : ∀ artifacts, s.files.generated spec names = .ok artifacts →
    (s.run (buildFile spec names out .check)).1 =
      if ∀ a ∈ artifacts, s.files.read ((outputDirectory spec out).join a.path) = .ok a.content
      then .ok artifacts
      else .error (.outOfDate ((artifacts.filter fun a =>
        s.files.read ((outputDirectory spec out).join a.path) ≠ .ok a.content).map
          (s.files.staleness (outputDirectory spec out))))
  /-- All artifacts are written, or all before the one that cannot be. -/
  written : ∀ artifacts, s.files.generated spec names = .ok artifacts → ∃ after,
    (s.run (buildFile spec names out .write) = (.ok artifacts, after) ∧
      s.files.Wrote (outputDirectory spec out) artifacts after.files) ∨
    ∃ e, s.run (buildFile spec names out .write) = (.error e, after) ∧
      ∃ done a rest, artifacts = done ++ a :: rest ∧ a.Refused (outputDirectory spec out) e ∧
        ∃ output between, ({ s with output } : Session).run
            (writeArtifacts (outputDirectory spec out) .write done) = (.ok (), between) ∧
          s.files.Wrote (outputDirectory spec out) done between.files ∧
          between.files.Kept after.files

section

variable {s : Session} {spec : Path} {names : List String} {artifacts : List Artifact}

theorem run_check (made : s.files.generated spec names = .ok artifacts) (out : Option Path) :
    ∃ output, s.run (buildFile spec names out .check) =
      (if s.files.stale (outputDirectory spec out) artifacts = [] then .ok artifacts
        else .error (.outOfDate (s.files.stale (outputDirectory spec out) artifacts)),
        { s with output }) := by
  obtain ⟨output, ended⟩ := run_buildFile_ok s spec names out .check made
  obtain ⟨later, checked⟩ :=
    (Looks.check (outputDirectory spec out) artifacts).ends { s with output }
  exact ⟨later, ended.trans checked⟩

/-- A build in write mode ends as the writing of its artifacts does. -/
theorem run_write (made : s.files.generated spec names = .ok artifacts) (out : Option Path) :
    ∃ output, ∀ result after, ({ s with output } : Session).run
        (artifacts.forM (writeArtifact (outputDirectory spec out))) = (result, after) →
      s.run (buildFile spec names out .write) = (result.map fun _ => artifacts, after) := by
  obtain ⟨output, ended⟩ := run_buildFile_ok s spec names out .write made
  refine ⟨output, fun result after wrote => ?_⟩
  rw [ended, Session.run_bind, writeArtifacts, wrote]
  cases result <;> rfl

end

/-- A build that is refused touches nothing, a check touches nothing, and a build that writes
changes just the files of its artifacts, in turn up to the first that cannot be written. -/
theorem buildFile_builds (s : Session) (spec : Path) (names : List String) (out : Option Path) :
    s.Builds spec names out where
  refused mode e refuses := run_buildFile_error s spec names out mode
    (FileSystem.generated_of_refuses refuses)
  generates := by
    cases made : s.files.generated spec names with
    | error e => exact .inl ⟨e, FileSystem.refuses_of_generated made⟩
    | ok artifacts => exact .inr ⟨artifacts, rfl⟩
  untouched := by
    cases made : s.files.generated spec names with
    | error e =>
      obtain ⟨output, ended⟩ := run_buildFile_error s spec names out .check made
      rw [ended]
    | ok artifacts =>
      obtain ⟨output, ended⟩ := run_check made out
      rw [ended]
  checked artifacts made := by
    obtain ⟨output, ended⟩ := run_check made out
    rw [ended, ← FileSystem.stale_eq]
    simp only [FileSystem.stale_eq_nil_iff]
  written artifacts made := by
    obtain ⟨output, follows⟩ := run_write made out
    rcases wrote : ({ s with output } : Session).run
      (artifacts.forM (writeArtifact (outputDirectory spec out))) with ⟨result, after⟩
    have ended := follows result after wrote
    refine ⟨after, ?_⟩
    cases result with
    | ok => exact .inl ⟨ended, @Session.wrote_of_writeAll { s with output } _ _ _ wrote⟩
    | error e =>
      obtain ⟨done, a, rest, parts, refused, between, first, kept⟩ :=
        Session.stopped_of_writeAll wrote
      exact .inr ⟨e, ended, done, a, rest, parts, refused, output, between, first,
        @Session.wrote_of_writeAll { s with output } _ _ _ first, kept⟩

/-- Of two headers that go to one file a check misses both; a build leaves the second one there. -/
theorem crowded_builds :
    crowded.Builds ⟨"regbuild.toml"⟩ ["a", "b"] none ∧
      (crowded.run (buildFile ⟨"regbuild.toml"⟩ ["a", "b"] none .check)).1 =
        .error (.outOfDate [.missing ⟨"regs.h"⟩, .missing ⟨"regs.h"⟩]) ∧
      ∃ after, crowded.run (buildFile ⟨"regbuild.toml"⟩ ["a", "b"] none .write) =
          (.ok [headerFor "A", headerFor "B"], after) ∧
        after.files.read ⟨"regs.h"⟩ = .ok (headerFor "B").content := by
  have builds := buildFile_builds crowded ⟨"regbuild.toml"⟩ ["a", "b"] none
  have made : crowded.files.generated ⟨"regbuild.toml"⟩ ["a", "b"] =
      .ok [headerFor "A", headerFor "B"] :=
    @crowded_generated ["a", "b"] [.header ⟨"regs.h"⟩ (some "A"), .header ⟨"regs.h"⟩ (some "B")] rfl
  have nothing : crowded.files.read ((outputDirectory ⟨"regbuild.toml"⟩ none).join ⟨"regs.h"⟩) =
      .error .notFound := rfl
  have first : crowded.files.read
      ((outputDirectory ⟨"regbuild.toml"⟩ none).join (headerFor "A").path) = .error .notFound :=
    nothing
  have second : crowded.files.read
      ((outputDirectory ⟨"regbuild.toml"⟩ none).join (headerFor "B").path) = .error .notFound :=
    nothing
  refine ⟨builds, ?_, ?_⟩
  · rw [builds.checked _ made, if_neg]
    · simp only [List.filter_cons, first, second]
      rfl
    · intro current
      cases first.symm.trans (current _ (List.mem_cons_self ..))
  · obtain ⟨after, ended⟩ := run_buildFile_beside crowded ⟨"regbuild.toml"⟩ ["a", "b"] made
      crowded_beside
      (List.forall_mem_cons.mpr ⟨crowded_takes.1, List.forall_mem_singleton.mpr crowded_takes.1⟩)
    obtain ⟨after', ⟨own, wrote⟩ | ⟨e, failed, _⟩⟩ := builds.written _ made
    · obtain ⟨b, last, known⟩ := wrote.read (headerFor "B") (by simp)
      have meets : (headerFor "A").path = (headerFor "B").path := rfl
      rw [FileSystem.lastAt?_cons, if_pos (by rw [meets]), FileSystem.lastAt?_cons, if_pos rfl] at last
      cases last
      rw [crowded_beside, Path.join_nothing] at known
      exact ⟨after', own, known⟩
    · cases failed.symm.trans ended

end RegisterMap
