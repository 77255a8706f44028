import RegisterMap.Proofs.Compiled
import RegisterMap.Proofs.Runs

namespace RegisterMap

namespace FileSystem

variable {fs other : FileSystem} {path : Path} {names : List String} {artifacts : List Artifact}

theorem read_of_bind {α : Type} {make : String → Except Failure α} {made : α}
    (done : (fs.read path).mapError (.notRead path) >>= make = .ok made) :
    ∃ text, fs.read path = .ok text := by
  cases known : fs.read path with
  | error e =>
    rw [known] at done
    cases done
  | ok text => exact ⟨text, rfl⟩

/-- What the build of a specification reads: the specification, and the description that it
names. -/
def inputs (fs : FileSystem) (path : Path) : List Path :=
  path :: match fs.spec path with
    | .ok loaded => [loaded.regmap]
    | .error _ => []

/-- Where files are generated, all inputs could be read. -/
theorem read_of_generated (made : fs.generated path names = .ok artifacts) :
    ∀ input ∈ fs.inputs path, ∃ text, fs.read input = .ok text := by
  obtain ⟨loaded, spec, rest⟩ := bind_eq_ok_iff.mp made
  obtain ⟨targets, _, rest⟩ := bind_eq_ok_iff.mp rest
  obtain ⟨map, compiled, _⟩ := bind_eq_ok_iff.mp rest
  obtain ⟨d, described, _⟩ := bind_eq_ok_iff.mp compiled
  rw [inputs, spec]
  exact List.forall_mem_cons.mpr ⟨read_of_bind spec,
    List.forall_mem_singleton.mpr (read_of_bind described)⟩

theorem map_congr {config : Config} (same : other.read path = fs.read path) :
    other.map config path = fs.map config path := by
  rw [FileSystem.map, FileSystem.map, description, description, same]

/-- The generated files depend on the inputs and on no other file. -/
theorem generated_congr (same : ∀ input ∈ fs.inputs path, other.read input = fs.read input) :
    other.generated path names = fs.generated path names := by
  obtain ⟨first, others⟩ := List.forall_mem_cons.mp same
  have specs : other.spec path = fs.spec path := by rw [spec, spec, first]
  rw [generated, generated, specs]
  cases found : fs.spec path with
  | error e => rfl
  | ok loaded =>
    rw [found] at others
    have maps (config : Config) := @map_congr fs other loaded.regmap config
      (others _ (List.mem_singleton_self _))
    simp only [bind, Except.bind, maps]

/-- The files that a build of a specification writes, none where it fails before that. -/
def outputs (fs : FileSystem) (path : Path) (names : List String) : List Artifact :=
  match fs.generated path names with
  | .ok artifacts => artifacts
  | .error _ => []

/-- Inputs are there still after files have been written, unless the path of one of these leads to
them. -/
theorem Grown.inputs {dir : Path} {written : List Artifact}
    (grown : Grown (written.map (Artifact.writeTo dir)) fs other)
    (made : fs.generated path names = .ok artifacts) :
    ∀ input ∈ fs.inputs path, other.read input = fs.read input ∨
      ∃ a ∈ written, fs.place (dir.join a.path) = fs.place input ∧
        other.read input = .ok a.content := by
  intro input inside
  obtain ⟨text, known⟩ := read_of_generated made input inside
  rw [known]
  rcases grown.read known with kept | ⟨w, member, leads, changed⟩
  · exact .inl kept
  · obtain ⟨a, own, rfl⟩ := List.mem_map.mp member
    exact .inr ⟨a, own, leads, changed⟩

end FileSystem

section

variable (s : Session) (spec : Path) (names : List String) (out : Option Path) (mode : WriteMode)

/-- A build first generates all files from its inputs. -/
theorem buildFile_eq :
    (buildFile spec names out mode : BuildM (StateM Session) (List Artifact)) =
      (do let loaded ← loadSpec spec; buildArtifacts loaded names) >>= fun artifacts => do
        writeArtifacts (outputDirectory spec out) mode artifacts
        return artifacts :=
  (bind_assoc ..).symm

/-- A build that generates nothing fails and touches no file. -/
theorem run_buildFile_error {e : Failure}
    (failed : s.files.generated spec names = .error e) :
    ∃ output, s.run (buildFile spec names out mode) = (.error e, { s with output }) := by
  obtain ⟨output, ended⟩ := (Looks.generated spec names).ends s
  rw [failed] at ended
  exact ⟨output, by rw [buildFile_eq, Session.run_bind_error ended]⟩

/-- A build that has generated its files goes on to them with its inputs as they were. -/
theorem run_buildFile_ok {artifacts : List Artifact}
    (made : s.files.generated spec names = .ok artifacts) :
    ∃ output, s.run (buildFile spec names out mode) =
      ({ s with output } : Session).run (do
        writeArtifacts (outputDirectory spec out) mode artifacts
        return artifacts) := by
  obtain ⟨output, ended⟩ := (Looks.generated spec names).ends s
  rw [made] at ended
  exact ⟨output, by rw [buildFile_eq, Session.run_bind_ok ended]⟩

theorem writeArtifacts_grows (dir : Path) (artifacts : List Artifact) :
    Grows (do writeArtifacts dir .write artifacts; return artifacts)
      (artifacts.map (Artifact.writeTo dir)) := by
  rw [← List.append_nil (artifacts.map _)]
  exact (Grows.writeAll dir artifacts).bind fun _ => (Looks.pure artifacts).grows

/-- Whether or not a build succeeds, an input is read afterwards as before, unless the path of a
generated file leads to it; then it is read as that file. -/
theorem buildFile_keeps_inputs :
    ∀ input ∈ s.files.inputs spec,
      (s.run (buildFile spec names out .write)).2.files.read input = s.files.read input ∨
        ∃ a ∈ s.files.outputs spec names,
          s.files.place ((outputDirectory spec out).join a.path) = s.files.place input ∧
            (s.run (buildFile spec names out .write)).2.files.read input = .ok a.content := by
  intro input inside
  cases made : s.files.generated spec names with
  | error e =>
    obtain ⟨output, ended⟩ := run_buildFile_error s spec names out .write made
    exact .inl (by rw [ended])
  | ok artifacts =>
    obtain ⟨output, ended⟩ := run_buildFile_ok s spec names out .write made
    have grown := (writeArtifacts_grows (outputDirectory spec out) artifacts).grown
      { s with output }
    rw [FileSystem.outputs, made, ended]
    exact grown.inputs made input inside

/-- A build beside its specification writes all files that have mere names for paths. -/
theorem run_buildFile_beside {made : List Artifact}
    (generated : s.files.generated spec names = .ok made)
    (beside : outputDirectory spec none = ⟨""⟩) (takes : ∀ a ∈ made, s.files.Takes a.path) :
    ∃ after, s.run (buildFile spec names none .write) = (.ok made, after) := by
  obtain ⟨output, ended⟩ := run_buildFile_ok s spec names none .write generated
  obtain ⟨after, wrote⟩ := @Session.run_writeAll { files := s.files, output } made takes
  refine ⟨after, ?_⟩
  rw [ended, beside]
  exact Session.run_bind_ok wrote _

end

section

variable {s after : Session} {spec : Path} {names : List String} {out : Option Path}
  {artifacts : List Artifact}

theorem generated_of_buildFile {mode : WriteMode}
    (built : s.run (buildFile spec names out mode) = (.ok artifacts, after)) :
    s.files.generated spec names = .ok artifacts := by
  cases made : s.files.generated spec names with
  | error e =>
    obtain ⟨output, ended⟩ := run_buildFile_error s spec names out mode made
    rw [ended] at built
    cases built
  | ok generated =>
    obtain ⟨output, ended⟩ := run_buildFile_ok s spec names out mode made
    rw [ended] at built
    obtain ⟨_, _, _, returned⟩ := Session.run_bind_eq_ok.mp built
    cases returned
    rfl

theorem run_writeAll_of_buildFile
    (built : s.run (buildFile spec names out .write) = (.ok artifacts, after)) :
    ∃ output, ({ s with output } : Session).run
      (artifacts.forM (writeArtifact (outputDirectory spec out))) = (.ok (), after) := by
  obtain ⟨output, ended⟩ := run_buildFile_ok s spec names out .write (generated_of_buildFile built)
  rw [ended] at built
  obtain ⟨_, between, wrote, returned⟩ := Session.run_bind_eq_ok.mp built
  cases returned
  exact ⟨output, wrote⟩

theorem grown_of_buildFile
    (built : s.run (buildFile spec names out .write) = (.ok artifacts, after)) :
    FileSystem.Grown (artifacts.map (Artifact.writeTo (outputDirectory spec out))) s.files
      after.files := by
  obtain ⟨output, wrote⟩ := run_writeAll_of_buildFile built
  have grown := (Grows.writeAll (outputDirectory spec out) artifacts).grown { s with output }
  rw [wrote] at grown
  exact grown

theorem read_of_buildFile
    (built : s.run (buildFile spec names out .write) = (.ok artifacts, after)) :
    ∀ a ∈ artifacts, ∃ b ∈ artifacts,
      s.files.place ((outputDirectory spec out).join b.path) =
          s.files.place ((outputDirectory spec out).join a.path) ∧
        after.files.read ((outputDirectory spec out).join a.path) = .ok b.content := by
  obtain ⟨output, wrote⟩ := run_writeAll_of_buildFile built
  exact @Session.read_of_writeAll { s with output } after _ artifacts wrote

end

/-- A map of no registers. -/
def uart : AddressMap where
  name := "uart"
  base := 0
  word := .w32
  registers := []
  reserved := []

def crowdedText : String := "\n".intercalate
  ["regmap = \"regs.json\"",
    "[targets.a]", "generator = \"c-header\"", "prefix = \"A\"",
    "[targets.b]", "generator = \"c-header\"", "prefix = \"B\"",
    "[targets.dump]", "generator = \"json\""]

/-- A description, and a specification that leaves it to its generators where their files go: the
dump goes where the description is, and both headers go to one place. -/
def crowded : Session where
  files :=
    { entries :=
        [(["regs.json"], .file "\x7b\"name\":\"uart\"\x7d"), (["regbuild.toml"], .file crowdedText)]
      workdir := [] }

def crowdedSpec : BuildSpec where
  regmap := ⟨"regs.json"⟩
  targets :=
    [("a", .header ⟨"regs.h"⟩ (some "A")), ("b", .header ⟨"regs.h"⟩ (some "B")),
      ("dump", .dump ⟨"regs.json"⟩)]

theorem crowded_inputs : crowded.files.spec ⟨"regbuild.toml"⟩ = .ok crowdedSpec ∧
    crowded.files.description ⟨"regs.json"⟩ = .ok { name := "uart" } := by
  decide +kernel

theorem crowded_generated {names : List String} {targets : List Target}
    (chosen : crowdedSpec.targetsNamed names = .ok targets) :
    crowded.files.generated ⟨"regbuild.toml"⟩ names = .ok (targets.map fun t => t.emit uart) := by
  obtain ⟨spec, described⟩ := crowded_inputs
  have made : Description.mapOf {} .w32 { name := "uart" } = uart := by
    simp [Description.mapOf, Description.built, byAddress, slotLine, uart, Config.baseOf]
  have compiled : compile {} { name := "uart" } = .ok uart :=
    compile_eq_ok_iff.mpr ⟨.w32, by decide, made⟩
  have map : crowded.files.map crowdedSpec.config crowdedSpec.regmap = .ok uart := by
    rw [FileSystem.map, crowdedSpec, described]
    simp only [bind, Except.bind, compiled]
    rfl
  rw [FileSystem.generated, spec]
  simp only [bind, Except.bind, chosen, map]
  rfl

theorem crowded_description :
    ⟨"regs.json"⟩ ∈ crowded.files.inputs ⟨"regbuild.toml"⟩ := by
  rw [FileSystem.inputs, crowded_inputs.1]
  exact List.mem_cons_of_mem _ (List.mem_singleton_self _)

theorem crowded_beside : outputDirectory ⟨"regbuild.toml"⟩ none = ⟨""⟩ := rfl

theorem crowded_takes : crowded.files.Takes ⟨"regs.h"⟩ ∧ crowded.files.Takes ⟨"regs.json"⟩ :=
  ⟨⟨rfl, rfl, by decide, rfl, rfl⟩, ⟨rfl, rfl, by decide, rfl, rfl⟩⟩

/-- The dump of the map takes the place of its description. -/
theorem dump_over_description :
    ⟨"regs.json"⟩ ∈ crowded.files.inputs ⟨"regbuild.toml"⟩ ∧
      (crowded.run (buildFile ⟨"regbuild.toml"⟩ ["dump"] none .write)).2.files.read ⟨"regs.json"⟩ ≠
        crowded.files.read ⟨"regs.json"⟩ := by
  have other : .ok (Dump.artifact ⟨"regs.json"⟩ uart).content ≠
      crowded.files.read ⟨"regs.json"⟩ := by decide +kernel
  have made : crowded.files.generated ⟨"regbuild.toml"⟩ ["dump"] =
      .ok [Dump.artifact ⟨"regs.json"⟩ uart] :=
    @crowded_generated ["dump"] [.dump ⟨"regs.json"⟩] rfl
  obtain ⟨after, built⟩ := run_buildFile_beside crowded ⟨"regbuild.toml"⟩ ["dump"] made
    crowded_beside (List.forall_mem_singleton.mpr crowded_takes.2)
  obtain ⟨a, inside, _, known⟩ := read_of_buildFile built _ (List.mem_singleton_self _)
  obtain rfl := List.mem_singleton.mp inside
  rw [crowded_beside, Path.join_nothing] at known
  refine ⟨crowded_description, ?_⟩
  rw [built]
  exact fun same => other (known.symm.trans same)

theorem header_beside_description :
    ⟨"regs.json"⟩ ∈ crowded.files.inputs ⟨"regbuild.toml"⟩ ∧
      (crowded.run (buildFile ⟨"regbuild.toml"⟩ ["a"] none .write)).2.files.read ⟨"regs.json"⟩ =
        crowded.files.read ⟨"regs.json"⟩ := by
  have made : crowded.files.generated ⟨"regbuild.toml"⟩ ["a"] =
      .ok [Header.artifact ⟨"regs.h"⟩ (some "A") uart] :=
    @crowded_generated ["a"] [.header ⟨"regs.h"⟩ (some "A")] rfl
  refine ⟨crowded_description, ?_⟩
  rcases buildFile_keeps_inputs crowded ⟨"regbuild.toml"⟩ ["a"] none _ crowded_description with
    kept | ⟨a, written, leads, _⟩
  · exact kept
  · rw [FileSystem.outputs, made] at written
    obtain rfl := List.mem_singleton.mp written
    exact absurd leads (by decide)

end RegisterMap
