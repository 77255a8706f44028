import RegisterMap.Proofs.Runs

namespace RegisterMap

namespace FileSystem

/-- What the file at a location holds. There is nothing where no file is. -/
def content? (fs : FileSystem) (loc : Location) : Option String :=
  match fs.find? loc with
  | some (.file content) => some content
  | _ => none

variable {fs after : FileSystem} {loc other : Location} {content : String}

theorem content?_eq_some_iff :
    fs.content? loc = some content ↔ fs.find? loc = some (.file content) := by
  unfold content?
  split <;> simp_all

theorem content?_set_file (inside : loc ≠ []) :
    (fs.set loc (.file content)).content? other =
      if other = loc then some content else fs.content? other := by
  split
  · rename_i same
    rw [same, content?_eq_some_iff]
    exact find?_set_self fs _ inside
  · rename_i apart
    rw [content?, find?_set_of_ne fs _ apart]
    rfl

/-- Files that hold what they held before, whatever directories have been added. -/
structure Kept (before after : FileSystem) : Prop where
  workdir : after.workdir = before.workdir
  content (loc : Location) : after.content? loc = before.content? loc

namespace Kept

variable {before middle : FileSystem}

theorem refl (fs : FileSystem) : Kept fs fs := ⟨rfl, fun _ => rfl⟩

theorem trans (first : Kept before middle) (second : Kept middle after) : Kept before after :=
  ⟨second.workdir.trans first.workdir, fun loc => (second.content loc).trans (first.content loc)⟩

theorem place_eq (kept : Kept before after) (p : Path) : after.place p = before.place p := by
  rw [place, origin, kept.workdir]
  rfl

theorem set_directory (free : fs.find? loc = none) : Kept fs (fs.set loc .directory) := by
  refine ⟨rfl, fun other => ?_⟩
  by_cases same : other = loc
  · have inside : loc ≠ [] := by
      rintro rfl
      cases free
    rw [same, content?, content?, find?_set_self fs _ inside, free]
  · rw [content?, content?, find?_set_of_ne fs _ same]

end Kept

theorem Widened.kept {before : FileSystem} (widened : Widened before after) :
    Kept before after := by
  induction widened with
  | refl => exact .refl before
  | add _ free ih => exact ih.trans (.set_directory free)

theorem content?_of_write {p : Path} (written : fs.write p content = .ok after) :
    after.content? loc = if loc = fs.place p then some content else fs.content? loc := by
  obtain ⟨_, free, _, _, rfl⟩ := write_eq_ok_iff.mp written
  exact content?_set_file fun root => free (root ▸ find?_nil fs)

/-- The last one of some artifacts whose path leads to a location. -/
def lastAt? (fs : FileSystem) (dir : Path) (artifacts : List Artifact) (loc : Location) :
    Option Artifact :=
  (artifacts.filter fun a => fs.place (dir.join a.path) = loc).getLast?

section

variable {dir : Path} {a : Artifact} {artifacts : List Artifact}

theorem lastAt?_cons : fs.lastAt? dir (a :: artifacts) loc =
    if fs.place (dir.join a.path) = loc then some ((fs.lastAt? dir artifacts loc).getD a)
    else fs.lastAt? dir artifacts loc := by
  rw [lastAt?, List.filter_cons]
  split
  · rename_i leads
    rw [if_pos (of_decide_eq_true leads), List.getLast?_cons]
    rfl
  · rename_i apart
    rw [if_neg (by simpa using apart)]
    rfl

theorem exists_lastAt? (fs : FileSystem) (dir : Path) (inside : a ∈ artifacts) :
    ∃ b, fs.lastAt? dir artifacts (fs.place (dir.join a.path)) = some b := by
  refine ⟨_, List.getLast?_eq_some_getLast (List.ne_nil_of_mem (a := a) ?_)⟩
  exact List.mem_filter.mpr ⟨inside, decide_eq_true rfl⟩

end

/-- Files after artifacts have been written in turn: where the paths of some of them lead to one
place, the last of these is there, and all other files are as they were. -/
structure Wrote (dir : Path) (artifacts : List Artifact) (before after : FileSystem) : Prop where
  content (loc : Location) : after.content? loc =
    ((before.lastAt? dir artifacts loc).map Artifact.content).or (before.content? loc)
  read : ∀ a ∈ artifacts, ∃ b,
    before.lastAt? dir artifacts (before.place (dir.join a.path)) = some b ∧
      after.read (dir.join a.path) = .ok b.content

end FileSystem

/-- How the writing of an artifact fails: there is no directory for it, or no file takes it. -/
inductive Artifact.Refused (dir : Path) (a : Artifact) : Failure → Prop
  | directory {above : Path} {cause : FileError} (parent : (dir.join a.path).parent? = some above) :
    Refused dir a (.notCreated above cause)
  | file {cause : FileError} : Refused dir a (.notWritten (dir.join a.path) cause)

namespace Session

variable {s after : Session} {dir : Path} {a : Artifact} {artifacts : List Artifact}

theorem run_writeFile_cases (s : Session) (dir : Path) (a : Artifact) (note : String) :
    (∃ done : Session, s.files.write (dir.join a.path) a.content = .ok done.files ∧
      s.run (do
        attempt (.notWritten (dir.join a.path)) (Host.writeFile (dir.join a.path) a.content)
        log .info note) = (.ok (), done)) ∨
    ∃ cause, s.run (do
        attempt (.notWritten (dir.join a.path)) (Host.writeFile (dir.join a.path) a.content)
        log .info note) = (.error (.notWritten (dir.join a.path) cause), s) := by
  have ran := s.run_writeFile (.notWritten (dir.join a.path)) (dir.join a.path) a.content
  cases wrote : s.files.write (dir.join a.path) a.content with
  | ok files =>
    rw [wrote] at ran
    obtain ⟨output, told⟩ := (Looks.log .info note).ends { s with files }
    exact .inl ⟨{ files, output }, rfl, (run_bind_ok ran _).trans told⟩
  | error cause =>
    rw [wrote] at ran
    exact .inr ⟨cause, run_bind_error ran _⟩

/-- All that the writing of one artifact may do: its file is written among files that are as they
were, or it fails with no file touched. -/
theorem run_writeArtifact_cases (s : Session) (dir : Path) (a : Artifact) :
    (∃ made : FileSystem, s.files.Kept made ∧ ∃ done : Session,
      made.write (dir.join a.path) a.content = .ok done.files ∧
        s.run (writeArtifact dir a) = (.ok (), done)) ∨
    ∃ e, a.Refused dir e ∧ ∃ stopped : Session, s.files.Kept stopped.files ∧
      s.run (writeArtifact dir a) = (.error e, stopped) := by
  simp only [writeArtifact]
  split
  · rename_i above parent
    have made := (s.files.makeDirectories_widened above).kept
    have ran := s.run_makeDirectories (.notCreated above) above
    cases created : (s.files.makeDirectories above).2 with
    | error cause =>
      rw [created] at ran
      exact .inr ⟨_, .directory parent, _, made, run_bind_error ran _⟩
    | ok =>
      rw [created] at ran
      rw [run_bind_ok ran]
      rcases run_writeFile_cases { s with files := (s.files.makeDirectories above).1 } dir a _ with
        ⟨done, wrote, ended⟩ | ⟨cause, ended⟩
      · exact .inl ⟨_, made, done, wrote, ended⟩
      · exact .inr ⟨_, .file, _, made, ended⟩
  · rcases run_writeFile_cases s dir a _ with ⟨done, wrote, ended⟩ | ⟨cause, ended⟩
    · exact .inl ⟨_, .refl s.files, done, wrote, ended⟩
    · exact .inr ⟨_, .file, _, .refl s.files, ended⟩

theorem content?_writeArtifact (ended : s.run (writeArtifact dir a) = (.ok (), after))
    (loc : Location) : after.files.content? loc =
      if loc = s.files.place (dir.join a.path) then some a.content else s.files.content? loc := by
  rcases s.run_writeArtifact_cases dir a with ⟨made, kept, done, wrote, ran⟩ | ⟨e, _, _, _, ran⟩
  · cases ended.symm.trans ran
    rw [FileSystem.content?_of_write wrote, kept.place_eq, kept.content]
  · cases ended.symm.trans ran

theorem content?_writeAll (ended : s.run (artifacts.forM (writeArtifact dir)) = (.ok (), after))
    (loc : Location) : after.files.content? loc =
      ((s.files.lastAt? dir artifacts loc).map Artifact.content).or (s.files.content? loc) := by
  induction artifacts generalizing s with
  | nil =>
    cases ended
    rfl
  | cons first rest ih =>
    obtain ⟨_, between, wrote, others⟩ := run_bind_eq_ok.mp ended
    have grown := (Grows.writeArtifact dir first).grown s
    rw [wrote] at grown
    have places : between.files.lastAt? dir rest loc = s.files.lastAt? dir rest loc := by
      simp only [FileSystem.lastAt?, grown.place_eq]
    rw [ih others, places, content?_writeArtifact wrote, FileSystem.lastAt?_cons]
    by_cases leads : s.files.place (dir.join first.path) = loc
    · rw [if_pos leads.symm, if_pos leads]
      cases s.files.lastAt? dir rest loc <;> rfl
    · rw [if_neg (Ne.symm leads), if_neg leads]

theorem wrote_of_writeAll (ended : s.run (artifacts.forM (writeArtifact dir)) = (.ok (), after)) :
    FileSystem.Wrote dir artifacts s.files after.files where
  content := content?_writeAll ended
  read a inside := by
    obtain ⟨b, last⟩ := FileSystem.exists_lastAt? s.files dir inside
    obtain ⟨c, _, _, known⟩ := read_of_writeAll ended a inside
    have grown := (Grows.writeAll dir artifacts).grown s
    rw [ended] at grown
    -- The file that is read is the one at the place of the path.
    have there := FileSystem.content?_eq_some_iff.mpr (FileSystem.read_eq_ok_iff.mp known).2.1
    rw [grown.place_eq, content?_writeAll ended, last] at there
    exact ⟨b, last, known.trans (congrArg _ (Option.some.inj there).symm)⟩

/-- Where writing stops, all artifacts before have been written and no file has been touched
since. -/
theorem stopped_of_writeAll {e : Failure}
    (ended : s.run (artifacts.forM (writeArtifact dir)) = (.error e, after)) :
    ∃ done a rest, artifacts = done ++ a :: rest ∧ a.Refused dir e ∧ ∃ between,
      s.run (done.forM (writeArtifact dir)) = (.ok (), between) ∧
        between.files.Kept after.files := by
  induction artifacts generalizing s with
  | nil => cases ended
  | cons first rest ih =>
    have ended : s.run (writeArtifact dir first >>= fun _ => rest.forM (writeArtifact dir)) =
        (.error e, after) := ended
    rcases s.run_writeArtifact_cases dir first with
      ⟨_, _, next, _, ran⟩ | ⟨e', refused, stopped, kept, ran⟩
    · rw [run_bind_ok ran] at ended
      obtain ⟨done, a, others, parts, refused, between, wrote, kept⟩ := ih ended
      refine ⟨first :: done, a, others, congrArg (first :: ·) parts, refused, between, ?_, kept⟩
      exact (run_bind_ok ran _).trans wrote
    · rw [run_bind_error ran] at ended
      cases ended
      exact ⟨[], first, rest, rfl, refused, s, rfl, kept⟩

end Session

end RegisterMap
