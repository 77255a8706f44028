import RegisterMap.Build
import RegisterMap.Proofs.FileFrame

namespace RegisterMap

variable {α β : Type}

/-- How a build ends that is started in a session, and the session after it. -/
def Session.run (s : Session) (x : BuildM (StateM Session) α) : Except Failure α × Session :=
  StateT.run (ExceptT.run x) s

/-- The build goes on with its next part only if the one before did not fail. -/
theorem Session.run_bind (s : Session) (x : BuildM (StateM Session) α)
    (next : α → BuildM (StateM Session) β) :
    s.run (x >>= next) = match s.run x with
      | (.ok a, after) => after.run (next a)
      | (.error e, after) => (.error e, after) := by
  rcases ended : s.run x with ⟨result, after⟩
  have step : s.run (x >>= next) = StateT.run (ExceptT.bindCont next (s.run x).1) (s.run x).2 := rfl
  rw [step, ended]
  cases result <;> rfl

theorem Session.run_bind_ok {s after : Session} {x : BuildM (StateM Session) α} {a : α}
    (ended : s.run x = (.ok a, after)) (next : α → BuildM (StateM Session) β) :
    s.run (x >>= next) = after.run (next a) := by rw [run_bind, ended]

theorem Session.run_bind_error {s after : Session} {x : BuildM (StateM Session) α} {e : Failure}
    (ended : s.run x = (.error e, after)) (next : α → BuildM (StateM Session) β) :
    s.run (x >>= next) = (.error e, after) := by rw [run_bind, ended]

theorem Session.run_bind_eq_ok {s after : Session} {x : BuildM (StateM Session) α}
    {next : α → BuildM (StateM Session) β} {b : β} :
    s.run (x >>= next) = (.ok b, after) ↔
      ∃ a between, s.run x = (.ok a, between) ∧ between.run (next a) = (.ok b, after) := by
  rw [run_bind]
  rcases s.run x with ⟨result, between⟩
  cases result with
  | error e => simp
  | ok a =>
    constructor
    · exact fun rest => ⟨a, between, rfl, rest⟩
    · rintro ⟨_, _, same, rest⟩
      cases same
      exact rest

/-- A build that only looks at files, and what it makes of them. -/
structure Looks (x : BuildM (StateM Session) α) (seen : FileSystem → Except Failure α) : Prop where
  ends (s : Session) : ∃ output, s.run x = (seen s.files, { s with output })

namespace Looks

theorem pure (a : α) : Looks (pure a) fun _ => .ok a := ⟨fun s => ⟨s.output, rfl⟩⟩

theorem settle (result : Except Failure α) : Looks (settle result) fun _ => result :=
  ⟨fun s => ⟨s.output, rfl⟩⟩

theorem log (level : LogLevel) (message : String) : Looks (log level message) fun _ => .ok () :=
  ⟨fun s => ⟨s.output ++ [.log level message], rfl⟩⟩

theorem bind {x : BuildM (StateM Session) α} {next : α → BuildM (StateM Session) β}
    {seen : FileSystem → Except Failure α} {after : α → FileSystem → Except Failure β}
    (first : Looks x seen) (second : ∀ a, Looks (next a) (after a)) :
    Looks (x >>= next) fun fs => seen fs >>= fun a => after a fs := by
  refine ⟨fun s => ?_⟩
  obtain ⟨output, ended⟩ := first.ends s
  cases result : seen s.files with
  | error e =>
    rw [result] at ended
    exact ⟨output, Session.run_bind_error ended next⟩
  | ok a =>
    rw [result] at ended
    obtain ⟨later, rest⟩ := (second a).ends { s with output }
    exact ⟨later, (Session.run_bind_ok ended next).trans rest⟩

theorem readFile (p : Path) : Looks (readFile p) fun fs => (fs.read p).mapError (.notRead p) :=
  ⟨fun s => ⟨s.output, rfl⟩⟩

end Looks

namespace FileSystem

variable (fs : FileSystem)

/-- The specification at a path. -/
def spec (path : Path) : Except Failure BuildSpec :=
  (fs.read path).mapError (.notRead path) >>= BuildSpec.ofFile path

def description (path : Path) : Except Failure Description :=
  (fs.read path).mapError (.notRead path) >>= Description.ofFile path

/-- The map that the description at a path makes with a configuration. -/
def map (config : Config) (path : Path) : Except Failure AddressMap := do
  let d ← fs.description path
  (compile config d).mapError (.invalidMap path)

/-- The files that the specification at a path asks for, for targets with these names. -/
def generated (path : Path) (names : List String) : Except Failure (List Artifact) := do
  let loaded ← fs.spec path
  let targets ← loaded.targetsNamed names
  let map ← fs.map loaded.config loaded.regmap
  return targets.map fun t => t.emit map

end FileSystem

namespace Looks

theorem loadSpec (path : Path) : Looks (loadSpec path) fun fs => fs.spec path :=
  (readFile path).bind fun text => settle (BuildSpec.ofFile path text)

theorem loadDescription (path : Path) :
    Looks (loadDescription path) fun fs => fs.description path :=
  (readFile path).bind fun text => settle (Description.ofFile path text)

/-- A note about a result changes nothing about it. -/
theorem noted (result : Except Failure α) (level : LogLevel) (note : α → String) :
    Looks (do
      let a ← RegisterMap.settle result
      RegisterMap.log level (note a)
      return a) fun _ => result := by
  cases result with
  | error e => exact ⟨fun s => ⟨s.output, rfl⟩⟩
  | ok a => exact (log level (note a)).bind fun _ => pure a

theorem compileFile (config : Config) (path : Path) :
    Looks (compileFile config path) fun fs => fs.map config path := by
  refine (loadDescription path).bind fun d => ?_
  have compiled := noted ((compile config d).mapError (.invalidMap path)) .debug
    AddressMap.layoutNote
  cases compileNote? config d with
  | none => exact compiled
  | some note => exact (log .debug note).bind fun _ => compiled

theorem emitAll (map : AddressMap) (targets : List Target) :
    Looks (emitAll map targets) fun _ => .ok (targets.map fun t => t.emit map) := by
  induction targets with
  | nil => exact pure []
  | cons target rest ih =>
    exact (log ..).bind fun _ => ih.bind fun others => pure (target.emit map :: others)

theorem generated (path : Path) (names : List String) :
    Looks (do let loaded ← RegisterMap.loadSpec path; buildArtifacts loaded names)
      fun fs => fs.generated path names := by
  refine (loadSpec path).bind fun loaded => ?_
  refine (settle _).bind fun targets => (compileFile _ _).bind fun map => ?_
  exact (log ..).bind fun _ => emitAll map targets

end Looks

/-- Where a file is written to, with what it will hold. -/
def Artifact.writeTo (dir : Path) (a : Artifact) : Path × String := (dir.join a.path, a.content)

namespace Session

variable {s : Session} {dir : Path} {a : Artifact}

theorem run_makeDirectories (s : Session) (failure : FileError → Failure) (p : Path) :
    s.run (attempt failure (Host.makeDirectories p)) =
      ((s.files.makeDirectories p).2.mapError failure,
        { s with files := (s.files.makeDirectories p).1 }) := rfl

theorem run_writeFile (s : Session) (failure : FileError → Failure) (p : Path) (content : String) :
    s.run (attempt failure (Host.writeFile p content)) = match s.files.write p content with
      | .ok files => (.ok (), { s with files })
      | .error e => (.error (failure e), s) := by
  have ran : s.run (attempt failure (Host.writeFile p content)) =
      let ended := (Host.writeFile p content : StateM Session _) s
      (ended.1.mapError failure, ended.2) := rfl
  rw [ran]
  simp only [Host.writeFile]
  cases s.files.write p content <;> rfl

/-- A file is written once its directory is there and takes it. -/
theorem run_writeArtifact {above : Path} {made written : FileSystem}
    (parent : (dir.join a.path).parent? = some above)
    (created : s.files.makeDirectories above = (made, .ok ()))
    (wrote : made.write (dir.join a.path) a.content = .ok written) :
    ∃ output, s.run (writeArtifact dir a) = (.ok (), { files := written, output }) := by
  have ready : s.run (attempt (.notCreated above) (Host.makeDirectories above)) =
      (.ok (), { s with files := made }) := by
    rw [run_makeDirectories, created]
    rfl
  have put : ({ s with files := made } : Session).run
      (attempt (.notWritten (dir.join a.path)) (Host.writeFile (dir.join a.path) a.content)) =
        (.ok (), { s with files := written }) := by
    rw [run_writeFile, wrote]
  simp only [writeArtifact, parent]
  rw [run_bind_ok ready, run_bind_ok put]
  exact ⟨_, rfl⟩

end Session

/-- A build that leaves all files alone, apart from those that some writes lead to. -/
structure Grows (x : BuildM (StateM Session) α) (writes : List (Path × String)) : Prop where
  grown (s : Session) : FileSystem.Grown writes s.files (s.run x).2.files

theorem Looks.grows {x : BuildM (StateM Session) α} {seen : FileSystem → Except Failure α}
    (looks : Looks x seen) : Grows x [] := by
  refine ⟨fun s => ?_⟩
  obtain ⟨output, ended⟩ := looks.ends s
  rw [ended]
  exact .refl s.files

namespace Grows

variable {writes more : List (Path × String)}

theorem bind {x : BuildM (StateM Session) α} {next : α → BuildM (StateM Session) β}
    (first : Grows x writes) (second : ∀ a, Grows (next a) more) :
    Grows (x >>= next) (writes ++ more) := by
  refine ⟨fun s => ?_⟩
  have grown := first.grown s
  rw [Session.run_bind]
  rcases ended : s.run x with ⟨result, after⟩
  rw [ended] at grown
  cases result with
  | error e => exact grown.trans (.refl after.files)
  | ok a => exact grown.trans ((second a).grown after)

theorem makeDirectories (failure : FileError → Failure) (p : Path) :
    Grows (attempt failure (Host.makeDirectories p)) [] :=
  ⟨fun s => FileSystem.makeDirectories_grown s.files p⟩

theorem writeFile (failure : FileError → Failure) (p : Path) (content : String) :
    Grows (attempt failure (Host.writeFile p content)) [(p, content)] := by
  refine ⟨fun s => ?_⟩
  rw [Session.run_writeFile]
  split
  · rename_i wrote
    exact FileSystem.write_grown wrote
  · exact .refl s.files

/-- Writing a file has two parts, of which only the second touches a file. -/
theorem writeArtifact_eq (dir : Path) (a : Artifact) :
    ∃ ready : BuildM (StateM Session) Unit, Grows ready [] ∧
      RegisterMap.writeArtifact dir a = (do
        ready
        attempt (.notWritten (dir.join a.path)) (Host.writeFile (dir.join a.path) a.content)
        log .info ("Wrote " ++ (dir.join a.path).text ++ " (" ++ a.language.name ++ ")")) := by
  rw [RegisterMap.writeArtifact]
  split
  · exact ⟨_, makeDirectories .., rfl⟩
  · exact ⟨pure (), (Looks.pure ()).grows, rfl⟩

theorem writeArtifact (dir : Path) (a : Artifact) :
    Grows (writeArtifact dir a) [a.writeTo dir] := by
  obtain ⟨ready, prepares, parts⟩ := writeArtifact_eq dir a
  rw [parts]
  exact prepares.bind fun _ => (writeFile ..).bind fun _ => (Looks.log ..).grows

theorem writeAll (dir : Path) (artifacts : List Artifact) :
    Grows (artifacts.forM (RegisterMap.writeArtifact dir))
      (artifacts.map (Artifact.writeTo dir)) := by
  induction artifacts with
  | nil => exact (Looks.pure ()).grows
  | cons a rest ih => exact (writeArtifact dir a).bind fun _ => ih

end Grows

namespace Session

variable {s after : Session} {dir : Path} {a : Artifact} {artifacts : List Artifact}

/-- A file that was written holds what it was to hold. -/
theorem read_of_writeArtifact (ended : s.run (writeArtifact dir a) = (.ok (), after)) :
    after.files.read (dir.join a.path) = .ok a.content := by
  obtain ⟨ready, _, parts⟩ := Grows.writeArtifact_eq dir a
  rw [parts] at ended
  obtain ⟨_, between, _, rest⟩ := run_bind_eq_ok.mp ended
  obtain ⟨_, written, wrote, logged⟩ := run_bind_eq_ok.mp rest
  obtain ⟨output, told⟩ := (Looks.log .info _).ends written
  rw [told] at logged
  rw [run_writeFile] at wrote
  split at wrote
  · rename_i files took
    cases wrote
    cases logged
    exact FileSystem.read_of_write took
  · cases wrote

/-- What is read after files were written is one of those that lead to the same place. -/
theorem read_of_writeAll
    (ended : s.run (artifacts.forM (writeArtifact dir)) = (.ok (), after)) :
    ∀ a ∈ artifacts, ∃ b ∈ artifacts,
      s.files.place (dir.join b.path) = s.files.place (dir.join a.path) ∧
        after.files.read (dir.join a.path) = .ok b.content := by
  induction artifacts generalizing s with
  | nil => exact List.forall_mem_nil _
  | cons first rest ih =>
    obtain ⟨_, between, wrote, others⟩ := run_bind_eq_ok.mp ended
    have grown := (Grows.writeArtifact dir first).grown s
    rw [wrote] at grown
    intro a inside
    rcases List.mem_cons.mp inside with rfl | later
    · -- What was just written stays, unless a later file goes to the same place.
      have own := read_of_writeArtifact wrote
      have changed := (Grows.writeAll dir rest).grown between
      rw [others] at changed
      rcases changed.read own with kept | ⟨w, written, leads, other⟩
      · exact ⟨a, List.mem_cons_self .., rfl, kept⟩
      · obtain ⟨b, member, rfl⟩ := List.mem_map.mp written
        rw [grown.place_eq, grown.place_eq] at leads
        exact ⟨b, List.mem_cons_of_mem _ member, leads, other⟩
    · obtain ⟨b, member, same, known⟩ := ih others a later
      rw [grown.place_eq, grown.place_eq] at same
      exact ⟨b, List.mem_cons_of_mem _ member, same, known⟩

/-- Files with mere names for paths are all written, whichever of them have the same name. -/
theorem run_writeAll (takes : ∀ a ∈ artifacts, s.files.Takes a.path) :
    ∃ after, s.run (artifacts.forM (writeArtifact ⟨""⟩)) = (.ok (), after) := by
  induction artifacts generalizing s with
  | nil => exact ⟨s, rfl⟩
  | cons a rest ih =>
    obtain ⟨first, others⟩ := List.forall_mem_cons.mp takes
    have here := Path.join_nothing a.path
    have wrote := first.write_eq a.content
    rw [← here] at wrote
    obtain ⟨output, ended⟩ := @run_writeArtifact s ⟨""⟩ a ⟨""⟩ s.files _
      (here.symm ▸ first.beside) rfl wrote
    obtain ⟨after, done⟩ := @ih { files := _, output }
      fun b inside => (others b inside).after_write wrote
    exact ⟨after, (run_bind_ok ended _).trans done⟩

end Session

end RegisterMap
