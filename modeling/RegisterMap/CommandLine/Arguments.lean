import RegisterMap.Path

namespace RegisterMap.CommandLine

/-- What the command line asks for. -/
inductive Command where
  | build (spec : Path) (targets : List String) (out : Option Path) (check : Bool)
  | validate (file spec : Option Path)
  deriving DecidableEq, Repr

/-- What arguments come to. -/
inductive Request where
  | run (verbose : Bool) (command : Command)
  | help
  | version
  | refused
  deriving DecidableEq, Repr

/-- Where in the arguments a command is being told. After `help` only names of commands follow. -/
inductive Level where
  | top
  | regmap
  | build
  | validate
  | helpTop
  | helpRegmap
  | helpLeaf
  deriving DecidableEq, Repr

inductive Flag where
  | verbose
  | help
  | version
  | check
  deriving DecidableEq, Repr

/-- An option that takes a value. -/
inductive Setting where
  | spec
  | target
  | out
  deriving DecidableEq, Repr

/-- What a name with dashes before it may stand for. -/
inductive Switch where
  | flag (f : Flag)
  | setting (s : Setting)
  deriving DecidableEq, Repr

namespace Switch

/-- Options by their long names. -/
def long? : Level → String → Option Switch
  | _, "verbose" => some (.flag .verbose)
  | _, "help" => some (.flag .help)
  | .top, "version" => some (.flag .version)
  | .build, "check" => some (.flag .check)
  | .build, "spec" => some (.setting .spec)
  | .build, "target" => some (.setting .target)
  | .build, "out" => some (.setting .out)
  | .validate, "spec" => some (.setting .spec)
  | _, _ => none

/-- Options by their letters. -/
def short? : Level → Char → Option Switch
  | _, 'v' => some (.flag .verbose)
  | _, 'h' => some (.flag .help)
  | .top, 'V' => some (.flag .version)
  | .build, 's' => some (.setting .spec)
  | .build, 't' => some (.setting .target)
  | .build, 'o' => some (.setting .out)
  | .validate, 's' => some (.setting .spec)
  | _, _ => none

end Switch

/-- What the arguments have told so far. -/
structure Told where
  level : Level := .top
  verbose : Bool := false
  /-- The flag has been given since the last name of a command. -/
  verboseHere : Bool := false
  /-- After two dashes no argument is an option any more. -/
  plainOnly : Bool := false
  /-- An option whose value comes next. -/
  awaiting : Option Setting := none
  spec : Option Path := none
  targets : List String := []
  out : Option Path := none
  check : Bool := false
  file : Option Path := none
  deriving Repr

/-- Reading arguments ends early in an answer of its own. -/
abbrev Reading := Except Request

/-- A path may not be empty. -/
def pathOf (text : String) : Reading Path := if text.isEmpty then .error .refused else .ok ⟨text⟩

/-- A value that may be given once. -/
def once {α : Type} (earlier : Option α) (a : α) : Reading (Option α) :=
  if earlier.isSome then .error .refused else .ok (some a)

/-- Each flag may be given once, the one for debug messages once after each name of a command. -/
def Told.give (told : Told) : Flag → Reading Told
  | .verbose =>
    if told.verboseHere then .error .refused
    else .ok { told with verbose := true, verboseHere := true }
  | .check => if told.check then .error .refused else .ok { told with check := true }
  | .help => .error .help
  | .version => .error .version

/-- Targets may be given any number of times, other values once. -/
def Told.set (told : Told) (value : String) : Setting → Reading Told
  | .spec => do
    let path ← pathOf value
    let spec ← once told.spec path
    return { told with spec, awaiting := none }
  | .out => do
    let path ← pathOf value
    let out ← once told.out path
    return { told with out, awaiting := none }
  | .target => .ok { told with targets := told.targets ++ [value], awaiting := none }

/-- A long option, perhaps with a value behind an equals sign. -/
def Told.readLong (told : Told) (body : List Char) : Reading Told :=
  let name := body.takeWhile (· ≠ '=')
  let value? := match body.dropWhile (· ≠ '=') with
    | _ :: value => some (String.ofList value)
    | [] => none
  match Switch.long? told.level (String.ofList name), value? with
  | some (.flag f), none => told.give f
  | some (.setting s), none => .ok { told with awaiting := some s }
  | some (.setting s), some value => told.set value s
  | _, _ => .error .refused

/-- Letters after one dash. What follows the letter of a value is the value. -/
def Told.readShort (told : Told) : List Char → Reading Told
  | [] => .ok told
  | c :: rest =>
    match Switch.short? told.level c with
    | some (.flag f) => do
      let told ← told.give f
      told.readShort rest
    | some (.setting s) =>
      match rest with
      | [] => .ok { told with awaiting := some s }
      | '=' :: value => told.set (String.ofList value) s
      | value => told.set (String.ofList value) s
    | none => .error .refused

/-- An argument that is no option: the name of a command, or the file to validate. -/
def Told.readPlain (told : Told) (arg : String) : Reading Told :=
  let enter (level : Level) : Reading Told :=
    if told.plainOnly then .error .refused else .ok { told with level, verboseHere := false }
  match told.level, arg with
  | .top, "regmap" => enter .regmap
  | .top, "help" => enter .helpTop
  | .regmap, "build" => enter .build
  | .regmap, "validate" => enter .validate
  | .regmap, "help" => enter .helpRegmap
  | .validate, _ => do
    let path ← pathOf arg
    let file ← once told.file path
    return { told with file }
  | .helpTop, "regmap" => enter .helpRegmap
  | .helpTop, "help" => enter .helpLeaf
  | .helpRegmap, "build" => enter .helpLeaf
  | .helpRegmap, "validate" => enter .helpLeaf
  | .helpRegmap, "help" => enter .helpLeaf
  | _, _ => .error .refused

/-- Whether only names of commands follow. -/
def Level.isHelp : Level → Bool
  | .helpTop | .helpRegmap | .helpLeaf => true
  | _ => false

/-- Whether an argument begins like an option. A single dash is none. -/
def beginsOption (arg : String) : Bool :=
  match arg.toList with
  | '-' :: _ :: _ => true
  | _ => false

/-- Reads one argument. -/
def Told.read (told : Told) (arg : String) : Reading Told :=
  match told.awaiting with
  | some s => if beginsOption arg then .error .refused else told.set arg s
  | none =>
    if told.plainOnly || told.level.isHelp then told.readPlain arg
    else match arg.toList with
      | ['-', '-'] => .ok { told with plainOnly := true }
      | '-' :: '-' :: body => told.readLong body
      | '-' :: c :: body => told.readShort (c :: body)
      | _ => told.readPlain arg

/-- The specification that is built if none is given. -/
def defaultSpec : Path := ⟨"regbuild.toml"⟩

/-- What has been told when the arguments end. Something to validate has to be named. -/
def Told.request (told : Told) : Request :=
  if told.awaiting.isSome then .refused
  else match told.level with
    | .build =>
      .run told.verbose
        (.build (told.spec.getD defaultSpec) told.targets told.out told.check)
    | .validate =>
      if told.file.isNone && told.spec.isNone then .refused
      else .run told.verbose (.validate told.file told.spec)
    | .helpTop | .helpRegmap | .helpLeaf => .help
    | .top | .regmap => .refused

/-- Reads all arguments. The first of them that is no part of a command decides. -/
def Request.ofArguments (args : List String) : Request :=
  match args.foldlM Told.read {} with
  | .ok told => told.request
  | .error answer => answer

end RegisterMap.CommandLine
