import RegisterMap.Document.Schema
import RegisterMap.Target

namespace RegisterMap

/-- What may be set of a target besides its generator. -/
inductive TargetKey where
  | path
  | lead
  | title
  | conventions
  | images
  deriving DecidableEq

/-- A name of null is the same as none. -/
def decodeLead : Decoder (Option String)
  | _, .null => .ok none
  | format, node => (decodeText format node).map some

/-- The settings of one generator, by its keys. All of them can be left out. -/
def targetSchema (keys : List TargetKey) (path : String) : Schema TargetKey where
  title := "internally tagged enum Target"
  keys := keys
  name
    | .path => "path"
    | .lead => "prefix"
    | .title => "title"
    | .conventions => "print_conventions"
    | .images => "print_images"
  spellings
    | .path => ["path"]
    | .lead => ["prefix"]
    | .title => ["title"]
    | .conventions => ["print_conventions"]
    | .images => ["print_images"]
  Value
    | .path | .title => String
    | .lead => Option String
    | .conventions | .images => Bool
  fallback
    | .path => some path
    | .lead => some (none : Option String)
    | .title => some ({} : Manual.Options).title
    | .conventions => some ({} : Manual.Options).conventions
    | .images => some ({} : Manual.Options).images
  decode
    | .path => decodeTextAs "path string"
    | .lead => decodeLead
    | .title => decodeText
    | .conventions | .images => decodeBool

/-- What each generator can be told, and the path of its file where none is given. -/
def Generator.schema : Generator → Schema TargetKey
  | header => targetSchema [.path, .lead] "regs.h"
  | bindings => targetSchema [.path] "regs.rs"
  | accessors => targetSchema [.path] "regs.py"
  | dump => targetSchema [.path] "regs.json"
  | manual => targetSchema [.path, .title, .conventions, .images] "regs.md"

/-- The target of a generator with its settings. -/
def Generator.target : (g : Generator) → g.schema.Filled → Except Problem Target
  | .header, settings => do
    let path ← header.schema.get settings .path
    let lead ← header.schema.get settings .lead
    return .header ⟨path⟩ lead
  | .bindings, settings => do
    let path ← bindings.schema.get settings .path
    return .bindings ⟨path⟩
  | .accessors, settings => do
    let path ← accessors.schema.get settings .path
    return .accessors ⟨path⟩
  | .dump, settings => do
    let path ← dump.schema.get settings .path
    return .dump ⟨path⟩
  | .manual, settings => do
    let path ← manual.schema.get settings .path
    let title ← manual.schema.get settings .title
    let conventions ← manual.schema.get settings .conventions
    let images ← manual.schema.get settings .images
    return .manual ⟨path⟩ { title, conventions, images }

def generatorKey : String := "generator"

def decodeGenerator : Decoder Generator
  | _, .text name => variantNamed Generator.names name
  | _, node => node.mismatch "variant identifier"

/-- A list of settings may not be longer than what its generator can be told. -/
def checkSettings (expected : Nat) (surplus : List Node) : Except Problem Unit :=
  if surplus.isEmpty then .ok ()
  else
    let elements := if expected = 1 then " element" else " elements"
    .error (.wrongLength (expected + surplus.length) (decimal expected ++ elements ++ " in sequence"))

/-- A target: its generator first, wherever it stands, then the settings that it knows. Others are
passed over. A target may also be written as a list that begins with the generator. -/
def decodeTarget : Decoder Target
  | format, .record entries _ =>
    match entries.lookup generatorKey with
    | none => .error (.missing generatorKey)
    | some node => do
      let g ← decodeGenerator format node
      let s := g.schema
      let settings ← s.keyed format s.nothing (entries.filter fun e => (s.key? e.1).isSome)
      g.target settings
  | _, .list [] _ => .error (.missing generatorKey)
  | format, .list (first :: items) _ => do
    let g ← decodeGenerator format first
    let s := g.schema
    let (settings, surplus) ← s.positional format true s.nothing 0 s.keys items
    checkSettings s.keys.length surplus
    g.target settings
  | _, .date _ => .error (.missing generatorKey)
  | _, node => node.mismatch "internally tagged enum Target"

end RegisterMap
