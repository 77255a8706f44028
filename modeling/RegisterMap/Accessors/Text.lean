import RegisterMap.Accessors
import RegisterMap.Artifact
import RegisterMap.Line

namespace RegisterMap.Accessors

/-- A description inside a docstring: quotes cannot end it, nor can a backslash at its end take
the meaning of what follows. -/
def escape (description : String) : String :=
  String.ofList (description.toList.flatMap fun c =>
    if c = '\\' ∨ c = '"' then ['\\', c] else [c])

/-- The docstring of a property: its description, and what is allowed. -/
def docLine (margin description : String) (access : Access) : Line :=
  if description.isEmpty then margin ++ "\"\"\"(" ++ access.long ++ ")\"\"\""
  else ⟨margin ++ "\"\"\"", escape description, " (" ++ access.long ++ ")\"\"\""⟩

namespace Place

def refusal (shown mode : String) : Line :=
  "        raise PermissionError(\"" ++ shown ++ " is " ++ mode ++ "\")"

/-- The name in the message about a forbidden access. -/
def shown : Place → String
  | word register => register
  | bits register field => register ++ "." ++ field

def readLines : Place → List Line
  | word register => ["        return self._if.read(self." ++ register ++ "_ADDR)"]
  | bits register field =>
    let constant := "self._rmap." ++ register ++ "_" ++ field
    ["        rdata = self._rmap._if.read(self._rmap." ++ register ++ "_ADDR)",
      "        return (rdata >> " ++ constant ++ "_POS) & " ++ constant ++ "_MSK"]

/-- A field is written by reading its register and changing the bits of the field alone. -/
def writeLines : Place → List Line
  | word register => ["        self._if.write(self." ++ register ++ "_ADDR, val)"]
  | bits register field =>
    let constant := "self._rmap." ++ register ++ "_" ++ field
    let address := "self._rmap." ++ register ++ "_ADDR"
    ["        rdata = self._rmap._if.read(" ++ address ++ ")",
      "        rdata = rdata & (~(" ++ constant ++ "_MSK << " ++ constant ++ "_POS))",
      "        rdata = rdata | ((val & " ++ constant ++ "_MSK) << " ++ constant ++ "_POS)",
      "        self._rmap._if.write(" ++ address ++ ", rdata)"]

end Place

namespace Property

def readLines (p : Property) : List Line :=
  if p.access.canRead then p.place.readLines else [Place.refusal p.place.shown "write-only"]

def writeLines (p : Property) : List Line :=
  if p.access.canWrite then p.place.writeLines else [Place.refusal p.place.shown "read-only"]

def lines (p : Property) : List Line :=
  let reading : List Line := ["    @property", "    def " ++ p.name ++ "(self):"]
  let writing : List Line :=
    [.blank, "    @" ++ p.name ++ ".setter", "    def " ++ p.name ++ "(self, val):"]
  reading ++ [docLine "        " p.description p.access] ++ p.readLines ++ writing ++ p.writeLines

end Property

def FieldClass.lines (c : FieldClass) : List Line :=
  let opening : List Line :=
    ["class " ++ c.name ++ ":",
      "    def __init__(self, rmap):",
      "        self._rmap = rmap"]
  opening ++ c.properties.flatMap fun p => .blank :: p.lines

def Constant.line (c : Constant) : Line := "    " ++ c.name ++ " = " ++ c.value.text

def Constants.lines (group : Constants) : List Line :=
  let subject : Line :=
    if group.description.isEmpty then "    # " ++ group.register
    else ⟨"    # " ++ group.register ++ " - ", group.description, ""⟩
  .blank :: subject :: group.constants.map Constant.line

def RegisterProperty.lines (p : RegisterProperty) : List Line :=
  let fields : List Line :=
    [.blank,
      "    @property",
      "    def " ++ p.word.name ++ "_bf(self):",
      "        return " ++ p.fieldClass ++ "(self)"]
  .blank :: p.word.lines ++ fields

/-- The class of the map: constants first, then a property for each register. -/
def mapClass (a : Accessors) : List Line :=
  let opening : List Line :=
    ["class RegMap:",
      "    \"\"\"Register map " ++ a.name ++ "\"\"\"",
      .blank,
      "    BASE_ADDR = " ++ a.base.text]
  let creation : List Line :=
    [.blank, "    def __init__(self, interface):", "        self._if = interface"]
  opening ++ a.constants.flatMap Constants.lines ++ creation ++
    a.registers.flatMap RegisterProperty.lines

def lines (a : Accessors) : List Line :=
  let opening : List Line :=
    ["#!/usr/bin/env python3",
      "# -*- coding: utf-8 -*-",
      .blank,
      "\"\"\" Created with " ++ generatorName,
      .blank,
      "Register map " ++ a.name ++ ".",
      "\"\"\"",
      .blank]
  opening ++ (a.fieldClasses.flatMap fun c => .blank :: c.lines ++ [.blank]) ++
    .blank :: a.mapClass

/-- The accessors of a map as a file. -/
def artifact (path : Path) (m : AddressMap) : Artifact where
  path := path
  language := .python
  content := Line.file (ofMap m).lines

end RegisterMap.Accessors
