import Stencil.Generate.Session

/-!
# The self check

A small model and template are written to a directory and generated from.  The
two files that come out have a known text.
-/

namespace Stencil.Generate.SelfCheck

open Files Report

/-- The model: one interface, one enum and one struct. -/
def model : String :=
  String.intercalate "\n" [
    "module: org.selftest",
    "version: \"1.0\"",
    "interfaces:",
    "  - name: Echo",
    "    properties:",
    "      - \x7b name: stringProperty, type: string \x7d",
    "      - \x7b name: boolProperty, type: bool \x7d",
    "      - \x7b name: enumProperty, type: TestEnum \x7d",
    "      - \x7b name: structProperty, type: TestStruct \x7d",
    "    operations:",
    "      - name: echo",
    "        type: string",
    "        parameters: [\x7b name: msg, type: string \x7d]",
    "enums:",
    "  - name: TestEnum",
    "    members: [value1, value2]",
    "structs:",
    "  - name: TestStruct",
    "    fields:",
    "      - \x7b name: testInt, type: int \x7d",
    "      - \x7b name: testString, type: string \x7d",
    ""]

/-- The rules: one file for the module and one for the interface. -/
def rules : String :=
  String.intercalate "\n" [
    "test:",
    "  module:",
    "    documents:",
    "      - \"\x7b\x7bsrcBase|lower\x7d\x7d\": \"module.tpl\"",
    "  interface:",
    "    documents:",
    "      - \"tst_\x7b\x7binterface|lower\x7d\x7d\": \"interface.tpl\"",
    ""]

/-- The files to start from. -/
def files : List (String × String) :=
  [("test.yaml", model), ("selfcheck.yaml", rules),
    ("selfcheck/module.tpl", "\x7b\x7bmodule.name\x7d\x7d\n"),
    ("selfcheck/interface.tpl", "\x7b\x7binterface.name\x7d\x7d\n")]

/-- Creates a directory with those above it. -/
def createDirectory (t : Tree) (path : String) : Except Abort Tree :=
  (t.makeDirectories (path.length + 1) path).mapError fun fault => ⟨.file fault, []⟩

/-- Writes one of the files to start from. -/
def install (directory : String) (t : Tree) (file : String × String) : Except Abort Tree := do
  let path := Path.join directory file.1
  let t ←
    match Path.parent? path with
    | some above => createDirectory t above
    | none => pure t
  (t.store path (.text file.2)).mapError fun fault => ⟨.file fault, ["failed to write " ++ path]⟩

/-- Writes the files to start from.  Those before the first failure stay. -/
def installAll (directory : String) : List (String × String) → Tree → Option Abort × Tree
  | [], t => (none, t)
  | file :: rest, t =>
      match install directory t file with
      | .ok t => installAll directory rest t
      | .error a => (some a, t)

/-- The request of the check. -/
def request (directory : String) : Request where
  sources := [Path.join directory "test.yaml"]
  destination := Path.join directory "out"
  template := "selfcheck"
  searchPath := [directory]
  module := some "org.selftest"
  force := true

/-- Whether the two files have the text that they should have. -/
def check (t : Tree) (destination : String) : Except Abort Unit := do
  let read (name : String) : Except Abort String :=
    (t.readText (Path.join destination name)).mapError fun fault => ⟨.file fault, []⟩
  let module ← read "test"
  let interface ← read "tst_echo"
  if module = "org.selftest\n" ∧ interface = "Echo\n" then return ()
  else throw ⟨.unexpectedOutput module interface, []⟩

/-- Runs the check in a directory. -/
def run (s : Session) (t : Tree) (directory : String) : Result :=
  match installAll directory files t with
  | (some a, t) => ⟨.error a, t, []⟩
  | (none, t) =>
      let request := request directory
      match createDirectory t request.destination with
      | .error a => ⟨.error a, t, []⟩
      | .ok t =>
          let r := s.generate t request
          { r with record := r.record.bind fun record =>
              (check r.files request.destination).map fun _ => record }

end Stencil.Generate.SelfCheck
