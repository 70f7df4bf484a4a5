import Stencil.Files.Tree
import Stencil.Yaml.Record

/-!
# The builtin configuration

A small document beside the program that names its version and the features that
rules may ask for.
-/

namespace Stencil

/-- The version of the program and its features, in order. -/
structure Builtin where
  version : String
  features : List String
  deriving DecidableEq, Repr, Inhabited

/-- Why there is no builtin configuration. -/
inductive BuiltinError where
  | unreadable (path : String)
  | malformed (path : String)
  | missingKey (path key : String)
  deriving DecidableEq, Repr

/-- The text of an error. -/
def BuiltinError.message : BuiltinError → String
  | .unreadable path => "failed to read builtin config '" ++ path ++ "'"
  | .malformed path => "failed to parse builtin config '" ++ path ++ "'"
  | .missingKey path key =>
      "Invalid builtin config '" ++ path ++ "': missing '" ++ key ++ "'"

namespace Builtin

open Yaml (Node Record)

/-- The path of the configuration: the one of the environment, else the one beside the program. -/
def locate (environment : Option String) (directory : String) : String :=
  environment.getD (Files.Path.join directory ".config")

/-- The two entries of a configuration document, as far as they are there. -/
def entries? (n : Node) : Option (Option String × Option (List String)) := do
  let r ← Record.open? ["VERSION", "FEATURES"] n
  let version ← r.optional? "VERSION" none Node.versionText?
  let features ← r.optional? "FEATURES" none (Node.orNothing? (Node.list? Node.text?))
  return (version, features)

/-- Reads a configuration document. -/
def parse (text path : String) : Except BuiltinError Builtin :=
  match Node.ofText text with
  | .error _ => .error (.malformed path)
  | .ok n =>
      match entries? n with
      | none => .error (.malformed path)
      | some (none, _) => .error (.missingKey path "VERSION")
      | some (some _, none) => .error (.missingKey path "FEATURES")
      | some (some version, some features) => .ok ⟨version, sortTexts features⟩

/-- Reads the configuration file at a path. -/
def load (t : Files.Tree) (path : String) : Except BuiltinError Builtin :=
  match t.readText path with
  | .ok text => parse text path
  | .error _ => .error (.unreadable path)

/-- Whether a feature is available. -/
def hasFeature (b : Builtin) (feature : String) : Bool := b.features.contains feature

end Builtin

end Stencil
