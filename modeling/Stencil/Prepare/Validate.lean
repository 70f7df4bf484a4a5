import Stencil.Model.Walk
import Stencil.Report.Diagnostic
import Stencil.Report.Failure
import Stencil.Spelling.Annotation

/-!
# Checks before anything is written

Interfaces and maps are no types of properties, arguments, results or fields.
Lints look at the whole model and report what they find.
-/

namespace Stencil.Prepare

open Model
open Report (Diagnostic Failure)

/-- The types of a module that have to be supported, with what they are types of, in the order in
which they are declared; the arguments of an operation come before its result. -/
def usedTypes (m : Module) : List (String × DataType) :=
  m.interfaces.flatMap (fun i =>
    i.properties.map (fun p => ("Properties", p.type))
      ++ i.operations.flatMap (fun o =>
          o.parameters.map (fun p => ("Arguments", p.type)) ++ [("Return values", o.type)])
      ++ i.signals.flatMap (fun s => s.parameters.map fun p => ("Arguments", p.type)))
    ++ m.structs.flatMap fun s => s.fields.map fun f => ("Fields", f.type)

/-- The word for a type that is not supported. -/
def unsupported? : DataType → Option String
  | .interface _ => some "interface"
  | .map _ => some "map"
  | _ => none

/-- Fails with the first type that is not supported. -/
def checkSupportedTypes (source : String) (s : System) : Except Failure Unit :=
  match (s.modules.flatMap usedTypes).findSome? fun (kind, t) =>
      (unsupported? t).map (kind, ·) with
  | some (kind, type) => .error (.unsupportedType source kind type)
  | none => .ok ()

/-- A check of a whole model. -/
structure Lint where
  name : String
  check : System → List Diagnostic

/-- An annotation that is going to be removed from one kind of node. -/
structure Deprecation where
  kind : String
  annotation : String
  since : String
  deriving DecidableEq, Repr

/-- The name of the lint for annotations that are going to be removed. -/
def deprecationLintName : String := "deprecated-annotation"

/-- The warning about an annotation of a node. -/
def deprecationWarning (node : String) (d : Deprecation) : Diagnostic :=
  ⟨.warning, deprecationLintName,
    d.annotation ++ " is deprecated and will be removed in future Qt versions", some node⟩

/-- Whether a deprecated annotation is set on a node. -/
def Deprecation.appliesTo (d : Deprecation) (n : Node) : Bool :=
  d.kind = n.kind && (n.tags.lookup? d.annotation).any Json.isSet

/-- Warns about annotations that are going to be removed, node by node. -/
def deprecationLint (ds : List Deprecation) : Lint where
  name := deprecationLintName
  check s := s.walk.flatMap fun (name, node) =>
    (ds.filter (·.appliesTo node)).map (deprecationWarning name)

end Stencil.Prepare
