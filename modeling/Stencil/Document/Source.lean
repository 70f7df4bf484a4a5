import Stencil.Document.Schema
import Stencil.Model.Version

/-!
# Sources of documents

A document together with its text, so that errors can point into it.
-/

namespace Stencil.Document

/-- A piece of a text, in bytes. -/
structure Span where
  offset : Nat
  length : Nat
  deriving DecidableEq, Repr

/-- A text with the name of its file. -/
structure Origin where
  file : String
  text : String
  deriving DecidableEq, Inhabited

/-- The first place where a name stands in the text; the empty name stands nowhere. -/
def Origin.locate? (o : Origin) (name : String) : Option Span :=
  if name.isEmpty then none
  else (Text.find? name o.text).map fun offset => ⟨offset, name.utf8ByteSize⟩

/-- A document that was read. -/
structure Source where
  origin : Origin
  document : Document
  deriving DecidableEq, Inhabited

/-- What is wrong with a document that can be read. -/
inductive Flaw where
  | malformedType (spelling : String)
  | unknownContainer (name : String)
  | version (e : Model.VersionError)
  deriving DecidableEq

/-- The text of a flaw. -/
def Flaw.message : Flaw → String
  | .malformedType spelling => "invalid type '" ++ spelling ++ "'"
  | .unknownContainer name => "unknown container type '" ++ name ++ "'"
  | .version e => e.message

/-- Why documents give no model. -/
inductive Error where
  | unreadable (path : String)
  | malformed
  | invalid (file : String) (span : Option Span) (flaw : Flaw)
  | unknownType (file : String) (span : Option Span) (name module : String)
  | versionConflict (name : String) (first second : Model.Version)
  | annotations (path : String)
  deriving DecidableEq

/-- The text of an error. -/
def Error.message : Error → String
  | .unreadable path => "failed to read '" ++ path ++ "'"
  | .malformed => "failed to parse model document"
  | .invalid _ _ flaw => flaw.message
  | .unknownType _ _ name module =>
      "unknown type '" ++ name ++ "' in module '" ++ module ++ "'"
  | .versionConflict name first second =>
      "module '" ++ name ++ "' is declared with conflicting versions " ++ first.text ++ " and "
        ++ second.text
  | .annotations path => "failed to read annotations '" ++ path ++ "'"

/-- A flaw at the place where a text stands first. -/
def Origin.flaw (o : Origin) (flaw : Flaw) (place : String) : Error :=
  .invalid o.file (o.locate? place) flaw

/-- A type name that stands for no declaration. -/
def Origin.unknownType (o : Origin) (name module : String) : Error :=
  .unknownType o.file (o.locate? name) name module

end Stencil.Document
