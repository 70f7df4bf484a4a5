import Stencil.Document.Types
import Stencil.Model.System
import Stencil.Sorted

/-!
# The system that documents describe

The documents of one module are put together in the order in which they are
loaded; modules stand in the order of their first documents.
-/

namespace Stencil.Document

open Model (DataType Tags Version)

/-- The annotations that an entry gives; only a mapping gives any. -/
def tagsOf (v : Option Json) : Tags := (v.map Tags.ofJson).getD .empty

/-- A document in the view of its module. -/
structure Reading where
  scope : Scope
  origin : Origin

namespace Reading

/-- The type of a spelling, or an error that points into the document. -/
def type (r : Reading) (spelling : String) : Except Error DataType :=
  match r.scope.resolve spelling with
  | .ok t => .ok t
  | .error (.malformed spelling) => .error (r.origin.flaw (.malformedType spelling) spelling)
  | .error (.unknownContainer name spelling) =>
      .error (r.origin.flaw (.unknownContainer name) spelling)
  | .error (.unknown name) => .error (r.origin.unknownType name r.scope.module)

/-- A parameter with its type. -/
def parameter (r : Reading) (p : Parameter) : Except Error Model.Parameter := do
  return { name := p.name, type := ← r.type p.type, tags := tagsOf p.tags }

/-- A property with its type. -/
def property (r : Reading) (p : Property) : Except Error Model.Property := do
  return {
    name := p.name, type := ← r.type p.type, readonly := p.readonly, constant := p.constant,
    comment := p.comment, tags := tagsOf p.tags }

/-- An operation with its types; that of the result comes first. -/
def operation (r : Reading) (o : Operation) : Except Error Model.Operation := do
  return {
    name := o.name, type := ← r.type o.type, parameters := ← o.parameters.mapM r.parameter,
    constant := o.constant, comment := o.comment, tags := tagsOf o.tags }

/-- A signal with its types. -/
def signal (r : Reading) (s : Signal) : Except Error Model.Signal := do
  return {
    name := s.name, parameters := ← s.parameters.mapM r.parameter, comment := s.comment,
    tags := tagsOf s.tags }

/-- An interface with its types. -/
def interface (r : Reading) (i : Interface) : Except Error Model.Interface := do
  return {
    name := i.name, comment := i.comment, tags := tagsOf i.tags,
    properties := ← i.properties.mapM r.property,
    operations := ← i.operations.mapM r.operation,
    signals := ← i.signals.mapM r.signal }

/-- A field with its type. -/
def field (r : Reading) (f : Field) : Except Error Model.Field := do
  return {
    name := f.name, type := ← r.type f.type, comment := f.comment, tags := tagsOf f.tags }

/-- A struct with its types. -/
def struct (r : Reading) (s : Struct) : Except Error Model.Struct := do
  return {
    name := s.name, comment := s.comment, tags := tagsOf s.tags,
    fields := ← s.fields.mapM r.field }

end Reading

/-- An enum member. -/
def Member.resolve (m : Member) : Model.Member where
  name := m.name
  value := m.value
  comment := m.comment
  tags := tagsOf m.tags

/-- An enum. -/
def Enum.resolve (e : Enum) : Model.Enum where
  name := e.name
  isFlag := e.flag
  comment := e.comment
  members := e.members.map Member.resolve
  tags := tagsOf e.tags

/-- The version that a document declares. -/
def Source.version? (s : Source) : Except Error (Option Version) :=
  match s.document.version with
  | none => .ok none
  | some text =>
      match Version.parse text with
      | .ok v => .ok (some v)
      | .error e => .error (s.origin.flaw (.version e) text)

/-- The one version that the documents of a module declare, if any. -/
def versionOf (name : String) : Option Version → List Source → Except Error (Option Version)
  | found, [] => .ok found
  | found, s :: rest =>
      match s.version?, found with
      | .error e, _ => .error e
      | .ok none, _ => versionOf name found rest
      | .ok (some v), none => versionOf name (some v) rest
      | .ok (some v), some first =>
          if first = v then versionOf name found rest
          else .error (.versionConflict name first v)

/-- The annotations that the documents of a module give it, later ones winning. -/
def moduleTags (docs : List Document) : Tags :=
  docs.foldl (fun t d =>
    match d.tags with
    | some (.object ms) => t.merge ms
    | _ => t) .empty

/-- The declarations of a module, document after document. -/
structure Contents where
  interfaces : List Model.Interface
  structs : List Model.Struct
  enums : List Model.Enum

/-- What one document declares. -/
def contents (scope : Scope) (s : Source) : Except Error Contents := do
  let r : Reading := ⟨scope, s.origin⟩
  let interfaces ← s.document.interfaces.mapM r.interface
  let structs ← s.document.structs.mapM r.struct
  return ⟨interfaces, structs, s.document.enums.map Enum.resolve⟩

/-- The module that its documents describe. -/
def assemble (symbols : Symbols) (name : String) (sources : List Source) :
    Except Error Model.Module := do
  let docs := sources.map (·.document)
  let version ← versionOf name none sources
  let imports := distinct (docs.flatMap (·.imports))
  let parts ← sources.mapM (contents ⟨symbols, name, imports⟩)
  return {
    name
    version := version.getD ⟨1, 0⟩
    imports
    comment := ((docs.map (·.comment)).find? (!·.isEmpty)).getD ""
    interfaces := parts.flatMap (·.interfaces)
    structs := parts.flatMap (·.structs)
    enums := parts.flatMap (·.enums)
    tags := moduleTags docs
    source := sources.head?.map (·.origin.file) }

/-- The names of the modules that documents describe, in order of first appearance. -/
def moduleNames (sources : List Source) : List String :=
  distinct (sources.map (·.document.module))

/-- The system that documents describe. -/
def build (sources : List Source) : Except Error Model.System := do
  let symbols := symbols (sources.map (·.document))
  let modules ← (moduleNames sources).mapM fun name =>
    assemble symbols name (sources.filter (·.document.module = name))
  return ⟨modules⟩

end Stencil.Document
