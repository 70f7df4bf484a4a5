import Stencil.Yaml.Record
import Stencil.Text.Blank

/-!
# Model documents

The declarations of one document as they are written: types are still texts.
A mapping with a field that is not listed here is no declaration.
-/

namespace Stencil.Document

open Yaml (Node Record)

/-- A parameter as written. -/
structure Parameter where
  name : String
  type : String
  tags : Option Json
  deriving DecidableEq, Inhabited

/-- A property as written. -/
structure Property where
  name : String
  type : String
  readonly : Bool
  constant : Bool
  comment : String
  tags : Option Json
  deriving DecidableEq, Inhabited

/-- An operation as written. -/
structure Operation where
  name : String
  type : String
  parameters : List Parameter
  constant : Bool
  comment : String
  tags : Option Json
  deriving DecidableEq, Inhabited

/-- A signal as written. -/
structure Signal where
  name : String
  parameters : List Parameter
  comment : String
  tags : Option Json
  deriving DecidableEq, Inhabited

/-- An interface as written. -/
structure Interface where
  name : String
  comment : String
  tags : Option Json
  properties : List Property
  operations : List Operation
  signals : List Signal
  deriving DecidableEq, Inhabited

/-- A field of a struct as written. -/
structure Field where
  name : String
  type : String
  comment : String
  tags : Option Json
  deriving DecidableEq, Inhabited

/-- A struct as written. -/
structure Struct where
  name : String
  comment : String
  tags : Option Json
  fields : List Field
  deriving DecidableEq, Inhabited

/-- A member of an enum as written. -/
structure Member where
  name : String
  value : Option Int := none
  comment : String := ""
  tags : Option Json := none
  deriving DecidableEq, Inhabited

/-- An enum as written. -/
structure Enum where
  name : String
  flag : Bool
  comment : String
  tags : Option Json
  members : List Member
  deriving DecidableEq, Inhabited

end Document

/-- A document as written. -/
structure Document where
  module : String
  version : Option String
  imports : List String
  comment : String
  tags : Option Json
  interfaces : List Document.Interface
  structs : List Document.Struct
  enums : List Document.Enum
  deriving DecidableEq, Inhabited

namespace Document

open Yaml (Node Record)

-- powers of numbers are those of the core library
attribute [local instance (2000)] instPowNat

/-- The annotations of a declaration. -/
def tags? (r : Record) : Option (Option Json) :=
  r.optional? "tags" none (Node.orNothing? (Node.json? false))

/-- The comment of a declaration. -/
def comment? (r : Record) : Option String := r.optional? "comment" "" Node.text?

/-- Reads a parameter. -/
def Parameter.ofNode? (n : Node) : Option Parameter := do
  let r ← Record.closed? ["name", "type", "tags"] n
  return {
    name := ← r.required? "name" Node.text?
    type := ← r.required? "type" Node.text?
    tags := ← tags? r }

/-- The parameters of an operation or signal. -/
def parameters? (r : Record) : Option (List Parameter) :=
  r.optional? "parameters" [] (Node.list? Parameter.ofNode?)

/-- Reads a property. -/
def Property.ofNode? (n : Node) : Option Property := do
  let r ← Record.closed? ["name", "type", "readonly", "const", "comment", "tags"] n
  return {
    name := ← r.required? "name" Node.text?
    type := ← r.required? "type" Node.text?
    readonly := ← r.optional? "readonly" false Node.bool?
    constant := ← r.optional? "const" false Node.bool?
    comment := ← comment? r
    tags := ← tags? r }

/-- Reads an operation; one without a type gives nothing back. -/
def Operation.ofNode? (n : Node) : Option Operation := do
  let r ← Record.closed? ["name", "type", "parameters", "const", "comment", "tags"] n
  return {
    name := ← r.required? "name" Node.text?
    type := ← r.optional? "type" "void" Node.text?
    parameters := ← parameters? r
    constant := ← r.optional? "const" false Node.bool?
    comment := ← comment? r
    tags := ← tags? r }

/-- Reads a signal. -/
def Signal.ofNode? (n : Node) : Option Signal := do
  let r ← Record.closed? ["name", "parameters", "comment", "tags"] n
  return {
    name := ← r.required? "name" Node.text?
    parameters := ← parameters? r
    comment := ← comment? r
    tags := ← tags? r }

/-- Reads an interface. -/
def Interface.ofNode? (n : Node) : Option Interface := do
  let r ← Record.closed? ["name", "comment", "tags", "properties", "operations", "signals"] n
  return {
    name := ← r.required? "name" Node.text?
    comment := ← comment? r
    tags := ← tags? r
    properties := ← r.optional? "properties" [] (Node.list? Property.ofNode?)
    operations := ← r.optional? "operations" [] (Node.list? Operation.ofNode?)
    signals := ← r.optional? "signals" [] (Node.list? Signal.ofNode?) }

/-- Reads a field. -/
def Field.ofNode? (n : Node) : Option Field := do
  let r ← Record.closed? ["name", "type", "comment", "tags"] n
  return {
    name := ← r.required? "name" Node.text?
    type := ← r.required? "type" Node.text?
    comment := ← comment? r
    tags := ← tags? r }

/-- Reads a struct. -/
def Struct.ofNode? (n : Node) : Option Struct := do
  let r ← Record.closed? ["name", "comment", "tags", "fields"] n
  return {
    name := ← r.required? "name" Node.text?
    comment := ← comment? r
    tags := ← tags? r
    fields := ← r.optional? "fields" [] (Node.list? Field.ofNode?) }

/-- The fields of an enum member that is written as a mapping. -/
def memberFields : List String := ["name", "value", "comment", "tags"]

mutual
/-- Whether a node holds plain data: no local tags and no numbers beyond 64 bits. -/
def isPlainData : Node → Bool
  | .scalar tag style text =>
      match Node.meaning? tag style text with
      | none | some (.wide _) => false
      | some _ => true
  | .sequence tag items => !Node.isLocalTag tag && arePlainData items
  | .mapping tag entries => !Node.isLocalTag tag && arePlainEntries entries
  | .unreadable => false

/-- Whether all nodes of a list hold plain data. -/
def arePlainData : List Node → Bool
  | [] => true
  | n :: rest => isPlainData n && arePlainData rest

/-- Whether all entries of a mapping hold plain data. -/
def arePlainEntries : List (Node × Node) → Bool
  | [] => true
  | e :: rest => isPlainEntry e && arePlainEntries rest

/-- Whether an entry of a mapping holds plain data. -/
def isPlainEntry : Node × Node → Bool
  | (k, v) => isPlainData k && isPlainData v
end

/-- What a scalar means. -/
def scalarMeaning? : Node → Option Yaml.Meaning
  | .scalar tag style text => Node.meaning? tag style text
  | _ => none

/-- The text that a scalar means; a number or truth value is no text. -/
def meantText? (n : Node) : Option String :=
  match scalarMeaning? n with
  | some (.text s) => some s
  | _ => none

/-- The number of an enum member: one of 64 bits with a sign, or none. -/
def memberValue? (n : Node) : Option (Option Int) :=
  match scalarMeaning? n with
  | some .null => some none
  | some (.int i) => if i < 2 ^ (63 : Nat) then some (some i) else none
  | _ => none

/-- The annotations of an enum member. -/
def memberTags? (n : Node) : Option (Option Json) :=
  match scalarMeaning? n with
  | some .null => some none
  | _ => (n.json? true).map some

/-- The field that a key of an enum member names, by its name or its position. -/
def memberKey? (n : Node) : Option (Option String) :=
  match scalarMeaning? n with
  | some (.text s) => some (memberFields.find? (· = s))
  | some (.int i) => if i < 0 then none else some memberFields[i.toNat]?
  | _ => none

/-- The fields of an enum member; others are skipped. -/
def memberRecord? : List (Node × Node) → Record → Option Record
  | [], r => some r
  | (k, v) :: rest, r =>
      match memberKey? k with
      | none => none
      | some none => memberRecord? rest r
      | some (some name) => (r.insert? name v).bind (memberRecord? rest)

/-- Reads an enum member: a bare name or a mapping. -/
def Member.ofNode? (n : Node) : Option Member :=
  if !isPlainData n then none
  else
    match meantText? n, n with
    | some name, _ => some { name }
    | none, .mapping _ entries => do
        let r ← memberRecord? entries []
        return {
          name := ← r.required? "name" meantText?
          value := ← r.optional? "value" none memberValue?
          comment := ← r.optional? "comment" "" meantText?
          tags := ← r.optional? "tags" none memberTags? }
    | _, _ => none

/-- Reads an enum. -/
def Enum.ofNode? (n : Node) : Option Enum := do
  let r ← Record.closed? ["name", "flag", "comment", "tags", "members"] n
  return {
    name := ← r.required? "name" Node.text?
    flag := ← r.optional? "flag" false Node.bool?
    comment := ← comment? r
    tags := ← tags? r
    members := ← r.required? "members" (Node.list? Member.ofNode?) }

/-- Reads a document. -/
def ofNode? (n : Node) : Option Document := do
  let r ← Record.closed?
    ["module", "version", "imports", "comment", "tags", "interfaces", "structs", "enums"] n
  return {
    module := ← r.required? "module" Node.text?
    version := ← r.optional? "version" none Node.versionText?
    imports := ← r.optional? "imports" [] (Node.list? Node.text?)
    comment := ← comment? r
    tags := ← tags? r
    interfaces := ← r.optional? "interfaces" [] (Node.list? Interface.ofNode?)
    structs := ← r.optional? "structs" [] (Node.list? Struct.ofNode?)
    enums := ← r.optional? "enums" [] (Node.list? Enum.ofNode?) }

/-- Reads only the name of the module that a document describes. -/
def moduleName? (n : Node) : Option String := do
  let r ← Record.open? ["module"] n
  r.required? "module" Node.text?

/-- The document that a text holds. -/
def ofText? (text : String) : Option Document :=
  match Node.ofText text with
  | .ok n => ofNode? n
  | .error _ => none

/-- The name of the module that a text describes. -/
def moduleNameOfText? (text : String) : Option String :=
  match Node.ofText text with
  | .ok n => moduleName? n
  | .error _ => none

end Document

end Stencil
