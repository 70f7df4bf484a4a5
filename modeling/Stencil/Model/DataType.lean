/-!
# Types of the interface description

Primitive types, references to declared types, and the containers `list`,
`model` and `map` of another type.
-/

namespace Stencil.Model

/-- A reference to a type declared in a module. -/
structure SymbolRef where
  module : String
  name : String
  deriving DecidableEq, Repr, Inhabited

/-- The name of a declared type after the name of its module. -/
def SymbolRef.qualifiedName (r : SymbolRef) : String := r.module ++ "." ++ r.name

/-- The types that need no declaration. -/
inductive Primitive where
  | int
  | bool
  | string
  | real
  | var
  deriving DecidableEq, Repr, Inhabited

namespace Primitive

/-- All primitive types. -/
def all : List Primitive := [.int, .bool, .string, .real, .var]

/-- The name of a primitive type. -/
def name : Primitive → String
  | .int => "int"
  | .bool => "bool"
  | .string => "string"
  | .real => "real"
  | .var => "var"

/-- The primitive type of a name. -/
def ofName? (s : String) : Option Primitive := all.find? (·.name = s)

theorem ofName?_name (p : Primitive) : ofName? p.name = some p := by
  cases p <;> decide

end Primitive

/-- A type. -/
inductive DataType where
  | void
  | primitive (p : Primitive)
  | enum (r : SymbolRef)
  | flag (r : SymbolRef)
  | struct (r : SymbolRef)
  | interface (r : SymbolRef)
  | list (item : DataType)
  | model (item : DataType)
  | map (item : DataType)
  deriving DecidableEq, Repr, Inhabited

namespace DataType

/-- The name of a type, without what its items are. -/
def name : DataType → String
  | .void => "void"
  | .primitive p => p.name
  | .enum r | .flag r | .struct r | .interface r => r.name
  | .list _ => "list"
  | .model _ => "model"
  | .map _ => "map"

/-- The word for the kind of a type. -/
def kind : DataType → String
  | .void => "void"
  | .primitive p => p.name
  | .enum _ => "enum"
  | .flag _ => "flag"
  | .struct _ => "struct"
  | .interface _ => "interface"
  | .list _ => "list"
  | .model _ => "model"
  | .map _ => "map"

/-- The type of the items of a container. -/
def item? : DataType → Option DataType
  | .list t | .model t | .map t => some t
  | _ => none

/-- The declaration that a type refers to. -/
def reference? : DataType → Option SymbolRef
  | .enum r | .flag r | .struct r | .interface r => some r
  | _ => none

/-- The name of a type with its items in angle brackets. -/
def text : DataType → String
  | .list t => "list<" ++ text t ++ ">"
  | .model t => "model<" ++ text t ++ ">"
  | .map t => "map<" ++ text t ++ ">"
  | t => t.name

/-- Whether the type is the given primitive one. -/
def isPrimitive (p : Primitive) (t : DataType) : Bool := t = .primitive p

/-- The predicates on types, in the order in which they are listed. -/
def predicates : List (String × (DataType → Bool)) :=
  [("void", fun t => t = .void),
    ("primitive", fun t => match t with | .primitive _ => true | _ => false),
    ("complex", fun t => match t with | .primitive _ | .void => false | _ => true),
    ("int", isPrimitive .int),
    ("bool", isPrimitive .bool),
    ("string", isPrimitive .string),
    ("real", isPrimitive .real),
    ("var", isPrimitive .var),
    ("enum", fun t => match t with | .enum _ => true | _ => false),
    ("flag", fun t => match t with | .flag _ => true | _ => false),
    ("struct", fun t => match t with | .struct _ => true | _ => false),
    ("interface", fun t => match t with | .interface _ => true | _ => false),
    ("list", fun t => match t with | .list _ => true | _ => false),
    ("model", fun t => match t with | .model _ => true | _ => false),
    ("map", fun t => match t with | .map _ => true | _ => false)]

/-- Whether a predicate holds, by its name. -/
def satisfies? (predicate : String) (t : DataType) : Option Bool :=
  (predicates.lookup predicate).map (· t)

/-- The type a number of containers further in. -/
def inner? : Nat → DataType → Option DataType
  | 0, t => some t
  | n + 1, t => t.item?.bind (inner? n)

end DataType

end Stencil.Model
