import Stencil.Model.Node

/-!
# Typed symbols

A property, operation, parameter or field as a name with a type; for an operation
the type is that of its result.
-/

namespace Stencil.Model

/-- What a typed symbol is. -/
inductive Role where
  | property (config : PropertyConfig)
  | operation
  | parameter
  | field
  | item
  deriving DecidableEq

/-- A named symbol of a type. -/
structure Symbol where
  name : String
  owner : String
  home : Module
  type : DataType
  tags : Tags
  role : Role
  deriving DecidableEq

namespace Symbol

/-- The symbol of a property. -/
def ofProperty (m : Module) (i : Interface) (p : Property) : Symbol :=
  ⟨p.name, i.name, m, p.type, p.tags, .property p.config⟩

/-- The symbol of an operation, with the type of its result. -/
def ofOperation (m : Module) (i : Interface) (o : Operation) : Symbol :=
  ⟨o.name, i.name, m, o.type, o.tags, .operation⟩

/-- The symbol of a parameter. -/
def ofParameter (m : Module) (i : Interface) (p : Parameter) : Symbol :=
  ⟨p.name, i.name, m, p.type, p.tags, .parameter⟩

/-- The symbol of a field. -/
def ofField (m : Module) (s : Struct) (f : Field) : Symbol :=
  ⟨f.name, s.name, m, f.type, f.tags, .field⟩

/-- The same symbol with another type. -/
def withType (s : Symbol) (t : DataType) : Symbol := { s with type := t, role := .item }

/-- The symbol seen through the type of its items. -/
def item? (s : Symbol) : Option Symbol := s.type.item?.map s.withType

/-- The symbol seen a number of containers further in. -/
def inner? : Nat → Symbol → Option Symbol
  | 0, s => some s
  | n + 1, s => s.item?.bind (inner? n)

/-- The name `module.Type#member`. -/
def qualifiedName (s : Symbol) : String := s.home.name ++ "." ++ s.owner ++ "#" ++ s.name

/-- The settings of a property. -/
def config? (s : Symbol) : Option PropertyConfig :=
  match s.role with
  | .property config => some config
  | _ => none

end Symbol

/-- The typed symbol of a property, operation, parameter or field. -/
def Node.symbol? : Node → Option Symbol
  | .property m i p => some (.ofProperty m i p)
  | .operation m i o => some (.ofOperation m i o)
  | .parameter m i p => some (.ofParameter m i p)
  | .field m s f => some (.ofField m s f)
  | .module _ | .interface .. | .struct .. | .enum .. | .signal .. | .member .. => none

end Stencil.Model
