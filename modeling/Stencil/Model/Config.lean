import Stencil.Json.Value

/-!
# Settings of model nodes

What the tags of a node ask of the generated code, as records with named fields.
-/

namespace Stencil.Model

/-- How a module is placed in a namespace of the generated code. -/
inductive NamespaceMode where
  | none
  | implicit
  | fromModule
  | explicit (name : String)
  deriving DecidableEq, Repr, Inhabited

/-- The mode that the text of a tag asks for. -/
def NamespaceMode.ofTag : Option String → NamespaceMode
  | .none => .none
  | some s =>
      if s.isEmpty then .none
      else if s = "qt" then .implicit
      else if s = "module" then .fromModule
      else .explicit s

/-- The settings of a module. -/
structure ModuleConfig where
  target : Option String := none
  force : Bool := false
  placement : NamespaceMode := .none
  deriving DecidableEq, Inhabited

/-- The settings of an interface. -/
structure InterfaceConfig where
  qmlType : Option String := none
  simulator : Option Members := none
  deriving DecidableEq, Inhabited

/-- The zones that an interface declares for its simulation. -/
def InterfaceConfig.zones (c : InterfaceConfig) : List String :=
  match c.simulator.bind (Members.get? "zones") with
  | some (.array items) => items.filterMap Json.text?
  | some (.object ms) => Members.keys ms
  | some (.string s) => [s]
  | _ => []

/-- What the simulation knows of a property. -/
structure PropertySimulation where
  range : Option Json
  domain : Option Json
  minimum : Option Json
  maximum : Option Json
  default : Option Json
  unsupported : Option Json
  deriving DecidableEq, Inhabited

namespace PropertySimulation

/-- The entries with these keys in a mapping. -/
def ofMembers (ms : Members) : PropertySimulation where
  range := Members.get? "range" ms
  domain := Members.get? "domain" ms
  minimum := Members.get? "minimum" ms
  maximum := Members.get? "maximum" ms
  default := Members.get? "default" ms
  unsupported := Members.get? "unsupported" ms

/-- All entries in their fixed order. -/
def all (s : PropertySimulation) : List (String × Option Json) :=
  [("range", s.range), ("domain", s.domain), ("minimum", s.minimum), ("maximum", s.maximum),
    ("default", s.default), ("unsupported", s.unsupported)]

/-- The entries that are there, in their fixed order. -/
def entries (s : PropertySimulation) : Members :=
  s.all.filterMap fun (key, value) => value.map (key, ·)

end PropertySimulation

/-- The settings of a property. -/
structure PropertyConfig where
  getterName : Option String := none
  setterName : Option String := none
  simulator : Option PropertySimulation := none
  deriving DecidableEq, Inhabited

/-- The settings of a struct. -/
structure StructConfig where
  qmlType : Option String := none
  deriving DecidableEq, Inhabited

/-- The settings of an enum. -/
structure EnumConfig where
  flagType : Option String := none
  qmlType : Option String := none
  deriving DecidableEq, Inhabited

end Stencil.Model
