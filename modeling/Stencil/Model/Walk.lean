import Stencil.Model.Node

/-!
# All nodes of a system

Every node with the name under which it is reported, a declaration before what
it contains.  A parameter is reported under the name of its operation or signal,
a dot and its own name.
-/

namespace Stencil.Model

/-- An operation or signal parameter list under the name of its owner. -/
def Module.walkParameters (m : Module) (i : Interface) (owner : String) (ps : List Parameter) :
    List (String × Node) :=
  ps.map fun p => (owner ++ "." ++ p.name, .parameter m i p)

/-- An interface with its properties, operations and signals. -/
def Module.walkInterface (m : Module) (i : Interface) : List (String × Node) :=
  let base := m.name ++ "." ++ i.name
  (base, .interface m i) ::
    (i.properties.map (fun p => (base ++ "#" ++ p.name, Node.property m i p))
      ++ i.operations.flatMap (fun o =>
          let name := base ++ "#" ++ o.name
          (name, .operation m i o) :: m.walkParameters i name o.parameters)
      ++ i.signals.flatMap (fun s =>
          let name := base ++ "#" ++ s.name
          (name, .signal m i s) :: m.walkParameters i name s.parameters))

/-- A struct with its fields. -/
def Module.walkStruct (m : Module) (s : Struct) : List (String × Node) :=
  let base := m.name ++ "." ++ s.name
  (base, .struct m s) :: s.fields.map fun f => (base ++ "#" ++ f.name, .field m s f)

/-- An enum with its members. -/
def Module.walkEnum (m : Module) (e : Enum) : List (String × Node) :=
  let base := m.name ++ "." ++ e.name
  (base, .enum m e) :: e.members.map fun x => (base ++ "#" ++ x.name, .member m e x)

/-- A module with all that it declares. -/
def Module.walk (m : Module) : List (String × Node) :=
  (m.name, .module m) ::
    (m.interfaces.flatMap m.walkInterface
      ++ m.structs.flatMap m.walkStruct
      ++ m.enums.flatMap m.walkEnum)

/-- All nodes of the system. -/
def System.walk (s : System) : List (String × Node) := s.modules.flatMap Module.walk

end Stencil.Model
