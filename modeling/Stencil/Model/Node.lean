import Stencil.Model.System

/-!
# Nodes and their addresses

A node is a declaration together with the declarations around it.  An address is
the path of indexes that leads to a node from the system, so it stays valid when
tags change.
-/

namespace Stencil.Model

/-- A declaration of the model inside its module. -/
inductive Node where
  | module (m : Module)
  | interface (m : Module) (i : Interface)
  | struct (m : Module) (s : Struct)
  | enum (m : Module) (e : Enum)
  | property (m : Module) (i : Interface) (p : Property)
  | operation (m : Module) (i : Interface) (o : Operation)
  | signal (m : Module) (i : Interface) (s : Signal)
  | parameter (m : Module) (i : Interface) (p : Parameter)
  | field (m : Module) (s : Struct) (f : Field)
  | member (m : Module) (e : Enum) (x : Member)
  deriving DecidableEq

namespace Node

/-- The word for the kind of a node. -/
def kind : Node → String
  | .module _ => "Module"
  | .interface .. => "Interface"
  | .struct .. => "Struct"
  | .enum .. => "Enum"
  | .property .. => "Property"
  | .operation .. => "Operation"
  | .signal .. => "Signal"
  | .parameter .. => "Parameter"
  | .field .. => "Field"
  | .member .. => "EnumMember"

/-- The name of the declaration itself. -/
def name : Node → String
  | .module m => m.name
  | .interface _ i => i.name
  | .struct _ s => s.name
  | .enum _ e => e.name
  | .property _ _ p => p.name
  | .operation _ _ o => o.name
  | .signal _ _ s => s.name
  | .parameter _ _ p => p.name
  | .field _ _ f => f.name
  | .member _ _ x => x.name

/-- The annotations of the declaration itself. -/
def tags : Node → Tags
  | .module m => m.tags
  | .interface _ i => i.tags
  | .struct _ s => s.tags
  | .enum _ e => e.tags
  | .property _ _ p => p.tags
  | .operation _ _ o => o.tags
  | .signal _ _ s => s.tags
  | .parameter _ _ p => p.tags
  | .field _ _ f => f.tags
  | .member _ _ x => x.tags

/-- The module that declares the node; a module is its own. -/
def home : Node → Module
  | .module m | .interface m _ | .struct m _ | .enum m _ | .property m _ _ | .operation m _ _
  | .signal m _ _ | .parameter m _ _ | .field m _ _ | .member m _ _ => m

/-- The name `module`, `module.Type` or `module.Type#member`. -/
def qualifiedName : Node → String
  | .module m => m.name
  | .interface m i => m.name ++ "." ++ i.name
  | .struct m s => m.name ++ "." ++ s.name
  | .enum m e => m.name ++ "." ++ e.name
  | .property m i p => m.name ++ "." ++ i.name ++ "#" ++ p.name
  | .operation m i o => m.name ++ "." ++ i.name ++ "#" ++ o.name
  | .signal m i s => m.name ++ "." ++ i.name ++ "#" ++ s.name
  | .parameter m i p => m.name ++ "." ++ i.name ++ "#" ++ p.name
  | .field m s f => m.name ++ "." ++ s.name ++ "#" ++ f.name
  | .member m e x => m.name ++ "." ++ e.name ++ "#" ++ x.name

end Node

/-- The indexes that lead from the system to a node. -/
inductive Address where
  | module (m : Nat)
  | interface (m i : Nat)
  | struct (m s : Nat)
  | enum (m e : Nat)
  | property (m i p : Nat)
  | operation (m i o : Nat)
  | signal (m i s : Nat)
  | operationParameter (m i o p : Nat)
  | signalParameter (m i s p : Nat)
  | field (m s f : Nat)
  | member (m e x : Nat)
  deriving DecidableEq, Repr

namespace Address

/-- The index of the module. -/
def moduleIndex : Address → Nat
  | .module m | .interface m _ | .struct m _ | .enum m _ | .property m _ _ | .operation m _ _
  | .signal m _ _ | .operationParameter m _ _ _ | .signalParameter m _ _ _ | .field m _ _
  | .member m _ _ => m

/-- The interface, struct or enum that a member belongs to. -/
def owner? : Address → Option Address
  | .property m i _ | .operation m i _ | .signal m i _ | .operationParameter m i _ _
  | .signalParameter m i _ _ => some (.interface m i)
  | .field m s _ => some (.struct m s)
  | .member m e _ => some (.enum m e)
  | .module _ | .interface .. | .struct .. | .enum .. => none

end Address

namespace Module

/-- The node at an address inside the module; the index of the module is not looked at. -/
def node? (m : Module) : Address → Option Node
  | .module _ => some (.module m)
  | .interface _ i => m.interfaces[i]?.map (.interface m)
  | .struct _ s => m.structs[s]?.map (.struct m)
  | .enum _ e => m.enums[e]?.map (.enum m)
  | .property _ i p => m.interfaces[i]?.bind fun face => face.properties[p]?.map (.property m face)
  | .operation _ i o => m.interfaces[i]?.bind fun face => face.operations[o]?.map (.operation m face)
  | .signal _ i s => m.interfaces[i]?.bind fun face => face.signals[s]?.map (.signal m face)
  | .operationParameter _ i o p =>
      m.interfaces[i]?.bind fun face =>
        face.operations[o]?.bind fun op => op.parameters[p]?.map (.parameter m face)
  | .signalParameter _ i s p =>
      m.interfaces[i]?.bind fun face =>
        face.signals[s]?.bind fun sig => sig.parameters[p]?.map (.parameter m face)
  | .field _ s f => m.structs[s]?.bind fun struct => struct.fields[f]?.map (.field m struct)
  | .member _ e x => m.enums[e]?.bind fun enum => enum.members[x]?.map (.member m enum)

/-- The module with the tags of one node changed. -/
def modifyTags (change : Tags → Tags) (m : Module) : Address → Module
  | .module _ => { m with tags := change m.tags }
  | .interface _ i => onInterface i fun face => { face with tags := change face.tags }
  | .struct _ s => onStruct s fun struct => { struct with tags := change struct.tags }
  | .enum _ e => onEnum e fun enum => { enum with tags := change enum.tags }
  | .property _ i p => onInterface i fun face =>
      { face with
        properties := face.properties.modify p fun x => { x with tags := change x.tags } }
  | .operation _ i o => onInterface i fun face =>
      { face with
        operations := face.operations.modify o fun x => { x with tags := change x.tags } }
  | .signal _ i s => onInterface i fun face =>
      { face with signals := face.signals.modify s fun x => { x with tags := change x.tags } }
  | .operationParameter _ i o p => onInterface i fun face =>
      { face with
        operations := face.operations.modify o fun x =>
          { x with parameters := onParameter p x.parameters } }
  | .signalParameter _ i s p => onInterface i fun face =>
      { face with
        signals := face.signals.modify s fun x =>
          { x with parameters := onParameter p x.parameters } }
  | .field _ s f => onStruct s fun struct =>
      { struct with fields := struct.fields.modify f fun x => { x with tags := change x.tags } }
  | .member _ e x => onEnum e fun enum =>
      { enum with members := enum.members.modify x fun y => { y with tags := change y.tags } }
where
  /-- The module with one interface changed. -/
  onInterface (i : Nat) (f : Interface → Interface) : Module :=
    { m with interfaces := m.interfaces.modify i f }
  /-- The module with one struct changed. -/
  onStruct (i : Nat) (f : Struct → Struct) : Module := { m with structs := m.structs.modify i f }
  /-- The module with one enum changed. -/
  onEnum (i : Nat) (f : Enum → Enum) : Module := { m with enums := m.enums.modify i f }
  /-- The parameters with the tags of one changed. -/
  onParameter (i : Nat) (ps : List Parameter) : List Parameter :=
    ps.modify i fun x => { x with tags := change x.tags }

/-- The address of what a name, or a type and a member in it, stand for. -/
def find? (m : Module) (index : Nat) (type : String) : Option String → Option Address
  | none =>
      (m.interfaces.findIdx? (·.name = type)).map (.interface index)
        <|> (m.structs.findIdx? (·.name = type)).map (.struct index)
        <|> (m.enums.findIdx? (·.name = type)).map (.enum index)
  | some member =>
      match m.interfaces.findIdx? (·.name = type), m.interface? type with
      | some i, some face =>
          (face.properties.findIdx? (·.name = member)).map (.property index i)
            <|> (face.operations.findIdx? (·.name = member)).map (.operation index i)
            <|> (face.signals.findIdx? (·.name = member)).map (.signal index i)
      | _, _ =>
          match m.structs.findIdx? (·.name = type), m.struct? type with
          | some s, some struct =>
              (struct.fields.findIdx? (·.name = member)).map (.field index s)
          | _, _ =>
              match m.enums.findIdx? (·.name = type), m.enum? type with
              | some e, some enum =>
                  (enum.members.findIdx? (·.name = member)).map (.member index e)
              | _, _ => none

/-- The node that a name, or a type and a member in it, stand for.  An interface hides structs and
enums of its name, a struct hides enums; in an interface, properties come before operations and
these before signals. -/
def lookup? (m : Module) (type : String) (member : Option String) : Option Node :=
  match m.interface? type with
  | some face =>
      match member with
      | none => some (.interface m face)
      | some name =>
          (face.property? name).map (.property m face)
            <|> (face.operation? name).map (.operation m face)
            <|> (face.signal? name).map (.signal m face)
  | none =>
      match m.struct? type with
      | some struct =>
          match member with
          | none => some (.struct m struct)
          | some name => (struct.field? name).map (.field m struct)
      | none =>
          (m.enum? type).bind fun enum =>
            match member with
            | none => some (.enum m enum)
            | some name => (enum.member? name).map (.member m enum)

end Module

namespace System

/-- The node at an address. -/
def node? (s : System) (a : Address) : Option Node :=
  s.modules[a.moduleIndex]?.bind (·.node? a)

/-- The system with the tags of one node changed. -/
def modifyTags (s : System) (a : Address) (change : Tags → Tags) : System :=
  ⟨s.modules.modify a.moduleIndex fun m => m.modifyTags change a⟩

/-- The address at which the tags of `module`, `module.Type` or `module.Type#member` are changed.  A
name without `#` that names a module stands for it; else the type follows the last dot. -/
def find? (s : System) (qualified : String) : Option Address :=
  match Text.cutFirst '#' qualified with
  | some (path, member) => inModule path (some member)
  | none =>
      match s.index? qualified with
      | some m => some (.module m)
      | none => inModule qualified none
where
  /-- The address of a type, or of a member of it. -/
  inModule (path : String) (member : Option String) : Option Address :=
    (Text.cutLast '.' path).bind fun (name, type) =>
      (s.index? name).bind fun index =>
        (s.modules[index]?).bind fun m => m.find? index type member

/-- The node that a qualified name stands for, read without its address. -/
def lookup? (s : System) (qualified : String) : Option Node :=
  match Text.cutFirst '#' qualified with
  | some (path, member) => lookupIn path (some member)
  | none =>
      match s.module? qualified with
      | some m => some (.module m)
      | none => lookupIn qualified none
where
  /-- The node of a type, or of a member of it. -/
  lookupIn (path : String) (member : Option String) : Option Node :=
    (Text.cutLast '.' path).bind fun (name, type) =>
      (s.module? name).bind fun m => m.lookup? type member

end System

end Stencil.Model
