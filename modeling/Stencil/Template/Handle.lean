import Stencil.Model.Symbol

/-!
# Handles on the model

Templates see the model through handles: the whole system, a node at an address,
or the type of a typed node seen some containers further in.  A handle has named
attributes, and some of them lead to further handles.
-/

namespace Stencil.Template

open Model

/-- What a template holds of the model. -/
inductive Handle where
  | system
  | node (a : Address)
  | type (a : Address) (depth : Nat)
  deriving DecidableEq, Repr

/-- What an attribute of a handle is. -/
inductive Attribute where
  | text (s : String)
  | number (n : Int)
  | truth (b : Bool)
  | texts (items : List String)
  | data (v : Json)
  | handle (h : Handle)
  | handles (items : List Handle)
  deriving DecidableEq

namespace Handle

/-- The handles on the children of a node, counted from zero. -/
def children (count : Nat) (address : Nat → Address) : Attribute :=
  .handles ((List.range count).map fun i => .node (address i))

/-- The node of the system that a handle is on. -/
def node? (s : System) : Handle → Option Node
  | .node a => s.node? a
  | _ => none

/-- The typed symbol behind a handle. -/
def symbol? (s : System) : Handle → Option Symbol
  | .system => none
  | .node a => (s.node? a).bind (·.symbol?)
  | .type a depth => ((s.node? a).bind (·.symbol?)).bind (·.inner? depth)

/-- The type behind a handle on a type. -/
def type? (s : System) : Handle → Option DataType
  | .type a depth => ((Handle.type a depth).symbol? s).map (·.type)
  | _ => none

/-- The name of what a handle is on. -/
def name (s : System) : Handle → String
  | .system => "System"
  | .node a => match s.node? a with | some n => n.name | none => "System"
  | .type a depth =>
      match (Handle.type a depth).type? s with
      | some t => t.name
      | none => ""

/-- The declaration that a reference leads to; interfaces come before structs, and structs before
enums. -/
def ofReference? (s : System) (r : SymbolRef) : Option Handle :=
  (s.index? r.module).bind fun index =>
    (s.modules[index]?).bind fun m => (m.find? index r.name none).map .node

/-- The owner of a member, under the name of the owner's kind. -/
def owner? (a : Address) : Option Attribute := (a.owner?).map fun o => .handle (.node o)

/-- The attributes that every node has. -/
def commonAttribute? (a : Address) (n : Node) : String → Option Attribute
  | "name" => some (.text n.name)
  | "qualified_name" => some (.text n.qualifiedName)
  | "kind" => some (.text n.kind)
  | "tags" => some (.data n.tags.toJson)
  | "module" => some (.handle (.node (.module a.moduleIndex)))
  | _ => none

/-- The attributes of a module. -/
def moduleAttribute? (i : Nat) (m : Module) : String → Option Attribute
  | "module_name" => some (.text m.shortName)
  | "version" => some (.text m.version.text)
  | "majorVersion" => some (.number m.version.major.toNat)
  | "minorVersion" => some (.number m.version.minor.toNat)
  | "imports" => some (.texts m.imports)
  | "name_parts" => some (.texts m.nameParts)
  | "comment" => some (.text m.comment)
  | "interfaces" => some (children m.interfaces.length (.interface i))
  | "structs" => some (children m.structs.length (.struct i))
  | "enums" => some (children m.enums.length (.enum i))
  | _ => none

/-- The attributes of a property. -/
def propertyAttribute? (a : Address) (p : Property) : String → Option Attribute
  | "type" => some (.handle (.type a 0))
  | "comment" => some (.text p.comment)
  | "readonly" => some (.truth p.readonly)
  | "writeable" => some (.truth (!p.readonly && !p.constant))
  | "const" | "is_const" => some (.truth p.constant)
  | "interface" => owner? a
  | _ => none

/-- The attributes that a kind of node has besides the common ones. -/
def ownAttribute? (a : Address) (n : Node) (key : String) : Option Attribute :=
  match a, n with
  | .module i, .module m => moduleAttribute? i m key
  | .interface m i, .interface _ face =>
      match key with
      | "comment" => some (.text face.comment)
      | "properties" => some (children face.properties.length (.property m i))
      | "operations" => some (children face.operations.length (.operation m i))
      | "signals" => some (children face.signals.length (.signal m i))
      | _ => none
  | .struct m s, .struct _ struct =>
      match key with
      | "comment" => some (.text struct.comment)
      | "fields" => some (children struct.fields.length (.field m s))
      | _ => none
  | .enum m e, .enum _ enum =>
      match key with
      | "comment" => some (.text enum.comment)
      | "is_flag" => some (.truth enum.isFlag)
      | "is_enum" => some (.truth !enum.isFlag)
      | "members" => some (children enum.members.length (.member m e))
      | _ => none
  | a, .property _ _ p => propertyAttribute? a p key
  | .operation m i o, .operation _ _ op =>
      match key with
      | "type" => some (.handle (.type a 0))
      | "comment" => some (.text op.comment)
      | "const" | "is_const" => some (.truth op.constant)
      | "parameters" => some (children op.parameters.length (.operationParameter m i o))
      | "interface" => owner? a
      | _ => none
  | .signal m i s, .signal _ _ sig =>
      match key with
      | "comment" => some (.text sig.comment)
      | "parameters" => some (children sig.parameters.length (.signalParameter m i s))
      | "interface" => owner? a
      | _ => none
  | a, .parameter .. =>
      match key with
      | "type" => some (.handle (.type a 0))
      | "interface" => owner? a
      | _ => none
  | a, .field _ _ f =>
      match key with
      | "type" => some (.handle (.type a 0))
      | "comment" => some (.text f.comment)
      | "struct" => owner? a
      | _ => none
  | a, .member _ _ x =>
      match key with
      | "value" => x.value.map .number
      | "comment" => some (.text x.comment)
      | "enum" => owner? a
      | _ => none
  | _, _ => none

/-- An attribute of a node. -/
def nodeAttribute? (a : Address) (n : Node) (key : String) : Option Attribute :=
  (commonAttribute? a n key) <|> (ownAttribute? a n key)

/-- An attribute of a type. -/
def typeAttribute? (s : System) (a : Address) (depth : Nat) (t : DataType) (key : String) :
    Option Attribute :=
  match key with
  | "name" => some (.text t.name)
  | "kind" => some (.text t.kind)
  | "nested" => t.item?.map fun _ => .handle (.type a (depth + 1))
  | "reference" => (t.reference?.bind (ofReference? s)).map .handle
  | "qualified_name" =>
      some (.text (match t.reference? with | some r => r.qualifiedName | none => t.name))
  | "type" => some (.handle (.type a depth))
  | "module" => some (.handle (.node (.module a.moduleIndex)))
  | key => ((Text.dropPrefix "is_" key).bind t.satisfies?).map .truth

/-- An attribute of the whole system. -/
def systemAttribute? (s : System) : String → Option Attribute
  | "modules" => some (children s.modules.length .module)
  | "name" => some (.text "System")
  | _ => none

/-- An attribute of a handle.  A handle that is on no node of the system is taken for one on the
whole system. -/
def attribute? (s : System) (h : Handle) (key : String) : Option Attribute :=
  match h with
  | .system => systemAttribute? s key
  | .node a =>
      match s.node? a with
      | some n => nodeAttribute? a n key
      | none => systemAttribute? s key
  | .type a depth => (h.type? s).bind fun t => typeAttribute? s a depth t key

end Handle

end Stencil.Template
