import Stencil.Model.System

/-!
# Models as data

The plain form of a module: mappings with a fixed set of keys, in which what is
not set is null.
-/

namespace Stencil.Model

/-- A text that may be missing. -/
def optionalText (s : Option String) : Json := (s.map Json.string).getD .null

/-- Texts in order. -/
def textList (xs : List String) : Json := .array (xs.map .string)

/-- A type: its kind and what it is of. -/
def DataType.toJson : DataType → Json
  | .void => .object [("kind", .string "void")]
  | .primitive p => .object [("kind", .string "primitive"), ("of", .string p.name)]
  | .enum r => named "enum" r
  | .flag r => named "flag" r
  | .struct r => named "struct" r
  | .interface r => named "interface" r
  | .list t => .object [("kind", .string "list"), ("of", t.toJson)]
  | .model t => .object [("kind", .string "model"), ("of", t.toJson)]
  | .map t => .object [("kind", .string "map"), ("of", t.toJson)]
where
  /-- A type that is declared under a name. -/
  named (kind : String) (r : SymbolRef) : Json :=
    .object [("kind", .string kind),
      ("of", .object [("module", .string r.module), ("name", .string r.name)])]

/-- The placement of a module. -/
def NamespaceMode.toJson : NamespaceMode → Json
  | .none => .object [("mode", .string "none")]
  | .implicit => .object [("mode", .string "implicit")]
  | .fromModule => .object [("mode", .string "from_module")]
  | .explicit name => .object [("mode", .string "explicit"), ("value", .string name)]

/-- The settings of a property. -/
def PropertyConfig.toJson (c : PropertyConfig) : Json :=
  .object [
    ("getter_name", optionalText c.getterName), ("setter_name", optionalText c.setterName),
    ("simulator", match c.simulator with
      | some s => .object (s.all.map fun (key, v) => (key, v.getD .null))
      | none => .null)]

/-- A parameter. -/
def Parameter.toJson (p : Parameter) : Json :=
  .object [("name", .string p.name), ("type", p.type.toJson), ("tags", p.tags.toJson)]

/-- A property. -/
def Property.toJson (p : Property) : Json :=
  .object [
    ("name", .string p.name), ("type", p.type.toJson), ("readonly", .bool p.readonly),
    ("is_const", .bool p.constant), ("comment", .string p.comment), ("tags", p.tags.toJson),
    ("config", p.config.toJson)]

/-- An operation. -/
def Operation.toJson (o : Operation) : Json :=
  .object [
    ("name", .string o.name), ("type", o.type.toJson),
    ("parameters", .array (o.parameters.map Parameter.toJson)), ("is_const", .bool o.constant),
    ("comment", .string o.comment), ("tags", o.tags.toJson)]

/-- A signal. -/
def Signal.toJson (s : Signal) : Json :=
  .object [
    ("name", .string s.name), ("parameters", .array (s.parameters.map Parameter.toJson)),
    ("comment", .string s.comment), ("tags", s.tags.toJson)]

/-- An interface. -/
def Interface.toJson (i : Interface) : Json :=
  .object [
    ("name", .string i.name), ("comment", .string i.comment),
    ("properties", .array (i.properties.map Property.toJson)),
    ("operations", .array (i.operations.map Operation.toJson)),
    ("signals", .array (i.signals.map Signal.toJson)), ("tags", i.tags.toJson),
    ("config", .object [("qml_type", optionalText i.config.qmlType),
      ("simulator", (i.config.simulator.map Json.object).getD .null)])]

/-- A field. -/
def Field.toJson (f : Field) : Json :=
  .object [("name", .string f.name), ("type", f.type.toJson), ("comment", .string f.comment),
    ("tags", f.tags.toJson)]

/-- A struct. -/
def Struct.toJson (s : Struct) : Json :=
  .object [
    ("name", .string s.name), ("comment", .string s.comment),
    ("fields", .array (s.fields.map Field.toJson)), ("tags", s.tags.toJson),
    ("config", .object [("qml_type", optionalText s.config.qmlType)])]

/-- A member of an enum. -/
def Member.toJson (x : Member) : Json :=
  .object [("name", .string x.name), ("value", (x.value.map Json.int).getD .null),
    ("comment", .string x.comment), ("tags", x.tags.toJson)]

/-- An enum. -/
def Enum.toJson (e : Enum) : Json :=
  .object [
    ("name", .string e.name), ("is_flag", .bool e.isFlag), ("comment", .string e.comment),
    ("members", .array (e.members.map Member.toJson)), ("tags", e.tags.toJson),
    ("config", .object [("flag_type", optionalText e.config.flagType),
      ("qml_type", optionalText e.config.qmlType)])]

/-- The entries of a module. -/
def Module.toMembers (m : Module) : Members :=
  [("name", .string m.name), ("version", .string m.version.text), ("imports", textList m.imports),
    ("comment", .string m.comment), ("interfaces", .array (m.interfaces.map Interface.toJson)),
    ("structs", .array (m.structs.map Struct.toJson)),
    ("enums", .array (m.enums.map Enum.toJson)), ("tags", m.tags.toJson),
    ("config", .object [("module", optionalText m.config.target), ("force", .bool m.config.force),
      ("namespace", m.config.placement.toJson)])]

end Stencil.Model
