import Stencil.Spelling.Error
import Stencil.Spelling.Namespace

/-!
# Types and default values in the generated code

How a typed symbol is written as a result type, a parameter, a default value, a
value for tests, and in type information.
-/

namespace Stencil.Spelling

open Model (DataType Enum Module Primitive Struct Symbol SymbolRef System)

/-- A system, and the text that stands before the names of enum scopes. -/
structure Mapper where
  system : System
  classPrefix : String

/-- The spelling of an enum; flags are called by their configured name or in the plural. -/
def flagTypeOf (e : Enum) : String :=
  if e.isFlag then e.config.flagType.getD (e.name ++ "s") else e.name

/-- The scope that holds the enums of a module. -/
def enumScope (m : Module) : String := namespacePrefix m ++ Text.upperFirst m.shortName

namespace Mapper

/-- The module that a reference names. -/
def module (x : Mapper) (filter : String) (s : Symbol) (r : SymbolRef) : Except Error Module :=
  match x.system.module? r.module with
  | some m => .ok m
  | none => .error (.unknown filter s)

/-- The enum that a reference names, with its module. -/
def enum (x : Mapper) (filter : String) (s : Symbol) (r : SymbolRef) :
    Except Error (Module × Enum) :=
  match x.system.enum? r with
  | some p => .ok p
  | none => .error (.unknown filter s)

/-- The struct that a reference names, with its module. -/
def struct (x : Mapper) (filter : String) (s : Symbol) (r : SymbolRef) :
    Except Error (Module × Struct) :=
  match x.system.struct? r with
  | some p => .ok p
  | none => .error (.unknown filter s)

/-- The spelling of an enum in its scope. -/
def enumType (x : Mapper) (filter : String) (s : Symbol) (r : SymbolRef) :
    Except Error String := do
  let (m, e) ← x.enum filter s r
  return enumScope m ++ "::" ++ flagTypeOf e

/-- The spelling of a struct or interface in its namespace. -/
def classType (x : Mapper) (filter : String) (s : Symbol) (r : SymbolRef) :
    Except Error String := do
  return namespacePrefix (← x.module filter s r) ++ r.name

/-- The spelling of a model by the type of its rows. -/
def modelType (filter : String) (s : Symbol) : DataType → Except Error String
  | .primitive _ => .ok (namespacePrefix s.home ++ "VariantModel *")
  | .void => .error (.unknown filter s)
  | _ => .ok "QIfPagingModel *"

/-- The type of a getter or of the result of an operation. -/
def returnType (x : Mapper) (s : Symbol) : Except Error String :=
  let filter := "return_type"
  match s.type with
  | .enum r | .flag r => x.enumType filter s r
  | .void => .ok "void"
  | .primitive .string => .ok "QString"
  | .primitive .var => .ok "QVariant"
  | .primitive .real => .ok "qreal"
  | .primitive p => .ok p.name
  | .list _ => .ok "QVariantList"
  | .model item => modelType filter s item
  | .struct r | .interface r => x.classType filter s r
  | .map _ => .error (.unknown filter s)

/-- The declaration of a parameter. -/
def parameterType (x : Mapper) (s : Symbol) : Except Error String :=
  let filter := "parameter_type"
  match s.type with
  | .enum r | .flag r => (x.enumType filter s r).map (· ++ " " ++ s.name)
  | .primitive .string => .ok ("const QString &" ++ s.name)
  | .primitive .var => .ok ("const QVariant &" ++ s.name)
  | .primitive .real => .ok ("qreal " ++ s.name)
  | .void | .primitive _ => .ok (s.type.name ++ " " ++ s.name)
  | .list _ => .ok ("const QVariantList &" ++ s.name)
  | .model item => (modelType filter s item).map (· ++ s.name)
  | .struct r | .interface r => (x.classType filter s r).map ("const " ++ · ++ " &" ++ s.name)
  | .map _ => .error (.unknown filter s)

/-- The zero value of a type. -/
def defaultTypeValue (x : Mapper) (s : Symbol) : Except Error String :=
  let filter := "default_type_value"
  match s.type with
  | .primitive .int => .ok "int(0)"
  | .primitive .bool => .ok "bool(false)"
  | .primitive .string => .ok "QString()"
  | .primitive .real => .ok "qreal(0.0)"
  | .primitive .var => .ok "QVariant()"
  | .void => .ok ""
  | .enum r => do
      let (m, e) ← x.enum filter s r
      match e.members.head? with
      | some first => return enumScope m ++ "::" ++ first.name
      | none => throw (.emptyEnum filter e.name)
  | .flag r => do
      let (m, e) ← x.enum filter s r
      return enumScope m ++ "::" ++ flagTypeOf e ++ "()"
  | .list _ => .ok "QVariantList()"
  | .struct r => (x.classType filter s r).map (· ++ "()")
  | .model _ => .ok "nullptr"
  | .interface _ | .map _ => .error (.unknown filter s)

/-- The declaration of a parameter with a default argument. -/
def parameterTypeDefault (x : Mapper) (s : Symbol) : Except Error String :=
  let filter := "parameter_type_default"
  match s.type with
  | .enum r | .flag r => do
      let type ← x.enumType filter s r
      return type ++ " " ++ s.name ++ "=" ++ (← x.defaultTypeValue s)
  | .primitive .string => .ok ("const QString &" ++ s.name ++ "=QString()")
  | .primitive .var => .ok ("const QVariant &" ++ s.name ++ "=QVariant()")
  | .primitive .real => .ok ("qreal " ++ s.name ++ "=qreal()")
  | .void | .primitive _ =>
      (x.defaultTypeValue s).map (s.type.name ++ " " ++ s.name ++ "=" ++ ·)
  | .list _ => .ok ("const QVariantList &" ++ s.name ++ "=QVariantList()")
  | .model item => (modelType filter s item).map (· ++ s.name ++ "=nullptr")
  | .struct r | .interface r =>
      (x.classType filter s r).map fun c =>
        "const " ++ c ++ " &" ++ s.name ++ "=" ++ c ++ "()"
  | .map _ => .error (.unknown filter s)

/-- The value for tests of a type, given that of the fields of a struct. -/
def testValueWith (x : Mapper) (field : Symbol → Except Error String) (s : Symbol) :
    DataType → Except Error String
  | .primitive .int => .ok "111"
  | .primitive .bool => .ok "true"
  | .primitive .string => .ok "u\"TEST STRING\"_s"
  | .primitive .real => .ok "1234.5678"
  | .primitive .var => .ok "QVariant(\"TEST VARIANT\")"
  | .void => .ok ""
  | .enum r | .flag r => do
      let (m, e) ← x.enum "test_type_value" s r
      match e.members.getLast? with
      | some last => return enumScope m ++ "::" ++ last.name
      | none => throw (.emptyEnum "test_type_value" e.name)
  | .list item => do
      let value ← testValueWith x field (s.withType item) item
      match item with
      | .primitive _ => return "QVariantList(" ++ value ++ ")"
      | _ => return "QVariantList(\x7bQVariant::fromValue(" ++ value ++ ")\x7d)"
  | .struct r => do
      let (m, struct) ← x.struct "test_type_value" s r
      let values ← struct.fields.mapM fun f => field (.ofField m struct f)
      return namespacePrefix m ++ struct.name ++ "(" ++ String.intercalate ", " values ++ ")"
  | .model _ => .ok "new QIfPagingModel()"
  | .interface _ | .map _ => .error (.unknown "test_type_value" s)

/-- The value for tests of a symbol, through at most `depth` structs. -/
def testValueWithin (x : Mapper) : Nat → Symbol → Except Error String
  | 0, s => .error (.endless "test_type_value" s.owner)
  | depth + 1, s => x.testValueWith (x.testValueWithin depth) s s.type

/-- The number of structs that a system declares. -/
def structCount (s : System) : Nat := (s.modules.flatMap fun m => m.structs).length

/-- A value other than the zero value.  A chain of structs that is longer than their number comes
back to one of them and has no end. -/
def testTypeValue (x : Mapper) (s : Symbol) : Except Error String :=
  x.testValueWithin (structCount x.system + 1) s

/-- The name of a type in type information. -/
def qmlInfoType (x : Mapper) (s : Symbol) : Except Error String :=
  let filter := "qml_info_type"
  match s.type with
  | .enum r | .flag r => do
      let (m, e) ← x.enum filter s r
      return x.classPrefix ++ Text.upperFirst m.shortName ++ "::" ++ flagTypeOf e
  | .primitive .real => .ok "double"
  | .void | .primitive _ => .ok s.type.name
  | .struct _ => .ok "QVariant"
  | .list _ => .ok "QVariantList"
  | .model _ => .ok "QIfPagingModel"
  | .interface _ | .map _ => .error (.unknown filter s)

/-- The spelling of the enum of a symbol; the name of the symbol for other types. -/
def flagType (x : Mapper) (s : Symbol) : Except Error String :=
  match s.type with
  | .enum r | .flag r => (x.enum "flag_type" s r).map fun p => flagTypeOf p.2
  | _ => .ok s.name

/-- One enum value; only what follows its last dot counts. -/
def enumLiteral (x : Mapper) (value moduleName : String) : String :=
  x.classPrefix ++ Text.upperFirst moduleName ++ "::" ++ Text.afterLast '.' (Text.trim value)

/-- Enum values with bars between them. -/
def enumValue (x : Mapper) (value moduleName : String) : String :=
  String.intercalate "|" ((Text.split '|' value).map fun v => x.enumLiteral v moduleName)

end Mapper

end Stencil.Spelling
