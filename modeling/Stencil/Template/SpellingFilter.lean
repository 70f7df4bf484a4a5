import Stencil.Spelling.Annotation
import Stencil.Spelling.Names
import Stencil.Template.FilterSet

/-!
# Filters that spell the model

The filter set `qt`: spellings of types and default values, names of members,
namespaces and simulation data.
-/

namespace Stencil.Template

open Model Spelling

-- powers of numbers are those of the core library
attribute [local instance (2000)] instPowNat

namespace World

mutual
/-- A value as JSON data; what is an object becomes its text. -/
def toJson (w : World) : Value → Except Problem Json
  | .undefined | .none => .ok .null
  | .bool b => .ok (.bool b)
  | .int n =>
      if -(2 ^ (63 : Nat)) ≤ n ∧ n < 2 ^ (64 : Nat) then .ok (.int n)
      else .error (.filterArgument "not a plain annotation value: number out of range")
  | .float d => .ok (if d.isFinite then .double d else .null)
  | .text s _ => .ok (.string s)
  | .list items | .iterator items _ => (toJsonItems w items).map .array
  | .group shared members => do
      pure (.array [← toJson w shared, .array (← toJsonItems w members)])
  | .map entries => (toJsonEntries w entries).map fun ms => .object (Members.ofPairs ms)
  | v => .ok (.string (w.text v))

/-- The JSON data of items. -/
def toJsonItems (w : World) : List Value → Except Problem (List Json)
  | [] => .ok []
  | v :: rest => do pure ((← toJson w v) :: (← toJsonItems w rest))

/-- The JSON data of entries. -/
def toJsonEntries (w : World) : List (Value × Value) → Except Problem (List (String × Json))
  | [] => .ok []
  | e :: rest => do pure ((← toJsonEntry w e) :: (← toJsonEntries w rest))

/-- The JSON data of an entry; its key is a text, a number or a truth value. -/
def toJsonEntry (w : World) : Value × Value → Except Problem (String × Json)
  | (k, v) => do
      match k.kind with
      | .text | .number | .bool => pure (w.text k, ← toJson w v)
      | _ => throw (.filterArgument "not a plain annotation value: key must be a string")
end

end World

/-- The problem of a value that a filter knows nothing about. -/
def unknownValue (w : World) (filter : String) (v : Value) : Problem :=
  .unknownSymbol filter (w.text v) (some v.kind)

/-- The typed symbol behind a value. -/
def symbolOf (w : World) (filter : String) (v : Value) : Except Problem Symbol :=
  match v with
  | .handle h =>
      match h.symbol? w.system with
      | some s => .ok s
      | none => .error (unknownValue w filter v)
  | v => .error (unknownValue w filter v)

/-- The node behind a value. -/
def nodeOf (w : World) (filter : String) (v : Value) : Except Problem Node :=
  match v with
  | .handle .system => .error (.unknownSymbol filter (Handle.system.name w.system) none)
  | .handle (.node a) =>
      match w.system.node? a with
      | some n => .ok n
      | none => .error (.unknownSymbol filter (Handle.system.name w.system) none)
  | v => .error (unknownValue w filter v)

/-- The module behind a value. -/
def moduleOf (w : World) (v : Value) : Except Problem Module :=
  match v with
  | .handle (.node (.module i)) =>
      match w.system.modules[i]? with
      | some m => .ok m
      | none => .error (.spelling .notAModule)
  | _ => .error (.spelling .notAModule)

/-- The outcome of a spelling. -/
def spelled (r : Except Spelling.Error String) : Outcome :=
  match r with
  | .ok s => .ok (.ofText s)
  | .error e => .error (.spelling e)

/-- A filter without arguments. -/
def bareFilter (f : World → Value → Outcome) : Filter := fun w v as => do
  as.atMost 0
  f w v

/-- A filter that spells a typed symbol. -/
def symbolFilter (classPrefix name : String)
    (f : Mapper → Symbol → Except Spelling.Error String) : String × Filter :=
  (name, bareFilter fun w v => do
    spelled (f ⟨w.system, classPrefix⟩ (← symbolOf w name v)))

/-- A filter that names a node. -/
def nodeFilter (name : String) (f : Node → String) : String × Filter :=
  (name, bareFilter fun w v => do pure (.ofText (f (← nodeOf w name v))))

/-- A filter on a module. -/
def moduleFilter (name : String) (f : Module → String) : String × Filter :=
  (name, bareFilter fun w v => do pure (.ofText (f (← moduleOf w v))))

/-- The default value of a symbol: the given annotation, or else the one of its simulation. -/
def defaultValueFilter (classPrefix : String) : Filter := fun w v as => do
  as.atMost 1
  let s ← symbolOf w "default_value" v
  let mapper : Mapper := ⟨w.system, classPrefix⟩
  let annotation : Option Json ←
    match as.optional? 0 with
    | some a => some <$> w.toJson (w.opened a)
    | none => pure ((s.config?.bind (·.simulator)).bind (·.default))
  match annotation with
  | some a => spelled (mapper.defaultValue s a)
  | none => spelled (mapper.defaultTypeValue s)

/-- The flag type of a symbol, or the name of the flag type of an enum. -/
def flagTypeFilter (classPrefix : String) : Filter := bareFilter fun w v => do
  let typed : Option Symbol :=
    match v with
    | .handle h => h.symbol? w.system
    | _ => none
  match typed with
  | some s => spelled ((⟨w.system, classPrefix⟩ : Mapper).flagType s)
  | none => pure (.ofText (flagTypeName (← nodeOf w "flag_type" v)))

/-- A name after the namespace of its module; a text needs the module as an argument. -/
def namespaceFilter : Filter := fun w v as => do
  as.atMost 1
  let m ←
    match v with
    | .handle .system => throw (.spelling .notAModule)
    | .handle (.node a) =>
        match w.system.modules[a.moduleIndex]? with
        | some m => pure m
        | none => throw (.spelling .notAModule)
    | _ =>
        match as.optional? 0 with
        | some m => moduleOf w m
        | none => throw (.spelling .notAModule)
  pure (.ofText (namespacePrefix m ++ w.text v))

/-- The filters that spell the model, for a prefix of class names. -/
def spellingFilters (classPrefix : String) : FilterSet where
  name := "qt"
  filters :=
    [symbolFilter classPrefix "return_type" Mapper.returnType,
      symbolFilter classPrefix "parameter_type" Mapper.parameterType,
      symbolFilter classPrefix "parameter_type_default" Mapper.parameterTypeDefault,
      symbolFilter classPrefix "default_type_value" Mapper.defaultTypeValue,
      symbolFilter classPrefix "test_type_value" Mapper.testTypeValue,
      symbolFilter classPrefix "qml_info_type" Mapper.qmlInfoType,
      ("default_value", defaultValueFilter classPrefix),
      ("flag_type", flagTypeFilter classPrefix),
      ("enum_value", fun w v as => do
        let m ← as.text w 0
        as.atMost 1
        pure (.ofText ((⟨.empty, classPrefix⟩ : Mapper).enumValue (w.text v) m))),
      ("simulationData", bareFilter fun w v => do
        spelled ((⟨w.system, classPrefix⟩ : Mapper).simulationData (← moduleOf w v))),
      nodeFilter "getter_name" getterName,
      nodeFilter "setter_name" setterName,
      nodeFilter "qml_type" qmlType,
      ("struct_includes", bareFilter fun w v => do
        pure (.ofTexts (structIncludes (← nodeOf w "struct_includes" v)))),
      ("comment_text", bareFilter fun w v =>
        match commentText (w.text v) with
        | .ok lines => .ok (.ofTexts lines)
        | .error e => .error (.spelling e)),
      ("strip_QT", bareFilter fun w v => .ok (.ofText (Text.stripQt (w.text v)))),
      moduleFilter "namespace" namespaceOf,
      moduleFilter "namespace_prefix" namespacePrefix,
      moduleFilter "begin_namespace" beginNamespace,
      moduleFilter "end_namespace" endNamespace,
      ("add_namespace_prefix", namespaceFilter)]

end Stencil.Template
