import Stencil.Spelling.Types
import Stencil.Sorted

/-!
# Names in the generated code

Names of accessors and types, include lines, and the text of comments.
-/

namespace Stencil.Spelling

open Model (DataType Node)

/-- The getter of a property; other nodes go by their names. -/
def getterName : Node → String
  | .property _ _ p => p.config.getterName.getD p.name
  | n => n.name

/-- The setter of a node, `set` and its name unless a property has another one. -/
def setterName (n : Node) : String :=
  match n with
  | .property _ _ p => p.config.setterName.getD ("set" ++ Text.upperFirst p.name)
  | n => "set" ++ Text.upperFirst n.name

/-- The configured type name of a node. -/
def configuredQmlType? : Node → Option String
  | .interface _ i => i.config.qmlType
  | .struct _ s => s.config.qmlType
  | .enum _ e => e.config.qmlType
  | n => n.tags.text? "config" "qml_type" <|> n.tags.text? "config" "qml_name"

/-- The type name of a node, its own name unless another one is configured. -/
def qmlType (n : Node) : String := (configuredQmlType? n).getD n.name

/-- The spelling of an enum; other nodes go by their names. -/
def flagTypeName : Node → String
  | .enum _ e => flagTypeOf e
  | n => n.name

/-- The types that a struct or interface mentions directly. -/
def mentionedTypes : Node → List DataType
  | .struct _ s => s.fields.map (·.type)
  | .interface _ i =>
      i.properties.map (·.type)
        ++ i.operations.flatMap (fun o => o.parameters.map (·.type) ++ [o.type])
        ++ i.signals.flatMap (fun s => s.parameters.map (·.type))
  | _ => []

/-- The include line of a struct. -/
def includeLine (struct : String) : String :=
  Text.lowercase ("#include \"" ++ struct ++ ".h\"")

/-- The include lines of the structs that a struct or interface mentions, in order. -/
def structIncludes (n : Node) : List String :=
  sortTexts <| (mentionedTypes n).filterMap fun t =>
    match t with
    | .struct r => some (includeLine r.name)
    | _ => none

/-- The lines of a comment without its marks. -/
def commentText (comment : String) : Except Error (List String) :=
  if comment.isEmpty then .ok []
  else
    match commentMarks.findSome? (Text.dropPrefix · comment) with
    | none => .error .notAComment
    | some body =>
        let inner := (Text.dropSuffix "*/" body).getD body
        .ok ((Text.lines inner).map fun line =>
          String.ofList (line.toList.dropWhile fun c => c = ' ' || c = '*'))

end Stencil.Spelling
