import Stencil.Spelling.Types
import Stencil.Json.Printer

/-!
# Annotation values in the generated code

An annotation value follows the type of its symbol: a struct takes one entry for
each field, a list or model one for each row, an enum the names of members.
-/

namespace Stencil

/-- Whether a value counts as set: not null, false, zero or empty. -/
def Json.isSet : Json → Bool
  | .null => false
  | .bool b => b
  | .int n => n ≠ 0
  | .double d => d.magnitudeBits ≠ 0
  | .string s => !s.isEmpty
  | .array items => !items.isEmpty
  | .object members => !members.isEmpty

/-- A string as it is, any other value as compact text. -/
def Json.plain : Json → String
  | .string s => s
  | v => v.compact

namespace Spelling

open Model (DataType Field Interface Module Struct Symbol)

namespace Mapper

/-- Requires one entry for each field. -/
def checkCount (filter : String) (s : Symbol) (expected actual : Nat) : Except Error Unit :=
  if actual = expected then .ok ()
  else .error (.fieldCount filter s.qualifiedName expected actual)

/-- The name of the module that declares the enum of a symbol. -/
def enumModuleName (x : Mapper) (filter : String) (s : Symbol) : Except Error String :=
  match s.type with
  | .enum r | .flag r => (x.module filter s r).map (·.shortName)
  | _ => .error (.unknown filter s)

/-- The literal of a value for a type without parts. -/
def scalarLiteral (x : Mapper) (s : Symbol) (v : Json) : Except Error String :=
  match s.type with
  | .enum _ | .flag _ => do
      let name ← x.enumModuleName "default_value" s
      return x.enumValue v.plain name
  | .primitive .bool => .ok (if v.isSet then "true" else "false")
  | .primitive .string => .ok ("u\"" ++ Text.replace "\\" "\\\\" v.plain ++ "\"_s")
  | .primitive .var =>
      match v with
      | .string t => .ok ("QVariant(u\"" ++ t ++ "\"_s)")
      | v => .ok ("QVariant(" ++ v.compact ++ ")")
  | .void | .primitive _ => .ok v.plain
  | _ => .error (.unknown "default_value" s)

/-- A row of a list; structs are wrapped there. -/
def rowLiteral (s : Symbol) (literal : String) : String :=
  match s.type with
  | .list (.struct _) => "QVariant::fromValue(" ++ literal ++ ")"
  | _ => literal

mutual
/-- The initializer of a symbol from an annotation value. -/
def defaultValue (x : Mapper) (s : Symbol) (v : Json) : Except Error String :=
  match s.type with
  | .struct r =>
      match x.struct "default_value" s r with
      | .error e => .error e
      | .ok (m, struct) =>
          let symbols := struct.fields.map (Symbol.ofField m struct)
          let wrap (values : List String) : String :=
            struct.name ++ "(\x7b" ++ String.intercalate ", " values ++ "\x7d)"
          match v with
          | .array items =>
              match checkCount "default_value" s symbols.length items.length with
              | .error e => .error e
              | .ok () => (defaultItems x symbols items).map wrap
          | .object members =>
              match checkCount "default_value" s symbols.length members.length with
              | .error e => .error e
              | .ok () => (defaultMembers x symbols members).map wrap
          | _ => .error (.shape "default_value" s.qualifiedName "dict or list")
  | .list item | .model item =>
      match v with
      | .array items =>
          (defaultItems x (List.replicate items.length (s.withType item)) items).map fun rows =>
            "\x7b" ++ String.intercalate ", " (rows.map (rowLiteral s)) ++ "\x7d"
      | _ => .error (.shape "default_value" s.qualifiedName "list")
  | _ => x.scalarLiteral s v
termination_by structural v

/-- The initializers of symbols from the items of an array. -/
def defaultItems (x : Mapper) (symbols : List Symbol) (items : List Json) :
    Except Error (List String) :=
  match items, symbols with
  | v :: items, s :: symbols =>
      match defaultValue x s v with
      | .error e => .error e
      | .ok literal => (defaultItems x symbols items).map (literal :: ·)
  | _, _ => .ok []
termination_by structural items

/-- The initializers of symbols from the members of an object, in their order. -/
def defaultMembers (x : Mapper) (symbols : List Symbol) (members : List (String × Json)) :
    Except Error (List String) :=
  match members, symbols with
  | p :: members, s :: symbols =>
      match defaultMember x s p with
      | .error e => .error e
      | .ok literal => (defaultMembers x symbols members).map (literal :: ·)
  | _, _ => .ok []
termination_by structural members

/-- The initializer of a symbol from the value of a member. -/
def defaultMember (x : Mapper) (s : Symbol) (p : String × Json) : Except Error String :=
  match p with
  | (_, v) => defaultValue x s v
termination_by structural p
end

/-- Whether the rows of a list or model are converted one by one. -/
def hasConvertedRows : DataType → Bool
  | .void | .primitive _ => false
  | _ => true

/-- A value under the name of its type. -/
def typed (type : String) (v : Json) : Json := .object [("type", .string type), ("value", v)]

mutual
/-- An annotation value in the form that the simulation reads: structs and enums carry the name
of their type, all else stays as it is. -/
def simulationValue (x : Mapper) (s : Symbol) (v : Json) : Except Error Json :=
  match s.type with
  | .struct r =>
      match x.struct "simulationData" s r with
      | .error e => .error e
      | .ok (m, struct) =>
          let symbols := struct.fields.map (Symbol.ofField m struct)
          let wrap (values : List Json) : Json := typed struct.name (.array values)
          match v with
          | .array items =>
              match checkCount "simulationData" s symbols.length items.length with
              | .error e => .error e
              | .ok () => (simulationItems x symbols items).map wrap
          | .object members =>
              match checkCount "simulationData" s symbols.length members.length with
              | .error e => .error e
              | .ok () => (simulationMembers x symbols members).map wrap
          | _ => .error (.shape "simulationData" s.qualifiedName "dict or list")
  | .enum _ | .flag _ =>
      (x.enumModuleName "simulationData" s).map fun name =>
        typed "enum" (.string (x.enumValue v.plain name))
  | .list item | .model item =>
      match v with
      | .array items =>
          if hasConvertedRows item then
            (simulationItems x (List.replicate items.length (s.withType item)) items).map .array
          else .ok v
      | _ => .ok v
  | _ => .ok v
termination_by structural v

/-- The converted items of an array. -/
def simulationItems (x : Mapper) (symbols : List Symbol) (items : List Json) :
    Except Error (List Json) :=
  match items, symbols with
  | v :: items, s :: symbols =>
      match simulationValue x s v with
      | .error e => .error e
      | .ok value => (simulationItems x symbols items).map (value :: ·)
  | _, _ => .ok []
termination_by structural items

/-- The converted values of the members of an object, in their order. -/
def simulationMembers (x : Mapper) (symbols : List Symbol) (members : List (String × Json)) :
    Except Error (List Json) :=
  match members, symbols with
  | p :: members, s :: symbols =>
      match simulationMember x s p with
      | .error e => .error e
      | .ok value => (simulationMembers x symbols members).map (value :: ·)
  | _, _ => .ok []
termination_by structural members

/-- The converted value of a member. -/
def simulationMember (x : Mapper) (s : Symbol) (p : String × Json) : Except Error Json :=
  match p with
  | (_, v) => simulationValue x s v
termination_by structural p
end

/-- The converted entries of a mapping for some zones, and the one for all others. -/
def zoned (convert : Json → Except Error Json) (ms : Members) (zones : List String) :
    Except Error Members :=
  (zones ++ ["="]).foldlM (fun out zone =>
    match Members.get? zone ms with
    | some v => (convert v).map fun value => Members.set zone value out
    | none => .ok out) []

/-- One entry of the simulation of a property. -/
def simulationEntry (x : Mapper) (zones : List String) (s : Symbol) (key : String) (v : Json) :
    Except Error Json :=
  let convert (v : Json) : Except Error Json :=
    if key = "unsupported" then .ok v else x.simulationValue s v
  match v with
  | .object ms =>
      if zones.isEmpty then convert v else (zoned convert ms zones).map .object
  | v => convert v

/-- The simulation data of an interface: its own entries, overlaid with those of its properties. -/
def interfaceData (x : Mapper) (m : Module) (i : Interface) : Except Error Members :=
  i.properties.foldlM (fun data p =>
    match p.config.simulator with
    | none => .ok data
    | some simulation => do
        let old := match Members.get? p.name data with
          | some (.object ms) => ms
          | _ => []
        let entries ← simulation.entries.foldlM (fun entries (key, v) => do
          let value ← x.simulationEntry i.config.zones (.ofProperty m i p) key v
          return Members.set key value entries) old
        return Members.set p.name (.object entries) data)
    (i.config.simulator.getD [])

/-- The simulation data of a module, interface by interface. -/
def simulationMembersOf (x : Mapper) (m : Module) : Except Error Members :=
  m.interfaces.foldlM (fun data i => do
    return Members.set i.name (.object (← x.interfaceData m i)) data) []

/-- The simulation data of a module as indented text. -/
def simulationData (x : Mapper) (m : Module) : Except Error String := do
  return (Json.object (← x.simulationMembersOf m)).prettyText

end Mapper

end Spelling

end Stencil
