import Stencil.Proofs.Fallible
import Stencil.Spelling.Types

/-!
# Declarations beside result types and default values

A type is spelled as the result of an operation, as a parameter, as a zero value and as
a parameter with a default argument.  A parameter is the result type with the name of
the symbol behind it, and a default argument is the zero value.  Two kinds of types have
default arguments of their own: that of a real number is called without the number, and an
interface, which has no zero value, is called like a struct.
-/

namespace Stencil.Spelling

open Model (DataType Module Struct Symbol SymbolRef System)

/-- The declaration of a parameter by the spelling of its type.  What may be long to copy is passed
by reference, and a model is a pointer, whose star stands beside the name. -/
def declaration (result name : String) : DataType → String
  | .primitive .string | .primitive .var | .list _ | .struct _ | .interface _ =>
      "const " ++ result ++ " &" ++ name
  | .model _ => result ++ name
  | _ => result ++ " " ++ name

namespace Mapper

variable {x : Mapper} {s : Symbol}

/-! ## What a spelling is, whoever asks for it -/

theorem enumType_toOption (filter : String) (r : SymbolRef) :
    (x.enumType filter s r).toOption =
      (x.system.enum? r).map fun p => enumScope p.1 ++ "::" ++ flagTypeOf p.2 := by
  unfold Mapper.enumType Mapper.enum
  cases x.system.enum? r <;> rfl

theorem classType_toOption (filter : String) (r : SymbolRef) :
    (x.classType filter s r).toOption =
      (x.system.module? r.module).map fun m => namespacePrefix m ++ r.name := by
  unfold Mapper.classType Mapper.module
  cases x.system.module? r.module <;> rfl

theorem modelType_toOption (filter filter' : String) (item : DataType) :
    (modelType filter s item).toOption = (modelType filter' s item).toOption := by
  cases item <;> rfl

/-! ## Parameters -/

/-- A parameter is declared if its type is spelled as a result, and by that spelling. -/
theorem parameterType_toOption (x : Mapper) (s : Symbol) :
    (x.parameterType s).toOption =
      (x.returnType s).toOption.map fun result => declaration result s.name s.type := by
  unfold Mapper.parameterType Mapper.returnType
  cases ht : s.type with
  | void | map item | list item => rfl
  | primitive p => cases p <;> rfl
  | enum r | flag r => simp only [toOption_map, enumType_toOption]; rfl
  | struct r | interface r => simp only [toOption_map, classType_toOption]; rfl
  | model item =>
      simp only [toOption_map, modelType_toOption "parameter_type" "return_type" item]
      rfl

/-- A parameter is declared from its result type, and not at all without one. -/
theorem parameterType_eq_ok {p : String} :
    x.parameterType s = .ok p ↔
      ∃ result, x.returnType s = .ok result ∧ declaration result s.name s.type = p := by
  rw [← toOption_eq_some, parameterType_toOption, Option.map_eq_some_iff]
  simp only [toOption_eq_some]

/-! ## Default arguments -/

/-- The default argument of a parameter: the zero value, but for the types with one of their own. -/
def defaultArgument (x : Mapper) (s : Symbol) : Option String :=
  match s.type with
  | .primitive .real => some "qreal()"
  | .interface r => (x.system.module? r.module).map fun m => namespacePrefix m ++ r.name ++ "()"
  | _ => (x.defaultTypeValue s).toOption

theorem defaultArgument_eq {v : String} (ht : s.type ≠ .primitive .real)
    (hv : x.defaultTypeValue s = .ok v) : x.defaultArgument s = some v := by
  unfold Mapper.defaultArgument
  split
  · exact absurd ‹_› ht
  · rename_i r hr
    unfold Mapper.defaultTypeValue at hv
    rw [hr] at hv
    cases hv
  · exact toOption_eq_some.mpr hv

theorem append_argument (p argument : String) : p ++ ("=" ++ argument) = p ++ "=" ++ argument :=
  String.append_assoc.symm

/-- A parameter with a default argument is the parameter, an equals sign and the argument. -/
theorem parameterTypeDefault_toOption (x : Mapper) (s : Symbol) :
    (x.parameterTypeDefault s).toOption =
      (x.parameterType s).toOption.bind fun p =>
        (x.defaultArgument s).map fun v => p ++ "=" ++ v := by
  unfold Mapper.parameterTypeDefault Mapper.parameterType Mapper.defaultArgument
    Mapper.defaultTypeValue
  cases ht : s.type with
  | void | map item => rfl
  | list item => exact congrArg some (append_argument _ "QVariantList()")
  | primitive p =>
      cases p
      case int | bool => rfl
      case string => exact congrArg some (append_argument _ "QString()")
      case var => exact congrArg some (append_argument _ "QVariant()")
      case real => exact congrArg some (append_argument _ "qreal()")
  | enum r | flag r =>
      simp only [toOption_map, toOption_bind, enumType_toOption]
      cases x.system.enum? r with
      | none => rfl
      | some p => exact Option.map_eq_bind.symm
  | struct r | interface r =>
      simp only [toOption_map, classType_toOption]
      cases x.system.module? r.module with
      | none => rfl
      | some m => exact congrArg some String.append_assoc
  | model item =>
      simp only [toOption_map, modelType_toOption "parameter_type_default" "parameter_type" item]
      cases (modelType "parameter_type" s item).toOption with
      | none => rfl
      | some result => exact congrArg some (append_argument _ "nullptr")

/-- Result types and parameters are spelled for the same symbols, and a parameter by the result
type.  A parameter with a default argument is the parameter with the zero value behind an equals
sign, but for real numbers, whose default argument is called without a number. -/
theorem declarations_agree (x : Mapper) (s : Symbol) :
    ((∃ p, x.parameterType s = .ok p) ↔ ∃ result, x.returnType s = .ok result) ∧
    (∀ result, x.returnType s = .ok result →
      x.parameterType s = .ok (declaration result s.name s.type)) ∧
    (∀ p v, x.parameterType s = .ok p → x.defaultTypeValue s = .ok v →
      s.type ≠ .primitive .real → x.parameterTypeDefault s = .ok (p ++ "=" ++ v)) ∧
    (s.type = .primitive .real →
      x.parameterTypeDefault s = .ok ("qreal " ++ s.name ++ "=qreal()")) := by
  refine ⟨⟨?_, ?_⟩, ?_, ?_, ?_⟩
  · rintro ⟨p, hp⟩
    obtain ⟨result, hresult, -⟩ := parameterType_eq_ok.mp hp
    exact ⟨result, hresult⟩
  · rintro ⟨result, hresult⟩
    exact ⟨_, parameterType_eq_ok.mpr ⟨result, hresult, rfl⟩⟩
  · exact fun result hresult => parameterType_eq_ok.mpr ⟨result, hresult, rfl⟩
  · intro p v hp hv ht
    rw [← toOption_eq_some, parameterTypeDefault_toOption, toOption_eq_some.mpr hp,
      defaultArgument_eq ht hv]
    rfl
  · intro ht
    unfold Mapper.parameterTypeDefault
    rw [ht]

end Mapper

/-! ## A struct in a namespace -/

namespace Sample

/-- The field of an interface, of a type that is declared beside it. -/
def corner : Model.Property where
  name := "corner"
  type := .struct ⟨"shop.map", "Point"⟩

/-- An interface with that field. -/
def chart : Model.Interface where
  name := "Chart"
  properties := [corner]

/-- A module that is placed in a namespace of its own. -/
def atlas : Module where
  name := "shop.map"
  version := ⟨1, 0⟩
  config := { placement := .explicit "acme" }
  structs := [{ name := "Point", fields := [{ name := "x", type := .primitive .int }] }]
  interfaces := [chart]

end Sample

/-- A struct is passed by reference, and its default argument is a call without arguments. -/
theorem declarations_agree_corner :
    let x : Mapper := ⟨⟨[Sample.atlas]⟩, ""⟩
    let s := Symbol.ofProperty Sample.atlas Sample.chart Sample.corner
    x.returnType s = .ok "::acme::Point" ∧
    x.parameterType s = .ok "const ::acme::Point &corner" ∧
    x.parameterTypeDefault s = .ok "const ::acme::Point &corner=::acme::Point()" := by
  intro x s
  have hresult : x.returnType s = .ok "::acme::Point" := by decide +kernel
  have hzero : x.defaultTypeValue s = .ok "::acme::Point()" := by decide +kernel
  obtain ⟨-, hparameter, hdefault, -⟩ := Mapper.declarations_agree x s
  have hdeclared := hparameter _ hresult
  exact ⟨hresult, hdeclared, hdefault _ _ hdeclared hzero nofun⟩

end Stencil.Spelling
