import Stencil.Document.Source
import Stencil.Model.DataType

/-!
# What type spellings stand for

A spelling is a name, or a container with a spelling in angle brackets.  Names of
declared types are looked up in the module itself and then in its imports, in
order; a name with dots is looked up in the module before its last dot.
-/

namespace Stencil.Document

open Model (DataType Primitive SymbolRef)

/-- What a declared name stands for. -/
inductive Declared where
  | enum (flag : Bool)
  | struct
  | interface
  deriving DecidableEq, Repr

/-- The type that refers to a declaration. -/
def Declared.type : Declared → SymbolRef → DataType
  | .enum false, r => .enum r
  | .enum true, r => .flag r
  | .struct, r => .struct r
  | .interface, r => .interface r

/-- The names that a document declares; of two declarations of a name the later one counts. -/
def declarations (d : Document) : List (String × Declared) :=
  d.enums.map (fun e => (e.name, Declared.enum e.flag))
    ++ d.structs.map (fun s => (s.name, Declared.struct))
    ++ d.interfaces.map (fun i => (i.name, Declared.interface))

/-- The names declared in each module. -/
def Symbols := String → String → Option Declared

/-- The names that documents declare. -/
def symbols (docs : List Document) : Symbols := fun module name =>
  (((docs.filter (·.module = module)).flatMap declarations).reverse).lookup name

/-- The view of one module on the declared names. -/
structure Scope where
  symbols : Symbols
  module : String
  imports : List String

/-- The declaration of a name, and the module that it is found in. -/
def Scope.lookup? (s : Scope) (spelling : String) : Option (String × Declared) :=
  match Text.cutLast '.' spelling with
  | some (module, name) => (s.symbols module name).map (module, ·)
  | none =>
      (s.module :: s.imports).findSome? fun module => (s.symbols module spelling).map (module, ·)

/-- Why a spelling stands for no type. -/
inductive TypeFault where
  | malformed (spelling : String)
  | unknownContainer (name spelling : String)
  | unknown (name : String)
  deriving DecidableEq, Repr

/-- The container of a name. -/
def container? (name : String) : Option (DataType → DataType) :=
  if name = "list" then some .list
  else if name = "model" then some .model
  else if name = "map" then some .map
  else none

/-- The type that a name without brackets stands for. -/
def Scope.named (s : Scope) (name : String) : Except TypeFault DataType :=
  if name = "void" then .ok .void
  else
    match Primitive.ofName? name with
    | some p => .ok (.primitive p)
    | none =>
        match s.lookup? name with
        | some (module, d) => .ok (d.type ⟨module, Text.afterLast '.' name⟩)
        | none => .error (.unknown name)

theorem length_trimList_le (p : Char → Bool) (cs : List Char) :
    (Text.trimList p cs).length ≤ cs.length := by
  unfold Text.trimList
  have h₁ := (List.dropWhile_sublist p (l := (cs.dropWhile p).reverse)).length_le
  have h₂ := (List.dropWhile_sublist p (l := cs)).length_le
  simp at h₁ ⊢
  omega

theorem length_cutFirstList {sep : Char} {cs a b : List Char}
    (h : Text.cutFirstList sep cs = some (a, b)) : a.length + b.length + 1 = cs.length := by
  induction cs generalizing a with
  | nil => simp [Text.cutFirstList] at h
  | cons c rest ih =>
      unfold Text.cutFirstList at h
      split at h
      · simp at h
        obtain ⟨rfl, rfl⟩ := h
        simp
      · simp at h
        obtain ⟨a', h', rfl⟩ := h
        have := ih h'
        simp
        omega

/-- The type that a spelling stands for. -/
def Scope.resolveList (s : Scope) (cs : List Char) : Except TypeFault DataType :=
  let spelling := Text.trimList Text.isBlank cs
  match _cut : Text.cutFirstList '<' spelling with
  | none => s.named (String.ofList spelling)
  | some (front, back) =>
      match _drop : Text.dropSuffixList ['>'] back with
      | none => .error (.malformed (String.ofList spelling))
      | some inner =>
          match s.resolveList inner with
          | .error f => .error f
          | .ok item =>
              let name := String.ofList (Text.trimList Text.isBlank front)
              match container? name with
              | some wrap => .ok (wrap item)
              | none => .error (.unknownContainer name (String.ofList spelling))
termination_by cs.length
decreasing_by
  have h₁ := congrArg List.length (Text.dropSuffixList_eq_some_iff.1 _drop)
  have h₂ := length_cutFirstList _cut
  have h₃ : spelling.length ≤ cs.length := length_trimList_le Text.isBlank cs
  simp at h₁
  omega

/-- The type that a spelling stands for. -/
def Scope.resolve (s : Scope) (spelling : String) : Except TypeFault DataType :=
  s.resolveList spelling.toList

end Stencil.Document
