import Stencil.Document.System
import Stencil.Proofs.Fallible

/-!
# The spellings in a document

A document is read by reading the spellings of types in it, one after another.  It
is refused for the first of them that stands for no type, and what it is read as
depends on what they stand for.
-/

namespace Stencil.Document

/-! ## Spellings in reading order -/

/-- The spellings of types in an operation. -/
def Operation.spellings (o : Operation) : List String :=
  o.type :: o.parameters.map (·.type)

/-- The spellings of types in a signal. -/
def Signal.spellings (s : Signal) : List String :=
  s.parameters.map (·.type)

/-- The spellings of types in an interface. -/
def Interface.spellings (i : Interface) : List String :=
  i.properties.map (·.type) ++ i.operations.flatMap Operation.spellings
    ++ i.signals.flatMap Signal.spellings

/-- The spellings of types in a struct. -/
def Struct.spellings (s : Struct) : List String :=
  s.fields.map (·.type)

/-- The spellings of types in a document. -/
def spellings (d : Document) : List String :=
  d.interfaces.flatMap Interface.spellings ++ d.structs.flatMap Struct.spellings

/-! ## The first failure -/

/-- The error of the first spelling that stands for no type. -/
def Reading.refusal? (r : Reading) (spellings : List String) : Option Error :=
  spellings.findSome? fun spelling => failure? (r.type spelling)

variable {r : Reading}

theorem Reading.refusal?_append (r : Reading) (xs ys : List String) :
    r.refusal? (xs ++ ys) = (r.refusal? xs).or (r.refusal? ys) :=
  List.findSome?_append

theorem Reading.refusal?_singleton (r : Reading) (spelling : String) :
    r.refusal? [spelling] = failure? (r.type spelling) :=
  List.findSome?_singleton

/-- Entries that are refused for their spellings are refused for the first one in all of them. -/
theorem failure?_entries {α β : Type} {f : α → Except Error β} {spellings : α → List String}
    (h : ∀ x, failure? (f x) = r.refusal? (spellings x)) (xs : List α) :
    failure? (xs.mapM f) = r.refusal? (xs.flatMap spellings) := by
  rw [failure?_mapM]
  induction xs with
  | nil => rfl
  | cons x rest ih =>
      rw [List.findSome?_cons, List.flatMap_cons, r.refusal?_append, h, ih]
      cases r.refusal? (spellings x) <;> rfl

/-- Entries with one spelling each. -/
theorem failure?_typed {α β : Type} {f : α → Except Error β} {spelling : α → String}
    (h : ∀ x, failure? (f x) = failure? (r.type (spelling x))) (xs : List α) :
    failure? (xs.mapM f) = r.refusal? (xs.map spelling) := by
  rw [failure?_mapM, Reading.refusal?, List.findSome?_map]
  exact congrArg (xs.findSome? ·) (funext h)

theorem failure?_parameter (p : Parameter) : failure? (r.parameter p) = failure? (r.type p.type) :=
  failure?_bind_pure (r.type p.type) _

theorem failure?_property (p : Property) : failure? (r.property p) = failure? (r.type p.type) :=
  failure?_bind_pure (r.type p.type) _

theorem failure?_field (f : Field) : failure? (r.field f) = failure? (r.type f.type) :=
  failure?_bind_pure (r.type f.type) _

theorem failure?_operation (o : Operation) : failure? (r.operation o) = r.refusal? o.spellings := by
  have hparameters := failure?_typed (r := r) failure?_parameter o.parameters
  rw [Operation.spellings, ← List.singleton_append, r.refusal?_append, ← hparameters,
    r.refusal?_singleton]
  exact failure?_bind fun _ _ => failure?_bind_pure (o.parameters.mapM r.parameter) _

theorem failure?_signal (s : Signal) : failure? (r.signal s) = r.refusal? s.spellings := by
  rw [Signal.spellings, ← failure?_typed failure?_parameter]
  exact failure?_bind_pure (s.parameters.mapM r.parameter) _

theorem failure?_interface (i : Interface) : failure? (r.interface i) = r.refusal? i.spellings := by
  have hproperties := failure?_typed (r := r) failure?_property i.properties
  have hoperations := failure?_entries (r := r) failure?_operation i.operations
  have hsignals := failure?_entries (r := r) failure?_signal i.signals
  rw [Interface.spellings, r.refusal?_append, r.refusal?_append, ← hproperties, ← hoperations,
    ← hsignals, Option.or_assoc]
  refine failure?_bind fun _ _ => failure?_bind fun _ _ => ?_
  exact failure?_bind_pure (i.signals.mapM r.signal) _

theorem failure?_struct (s : Struct) : failure? (r.struct s) = r.refusal? s.spellings := by
  rw [Struct.spellings, ← failure?_typed failure?_field]
  exact failure?_bind_pure (s.fields.mapM r.field) _

/-- A document is refused for the first of its spellings that stands for no type. -/
theorem failure?_contents (scope : Scope) (s : Source) :
    failure? (contents scope s) =
      Reading.refusal? ⟨scope, s.origin⟩ s.document.spellings := by
  let r : Reading := ⟨scope, s.origin⟩
  have hinterfaces := failure?_entries (r := r) failure?_interface s.document.interfaces
  have hstructs := failure?_entries (r := r) failure?_struct s.document.structs
  rw [spellings, Reading.refusal?_append, ← hinterfaces, ← hstructs]
  exact failure?_bind fun _ _ => failure?_bind_pure (s.document.structs.mapM r.struct) _

/-- Every spelling in a document that is read stands for a type. -/
theorem exists_type_of_contents {scope : Scope} {s : Source} {c : Contents}
    (h : contents scope s = .ok c) {spelling : String} (hspelling : spelling ∈ s.document.spellings) :
    ∃ t, Reading.type ⟨scope, s.origin⟩ spelling = .ok t := by
  have hnone : failure? (contents scope s) = none := failure?_eq_none.mpr ⟨c, h⟩
  rw [failure?_contents] at hnone
  exact failure?_eq_none.mp (List.findSome?_eq_none_iff.mp hnone spelling hspelling)

/-! ## Readings that agree -/

section Congruence

variable {r' : Reading}

theorem parameter_congr {p : Parameter} (h : r.type p.type = r'.type p.type) :
    r.parameter p = r'.parameter p := by
  unfold Reading.parameter
  rw [h]

theorem property_congr {p : Property} (h : r.type p.type = r'.type p.type) :
    r.property p = r'.property p := by
  unfold Reading.property
  rw [h]

theorem field_congr {f : Field} (h : r.type f.type = r'.type f.type) :
    r.field f = r'.field f := by
  unfold Reading.field
  rw [h]

theorem parameters_congr {ps : List Parameter}
    (h : ∀ spelling ∈ ps.map (·.type), r.type spelling = r'.type spelling) :
    ps.mapM r.parameter = ps.mapM r'.parameter :=
  mapM_congr fun _ hp => parameter_congr (h _ (List.mem_map_of_mem hp))

theorem operation_congr {o : Operation}
    (h : ∀ spelling ∈ o.spellings, r.type spelling = r'.type spelling) :
    r.operation o = r'.operation o := by
  obtain ⟨hresult, hparameters⟩ := List.forall_mem_cons.mp h
  unfold Reading.operation
  rw [hresult, parameters_congr hparameters]

theorem signal_congr {s : Signal}
    (h : ∀ spelling ∈ s.spellings, r.type spelling = r'.type spelling) :
    r.signal s = r'.signal s := by
  unfold Reading.signal
  rw [parameters_congr h]

theorem interface_congr {i : Interface}
    (h : ∀ spelling ∈ i.spellings, r.type spelling = r'.type spelling) :
    r.interface i = r'.interface i := by
  obtain ⟨h, hsignals⟩ := List.forall_mem_append.mp h
  obtain ⟨hproperties, hoperations⟩ := List.forall_mem_append.mp h
  have properties : i.properties.mapM r.property = i.properties.mapM r'.property :=
    mapM_congr fun p hp => property_congr (hproperties _ (List.mem_map_of_mem hp))
  have operations : i.operations.mapM r.operation = i.operations.mapM r'.operation :=
    mapM_congr fun o ho => operation_congr fun spelling hspelling =>
      hoperations spelling (List.mem_flatMap.mpr ⟨o, ho, hspelling⟩)
  have signals : i.signals.mapM r.signal = i.signals.mapM r'.signal :=
    mapM_congr fun s hs => signal_congr fun spelling hspelling =>
      hsignals spelling (List.mem_flatMap.mpr ⟨s, hs, hspelling⟩)
  unfold Reading.interface
  rw [properties, operations, signals]

theorem struct_congr {s : Struct}
    (h : ∀ spelling ∈ s.spellings, r.type spelling = r'.type spelling) :
    r.struct s = r'.struct s := by
  have fields : s.fields.mapM r.field = s.fields.mapM r'.field :=
    mapM_congr fun f hf => field_congr (h _ (List.mem_map_of_mem hf))
  unfold Reading.struct
  rw [fields]

/-- A document is read alike if each of its spellings is. -/
theorem contents_congr {a b : Scope} {s : Source}
    (h : ∀ spelling ∈ s.document.spellings,
      Reading.type ⟨a, s.origin⟩ spelling = Reading.type ⟨b, s.origin⟩ spelling) :
    contents a s = contents b s := by
  obtain ⟨hinterfaces, hstructs⟩ := List.forall_mem_append.mp h
  have interfaces : s.document.interfaces.mapM (Reading.interface ⟨a, s.origin⟩) =
      s.document.interfaces.mapM (Reading.interface ⟨b, s.origin⟩) :=
    mapM_congr fun i hi => interface_congr fun spelling hspelling =>
      hinterfaces spelling (List.mem_flatMap.mpr ⟨i, hi, hspelling⟩)
  have structs : s.document.structs.mapM (Reading.struct ⟨a, s.origin⟩) =
      s.document.structs.mapM (Reading.struct ⟨b, s.origin⟩) :=
    mapM_congr fun x hx => struct_congr fun spelling hspelling =>
      hstructs spelling (List.mem_flatMap.mpr ⟨x, hx, hspelling⟩)
  unfold contents
  dsimp only
  rw [interfaces, structs]

end Congruence

end Stencil.Document
