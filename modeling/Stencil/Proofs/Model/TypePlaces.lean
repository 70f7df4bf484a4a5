import Mathlib.Data.List.Basic
import Stencil.Model.System

/-!
# Places of types

Types stand at the properties, the operations and the parameters of interfaces and at
the fields of structs.  A place is given by the indexes that lead to it, and places
are ordered as they are declared; the type of an operation, which is that of its
result, comes after those of its parameters.

The list of all types in that order is put together from the lists for each
declaration, so that its lemmas are about lists of lists with indexes first.
-/

namespace Stencil

/-! ## Lists of lists with indexes -/

section Indexed

variable {α β γ : Type} {f : Nat → α → List β}

/-- What there is for each element of a list and its index. -/
def indexed (f : Nat → α → List β) (xs : List α) : List β :=
  xs.zipIdx.flatMap fun x => f x.2 x.1

theorem mem_indexed {xs : List α} {y : β} :
    y ∈ indexed f xs ↔ ∃ k x, xs[k]? = some x ∧ y ∈ f k x := by
  unfold indexed
  rw [List.mem_flatMap]
  constructor
  · rintro ⟨⟨x, k⟩, hx, hy⟩
    exact ⟨k, x, List.mem_zipIdx_iff_getElem?.mp hx, hy⟩
  · rintro ⟨k, x, hx, hy⟩
    exact ⟨(x, k), List.mem_zipIdx_iff_getElem?.mpr hx, hy⟩

theorem mem_indexed_of {xs : List α} {y : β} {k : Nat} {x : α} (hx : xs[k]? = some x)
    (hy : y ∈ f k x) : y ∈ indexed f xs :=
  mem_indexed.mpr ⟨k, x, hx, hy⟩

/-- What does not depend on the indexes can be listed without them. -/
theorem map_indexed {g : β → γ} {plain : α → List γ} (h : ∀ k x, (f k x).map g = plain x)
    (xs : List α) : (indexed f xs).map g = xs.flatMap plain := by
  have hplain : (indexed f xs).map g = xs.zipIdx.flatMap fun x => plain x.1 := by
    rw [indexed, List.map_flatMap]
    exact List.flatMap_congr fun x _ => h x.2 x.1
  rw [hplain, ← List.flatMap_map, List.zipIdx_map_fst]

/-- The list is in order if each of its parts is, and the parts follow one another. -/
theorem pairwise_indexed {r : β → β → Prop} {xs : List α} (hparts : ∀ k x, (f k x).Pairwise r)
    (hacross : ∀ k l x y, k < l → ∀ a ∈ f k x, ∀ b ∈ f l y, r a b) :
    (indexed f xs).Pairwise r := by
  unfold indexed
  rw [List.pairwise_flatMap]
  refine ⟨fun x _ => hparts x.2 x.1, ?_⟩
  have hindexes : xs.zipIdx.Pairwise fun x y => x.2 < y.2 := by
    apply List.pairwise_map.mp
    rw [List.zipIdx_map_snd]
    exact List.pairwise_lt_range'
  exact hindexes.imp fun hlt => hacross _ _ _ _ hlt

end Indexed

namespace Model

/-! ## Places -/

/-- Where a type stands, with the index of its module first. -/
inductive TypePlace where
  | property (m i p : Nat)
  | operationParameter (m i o p : Nat)
  | result (m i o : Nat)
  | signalParameter (m i s p : Nat)
  | field (m s f : Nat)
  deriving DecidableEq, Repr

/-- What the types at such places are called in reports. -/
def TypePlace.kind : TypePlace → String
  | .property .. => "Properties"
  | .operationParameter .. | .signalParameter .. => "Arguments"
  | .result .. => "Return values"
  | .field .. => "Fields"

/-- Where a place stands among all others, as indexes that are compared one after the other: in a
module interfaces come before structs, in an interface properties before operations and these
before signals, and in an operation parameters before the result. -/
def TypePlace.rank : TypePlace → List Nat
  | .property m i p => [m, 0, i, 0, p]
  | .operationParameter m i o p => [m, 0, i, 1, o, 0, p]
  | .result m i o => [m, 0, i, 1, o, 1]
  | .signalParameter m i s p => [m, 0, i, 2, s, p]
  | .field m s f => [m, 1, s, f]

/-- A place that is declared before another one. -/
def TypePlace.Before (p q : TypePlace) : Prop := p.rank < q.rank

/-- A type stands at a place: the indexes lead to it from the system, one after the other. -/
inductive System.HasType (s : System) : TypePlace → DataType → Prop
  | property {k i x : Nat} {m : Module} {face : Interface} {p : Property}
      (hm : s.modules[k]? = some m) (hface : m.interfaces[i]? = some face)
      (hp : face.properties[x]? = some p) : HasType s (.property k i x) p.type
  | operationParameter {k i x j : Nat} {m : Module} {face : Interface} {o : Operation}
      {p : Parameter} (hm : s.modules[k]? = some m) (hface : m.interfaces[i]? = some face)
      (ho : face.operations[x]? = some o) (hp : o.parameters[j]? = some p) :
      HasType s (.operationParameter k i x j) p.type
  | result {k i x : Nat} {m : Module} {face : Interface} {o : Operation}
      (hm : s.modules[k]? = some m) (hface : m.interfaces[i]? = some face)
      (ho : face.operations[x]? = some o) : HasType s (.result k i x) o.type
  | signalParameter {k i x j : Nat} {m : Module} {face : Interface} {sig : Signal}
      {p : Parameter} (hm : s.modules[k]? = some m) (hface : m.interfaces[i]? = some face)
      (hsig : face.signals[x]? = some sig) (hp : sig.parameters[j]? = some p) :
      HasType s (.signalParameter k i x j) p.type
  | field {k i x : Nat} {m : Module} {struct : Struct} {f : Field}
      (hm : s.modules[k]? = some m) (hstruct : m.structs[i]? = some struct)
      (hf : struct.fields[x]? = some f) : HasType s (.field k i x) f.type

/-! ## All types in order -/

/-- The types of the elements of a list, each at the place of its index. -/
def placed {α : Type} (place : Nat → TypePlace) (type : α → DataType) (xs : List α) :
    List (TypePlace × DataType) :=
  indexed (fun k x => [(place k, type x)]) xs

theorem mem_placed {α : Type} {place : Nat → TypePlace} {type : α → DataType} {xs : List α}
    {y : TypePlace × DataType} :
    y ∈ placed place type xs ↔ ∃ k x, xs[k]? = some x ∧ y = (place k, type x) := by
  unfold placed
  simp only [mem_indexed, List.mem_singleton]

/-- The types of an operation. -/
def Operation.placedTypes (k i x : Nat) (o : Operation) : List (TypePlace × DataType) :=
  placed (.operationParameter k i x) (·.type) o.parameters ++ [(.result k i x, o.type)]

/-- The types of a signal. -/
def Signal.placedTypes (k i x : Nat) (sig : Signal) : List (TypePlace × DataType) :=
  placed (.signalParameter k i x) (·.type) sig.parameters

/-- The types of an interface. -/
def Interface.placedTypes (k i : Nat) (face : Interface) : List (TypePlace × DataType) :=
  placed (.property k i) (·.type) face.properties
    ++ (indexed (Operation.placedTypes k i) face.operations
      ++ indexed (Signal.placedTypes k i) face.signals)

/-- The types of a struct. -/
def Struct.placedTypes (k i : Nat) (struct : Struct) : List (TypePlace × DataType) :=
  placed (.field k i) (·.type) struct.fields

/-- The types of a module. -/
def Module.placedTypes (k : Nat) (m : Module) : List (TypePlace × DataType) :=
  indexed (Interface.placedTypes k) m.interfaces ++ indexed (Struct.placedTypes k) m.structs

/-- The types of a system, in the order in which they are declared. -/
def System.placedTypes (s : System) : List (TypePlace × DataType) :=
  indexed Module.placedTypes s.modules

/-- All types are listed, and nothing else is. -/
theorem System.mem_placedTypes {s : System} {p : TypePlace} {t : DataType} :
    (p, t) ∈ s.placedTypes ↔ s.HasType p t := by
  constructor
  · intro h
    obtain ⟨k, m, hm, h⟩ := mem_indexed.mp h
    rcases List.mem_append.mp h with h | h
    · obtain ⟨i, face, hface, h⟩ := mem_indexed.mp h
      rcases List.mem_append.mp h with h | h
      · obtain ⟨x, p, hp, heq⟩ := mem_placed.mp h
        cases heq
        exact .property hm hface hp
      rcases List.mem_append.mp h with h | h
      · obtain ⟨x, o, ho, h⟩ := mem_indexed.mp h
        rcases List.mem_append.mp h with h | h
        · obtain ⟨j, p, hp, heq⟩ := mem_placed.mp h
          cases heq
          exact .operationParameter hm hface ho hp
        · cases List.mem_singleton.mp h
          exact .result hm hface ho
      · obtain ⟨x, sig, hsig, h⟩ := mem_indexed.mp h
        obtain ⟨j, p, hp, heq⟩ := mem_placed.mp h
        cases heq
        exact .signalParameter hm hface hsig hp
    · obtain ⟨i, struct, hstruct, h⟩ := mem_indexed.mp h
      obtain ⟨x, f, hf, heq⟩ := mem_placed.mp h
      cases heq
      exact .field hm hstruct hf
  · intro h
    cases h with
    | property hm hface hp =>
        refine mem_indexed_of hm (List.mem_append_left _ (mem_indexed_of hface ?_))
        exact List.mem_append_left _ (mem_placed.mpr ⟨_, _, hp, rfl⟩)
    | operationParameter hm hface ho hp =>
        refine mem_indexed_of hm (List.mem_append_left _ (mem_indexed_of hface ?_))
        refine List.mem_append_right _ (List.mem_append_left _ (mem_indexed_of ho ?_))
        exact List.mem_append_left _ (mem_placed.mpr ⟨_, _, hp, rfl⟩)
    | result hm hface ho =>
        refine mem_indexed_of hm (List.mem_append_left _ (mem_indexed_of hface ?_))
        refine List.mem_append_right _ (List.mem_append_left _ (mem_indexed_of ho ?_))
        exact List.mem_append_right _ (List.mem_singleton_self _)
    | signalParameter hm hface hsig hp =>
        refine mem_indexed_of hm (List.mem_append_left _ (mem_indexed_of hface ?_))
        refine List.mem_append_right _ (List.mem_append_right _ (mem_indexed_of hsig ?_))
        exact mem_placed.mpr ⟨_, _, hp, rfl⟩
    | field hm hstruct hf =>
        refine mem_indexed_of hm (List.mem_append_right _ (mem_indexed_of hstruct ?_))
        exact mem_placed.mpr ⟨_, _, hf, rfl⟩

/-! ## The order -/

/-- Of two places that some indexes lead to, the one with the smaller next index comes first. -/
theorem TypePlace.before_of_isPrefix {p q : TypePlace} {path : List Nat} {a b : Nat}
    (hp : path ++ [a] <+: p.rank) (hq : path ++ [b] <+: q.rank) (h : a < b) : p.Before q := by
  obtain ⟨inp, hp⟩ := hp
  obtain ⟨inq, hq⟩ := hq
  change p.rank < q.rank
  rw [← hp, ← hq]
  clear hp hq
  -- the induction is on the indexes that both places have in common
  induction path with
  | nil => exact List.Lex.rel h
  | cons first rest ih => exact List.Lex.cons ih

/-- A list of places is in order, and some indexes lead to all of them. -/
structure Ordered (path : List Nat) (ys : List (TypePlace × DataType)) : Prop where
  within : ∀ y ∈ ys, path <+: y.1.rank
  sorted : ys.Pairwise fun x y => x.1.Before y.1

namespace Ordered

variable {path : List Nat} {a : Nat} {xs ys : List (TypePlace × DataType)}

theorem single (p : TypePlace) (t : DataType) (h : path <+: p.rank) : Ordered path [(p, t)] where
  within y hy := by
    cases List.mem_singleton.mp hy
    exact h
  sorted := List.pairwise_singleton _ _

theorem up (h : Ordered (path ++ [a]) ys) : Ordered path ys where
  within y hy := (List.prefix_append path [a]).trans (h.within y hy)
  sorted := h.sorted

theorem indexed {α : Type} {f : Nat → α → List (TypePlace × DataType)}
    (h : ∀ k x, Ordered (path ++ [k]) (f k x)) (xs : List α) :
    Ordered path (indexed f xs) where
  within y hy := by
    obtain ⟨k, x, -, hy⟩ := mem_indexed.mp hy
    exact (h k x).up.within y hy
  sorted := pairwise_indexed (fun k x => (h k x).sorted) fun k l x y hlt p hp q hq =>
    TypePlace.before_of_isPrefix ((h k x).within p hp) ((h l y).within q hq) hlt

theorem placed {α : Type} {place : Nat → TypePlace} (h : ∀ k, path ++ [k] <+: (place k).rank)
    (type : α → DataType) (xs : List α) : Ordered path (placed place type xs) :=
  .indexed (fun k x => .single (place k) (type x) (h k)) xs

theorem append (hxs : Ordered (path ++ [a]) xs) (hys : Ordered path ys)
    (hafter : ∀ y ∈ ys, ∃ b, a < b ∧ path ++ [b] <+: y.1.rank) : Ordered path (xs ++ ys) where
  within y hy := (List.mem_append.mp hy).elim (hxs.up.within y) (hys.within y)
  sorted := by
    refine List.pairwise_append.mpr ⟨hxs.sorted, hys.sorted, fun x hx y hy => ?_⟩
    obtain ⟨b, hlt, hy⟩ := hafter y hy
    exact TypePlace.before_of_isPrefix (hxs.within x hx) hy hlt

end Ordered

section Parts

variable (k i x : Nat)

theorem ordered_operation (o : Operation) :
    Ordered ([k, 0, i, 1] ++ [x]) (o.placedTypes k i x) := by
  have hparameters : Ordered ([k, 0, i, 1, x] ++ [0])
      (placed (.operationParameter k i x) (·.type) o.parameters) :=
    .placed (fun _ => ⟨[], rfl⟩) _ o.parameters
  have hresult : Ordered ([k, 0, i, 1, x] ++ [1]) [(.result k i x, o.type)] :=
    .single _ o.type ⟨[], rfl⟩
  exact hparameters.append hresult.up fun y hy => ⟨1, Nat.one_pos, hresult.within y hy⟩

theorem ordered_signal (sig : Signal) : Ordered ([k, 0, i, 2] ++ [x]) (sig.placedTypes k i x) :=
  .placed (fun _ => ⟨[], rfl⟩) _ sig.parameters

theorem ordered_interface (face : Interface) :
    Ordered ([k, 0] ++ [i]) (face.placedTypes k i) := by
  have hproperties : Ordered ([k, 0, i] ++ [0])
      (placed (.property k i) (·.type) face.properties) :=
    .placed (fun _ => ⟨[], rfl⟩) _ face.properties
  have hoperations : Ordered ([k, 0, i] ++ [1])
      (indexed (Operation.placedTypes k i) face.operations) :=
    .indexed (ordered_operation k i) face.operations
  have hsignals : Ordered ([k, 0, i] ++ [2]) (indexed (Signal.placedTypes k i) face.signals) :=
    .indexed (ordered_signal k i) face.signals
  have hcalls := hoperations.append hsignals.up fun y hy => ⟨2, by decide, hsignals.within y hy⟩
  refine hproperties.append hcalls fun y hy => ?_
  rcases List.mem_append.mp hy with hy | hy
  · exact ⟨1, by decide, hoperations.within y hy⟩
  · exact ⟨2, by decide, hsignals.within y hy⟩

theorem ordered_struct (struct : Struct) : Ordered ([k, 1] ++ [i]) (struct.placedTypes k i) :=
  .placed (fun _ => ⟨[], rfl⟩) _ struct.fields

theorem ordered_module (m : Module) : Ordered ([] ++ [k]) (m.placedTypes k) := by
  have hinterfaces : Ordered ([k] ++ [0]) (indexed (Interface.placedTypes k) m.interfaces) :=
    .indexed (ordered_interface k) m.interfaces
  have hstructs : Ordered ([k] ++ [1]) (indexed (Struct.placedTypes k) m.structs) :=
    .indexed (ordered_struct k) m.structs
  exact hinterfaces.append hstructs.up fun y hy => ⟨1, by decide, hstructs.within y hy⟩

end Parts

/-- The types of a system are listed in the order of their places. -/
theorem System.sorted_placedTypes (s : System) :
    s.placedTypes.Pairwise fun x y => x.1.Before y.1 :=
  (Ordered.indexed ordered_module s.modules).sorted

end Model

end Stencil
