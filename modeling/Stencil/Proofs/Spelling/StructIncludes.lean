import Mathlib.Data.List.Perm.Basic
import Stencil.Proofs.Sorted
import Stencil.Spelling.Names

/-!
# Includes of structs

A struct or interface includes the structs that its members hold directly, that is without a list
or another container between.  Which these are is said place by place.  The include lines are in
lower case before they are sorted, so names that differ in case alone come to one line.
-/

namespace Stencil

/-! ## Lists in another order -/

section Shuffles

variable {α β : Type} {r : α → α → Prop} {xs ys : List α}

/-- A list in another order, with each element in a form that the relation allows. -/
def Shuffled (r : α → α → Prop) (xs ys : List α) : Prop :=
  ∃ zs, xs.Perm zs ∧ List.Forall₂ r zs ys

/-- What the elements come to is in another order too, if each form comes to the same. -/
theorem Shuffled.flatMap {f : α → List β} (h : Shuffled r xs ys)
    (hforms : ∀ x y, r x y → (f x).Perm (f y)) : (xs.flatMap f).Perm (ys.flatMap f) := by
  obtain ⟨zs, hperm, hzs⟩ := h
  have hsame : List.Forall₂ List.Perm (zs.map f) (ys.map f) := by
    rw [List.forall₂_map_left_iff, List.forall₂_map_right_iff]
    exact hzs.imp hforms
  calc xs.flatMap f
    _ |>.Perm (zs.flatMap f) := hperm.flatMap_right f
    _ |>.Perm (ys.flatMap f) := List.Perm.flatten_congr hsame

end Shuffles

namespace Model

/-! ## What members hold -/

/-- A type that a member of a struct or interface holds directly. -/
inductive Node.Holds : Node → DataType → Prop
  | field {m : Module} {s : Struct} {f : Field} (hf : f ∈ s.fields) : Holds (.struct m s) f.type
  | property {m : Module} {i : Interface} {p : Property} (hp : p ∈ i.properties) :
      Holds (.interface m i) p.type
  | operationParameter {m : Module} {i : Interface} {o : Operation} {p : Parameter}
      (ho : o ∈ i.operations) (hp : p ∈ o.parameters) : Holds (.interface m i) p.type
  | result {m : Module} {i : Interface} {o : Operation} (ho : o ∈ i.operations) :
      Holds (.interface m i) o.type
  | signalParameter {m : Module} {i : Interface} {s : Signal} {p : Parameter}
      (hs : s ∈ i.signals) (hp : p ∈ s.parameters) : Holds (.interface m i) p.type

theorem Node.Holds.kind_eq {n : Node} {t : DataType} (h : n.Holds t) :
    n.kind = "Struct" ∨ n.kind = "Interface" := by
  cases h with
  | field hf => exact .inl rfl
  | _ => exact .inr rfl

/-- Operations of one type with the same parameters up to their order. -/
structure Operation.Reordered (o other : Operation) : Prop where
  type : o.type = other.type
  parameters : o.parameters.Perm other.parameters

/-- Signals with the same parameters up to their order. -/
def Signal.Reordered (s other : Signal) : Prop := s.parameters.Perm other.parameters

/-- Structs or interfaces with the same members up to their order, and the same parameters of each
up to theirs.  Nothing is said of the modules around them. -/
inductive Node.Reordered : Node → Node → Prop
  | struct {m n : Module} {s other : Struct} (fields : s.fields.Perm other.fields) :
      Reordered (.struct m s) (.struct n other)
  | interface {m n : Module} {i other : Interface}
      (properties : i.properties.Perm other.properties)
      (operations : Shuffled Operation.Reordered i.operations other.operations)
      (signals : Shuffled Signal.Reordered i.signals other.signals) :
      Reordered (.interface m i) (.interface n other)

end Model

namespace Spelling

open Model (DataType Node SymbolRef Property Operation Parameter Signal Interface)

/-! ## Include lines -/

section Includes

variable {n other : Node} {t : DataType} {line : String}

theorem mem_mentionedTypes : t ∈ mentionedTypes n ↔ n.Holds t := by
  constructor
  · intro h
    cases n with
    | struct m s =>
        obtain ⟨f, hf, rfl⟩ := List.mem_map.mp h
        exact .field hf
    | interface m i =>
        rw [mentionedTypes, List.mem_append, List.mem_append, List.mem_map, List.mem_flatMap,
          List.mem_flatMap] at h
        obtain (⟨p, hp, rfl⟩ | ⟨o, ho, htype⟩) | ⟨s, hs, htype⟩ := h
        · exact .property hp
        · rcases List.mem_append.mp htype with hparameter | hresult
          · obtain ⟨p, hp, rfl⟩ := List.mem_map.mp hparameter
            exact .operationParameter ho hp
          · rw [List.mem_singleton.mp hresult]
            exact .result ho
        · obtain ⟨p, hp, rfl⟩ := List.mem_map.mp htype
          exact .signalParameter hs hp
    | _ => cases h
  · intro h
    cases h with
    | field hf => exact List.mem_map_of_mem hf
    | property hp =>
        exact List.mem_append_left _ (List.mem_append_left _ (List.mem_map_of_mem hp))
    | operationParameter ho hp =>
        refine List.mem_append_left _ (List.mem_append_right _ (List.mem_flatMap.mpr ⟨_, ho, ?_⟩))
        exact List.mem_append_left _ (List.mem_map_of_mem hp)
    | result ho =>
        refine List.mem_append_left _ (List.mem_append_right _ (List.mem_flatMap.mpr ⟨_, ho, ?_⟩))
        exact List.mem_append_right _ List.mem_cons_self
    | signalParameter hs hp =>
        exact List.mem_append_right _ (List.mem_flatMap.mpr ⟨_, hs, List.mem_map_of_mem hp⟩)

theorem mem_structIncludes :
    line ∈ structIncludes n ↔ ∃ r, n.Holds (.struct r) ∧ line = includeLine r.name := by
  unfold structIncludes
  rw [mem_sortTexts, List.mem_filterMap]
  constructor
  · rintro ⟨t, ht, hline⟩
    cases t with
    | struct r => exact ⟨r, mem_mentionedTypes.mp ht, (Option.some.inj hline).symm⟩
    | _ => cases hline
  · rintro ⟨r, hr, rfl⟩
    exact ⟨.struct r, mem_mentionedTypes.mpr hr, rfl⟩

/-- Members in another order mention the same types in another order. -/
theorem perm_mentionedTypes (h : n.Reordered other) :
    (mentionedTypes n).Perm (mentionedTypes other) := by
  cases h with
  | struct hfields => exact hfields.map _
  | interface hproperties hoperations hsignals =>
      refine ((hproperties.map _).append (hoperations.flatMap fun o x hox => ?_)).append
        (hsignals.flatMap fun s x hsx => hsx.map _)
      rw [hox.type]
      exact (hox.parameters.map _).append_right _

theorem structIncludes_eq_of_reordered (h : n.Reordered other) :
    structIncludes other = structIncludes n :=
  sortTexts_congr fun _ => ((perm_mentionedTypes h).filterMap _).mem_iff.symm

theorem structIncludes_eq_nil (hstruct : n.kind ≠ "Struct") (hinterface : n.kind ≠ "Interface") :
    structIncludes n = [] := by
  refine List.eq_nil_iff_forall_not_mem.mpr fun line hline => ?_
  obtain ⟨r, hr, -⟩ := mem_structIncludes.mp hline
  exact hr.kind_eq.elim hstruct hinterface

end Includes

/-- The include lines of a node are in increasing order, so none stands twice, and they are just the
lines, in lower case, for the names of the structs that its members hold directly.  The order of
its members does not matter, and only structs and interfaces have any. -/
theorem structIncludes_exact (n : Node) :
    (structIncludes n).Pairwise (· < ·) ∧
    (∀ line, line ∈ structIncludes n ↔
      ∃ r : SymbolRef, n.Holds (.struct r) ∧
        line = Text.lowercase ("#include \"" ++ r.name ++ ".h\"")) ∧
    (structIncludes n).Nodup ∧
    (∀ other, n.Reordered other → structIncludes other = structIncludes n) ∧
    (n.kind ≠ "Struct" → n.kind ≠ "Interface" → structIncludes n = []) :=
  have hsorted : (structIncludes n).Pairwise (· < ·) := pairwise_sortTexts _
  ⟨hsorted, fun _ => mem_structIncludes, hsorted.imp fun hlt => hlt.ne,
    fun _ => structIncludes_eq_of_reordered, structIncludes_eq_nil⟩

namespace Sample

/-- An interface that holds structs in all its places, of which two differ in case alone. -/
def panel : Interface :=
  { (default : Interface) with
    properties :=
      [{ (default : Property) with type := .struct ⟨"demo", "Point"⟩ },
        { (default : Property) with type := .list (.struct ⟨"demo", "Hidden"⟩) }]
    operations :=
      [{ (default : Operation) with
        type := .struct ⟨"demo", "Result"⟩
        parameters :=
          [{ (default : Parameter) with type := .primitive .int },
            { (default : Parameter) with type := .struct ⟨"other", "POINT"⟩ }] }]
    signals :=
      [{ (default : Signal) with
        parameters := [{ (default : Parameter) with type := .struct ⟨"demo", "AreaInfo"⟩ }] }] }

/-- The same interface with its properties and its parameters turned around. -/
def turnedPanel : Interface :=
  { panel with
    properties := panel.properties.reverse
    operations := panel.operations.map fun o => { o with parameters := o.parameters.reverse } }

theorem reordered_turnedPanel :
    (Node.interface default panel).Reordered (.interface default turnedPanel) :=
  .interface (List.reverse_perm _).symm
    ⟨_, .refl _, .cons ⟨rfl, (List.reverse_perm _).symm⟩ .nil⟩ ⟨_, .refl _, .cons (.refl _) .nil⟩

end Sample

theorem structIncludes_exact_panel :
    structIncludes (.interface default Sample.panel) =
      ["#include \"areainfo.h\"", "#include \"point.h\"", "#include \"result.h\""] ∧
    (Node.interface default Sample.panel).Reordered (.interface default Sample.turnedPanel) ∧
    structIncludes (.interface default Sample.turnedPanel) =
      structIncludes (.interface default Sample.panel) ∧
    (∃ r : SymbolRef, (Node.interface default Sample.panel).Holds (.struct r) ∧
      "#include \"areainfo.h\"" = Text.lowercase ("#include \"" ++ r.name ++ ".h\"")) ∧
    (Node.enum default default).kind ≠ "Struct" ∧ (Node.enum default default).kind ≠ "Interface" ∧
    structIncludes (.enum default default) = [] := by
  have hlines : structIncludes (.interface default Sample.panel) =
      ["#include \"areainfo.h\"", "#include \"point.h\"", "#include \"result.h\""] := by
    decide +kernel
  obtain ⟨-, hmem, -, hreordered, -⟩ := structIncludes_exact (.interface default Sample.panel)
  have hstruct : (Node.enum default default).kind ≠ "Struct" := by decide
  have hinterface : (Node.enum default default).kind ≠ "Interface" := by decide
  refine ⟨hlines, Sample.reordered_turnedPanel, hreordered _ Sample.reordered_turnedPanel,
    (hmem _).mp ?_, hstruct, hinterface,
    (structIncludes_exact (.enum default default)).2.2.2.2 hstruct hinterface⟩
  rw [hlines]
  exact List.mem_cons_self

end Spelling

end Stencil
