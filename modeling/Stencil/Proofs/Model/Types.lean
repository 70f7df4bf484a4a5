import Stencil.Model.Symbol
import Stencil.Model.Walk

/-!
# The types of a module

Types stand at the properties, operations and parameters of interfaces and at the
fields of structs.  What holds of all of them holds of every typed symbol that a
walk over the module meets.
-/

namespace Stencil.Model

/-- All types of an interface satisfy `P`. -/
structure Interface.AllTypes (P : DataType → Prop) (i : Interface) : Prop where
  properties : ∀ p ∈ i.properties, P p.type
  results : ∀ o ∈ i.operations, P o.type
  parameters : ∀ o ∈ i.operations, ∀ p ∈ o.parameters, P p.type
  signals : ∀ s ∈ i.signals, ∀ p ∈ s.parameters, P p.type

/-- All types of a struct satisfy `P`. -/
def Struct.AllTypes (P : DataType → Prop) (s : Struct) : Prop := ∀ f ∈ s.fields, P f.type

/-- All types of a module satisfy `P`. -/
structure Module.AllTypes (P : DataType → Prop) (m : Module) : Prop where
  interfaces : ∀ i ∈ m.interfaces, i.AllTypes P
  structs : ∀ s ∈ m.structs, s.AllTypes P

/-- The reference of a type, if it is one, leads to a declaration of its kind. -/
def System.Resolves (s : System) : DataType → Prop
  | .enum r | .flag r => (s.enum? r).isSome
  | .struct r => (s.struct? r).isSome
  | .interface r => (s.interface? r).isSome
  | .void | .primitive _ | .list _ | .model _ | .map _ => True

variable {P Q : DataType → Prop} {m : Module}

theorem Module.AllTypes.mono (hm : m.AllTypes P) (h : ∀ t, P t → Q t) : m.AllTypes Q where
  interfaces i hi :=
    have hall := hm.interfaces i hi
    { properties := fun p hp => h p.type (hall.properties p hp)
      results := fun o ho => h o.type (hall.results o ho)
      parameters := fun o ho p hp => h p.type (hall.parameters o ho p hp)
      signals := fun s hs p hp => h p.type (hall.signals s hs p hp) }
  structs s hs f hf := h f.type (hm.structs s hs f hf)

theorem type_of_walkParameters {i : Interface} {owner : String} {ps : List Parameter}
    (hps : ∀ p ∈ ps, P p.type) {name : String} {n : Node}
    (hn : (name, n) ∈ m.walkParameters i owner ps) {x : Symbol} (hx : n.symbol? = some x) :
    P x.type := by
  obtain ⟨p, hp, heq⟩ := List.mem_map.mp hn
  cases heq
  cases hx
  exact hps p hp

theorem type_of_walkInterface {i : Interface} (hi : i.AllTypes P) {name : String} {n : Node}
    (hn : (name, n) ∈ m.walkInterface i) {x : Symbol} (hx : n.symbol? = some x) : P x.type := by
  rcases List.mem_cons.mp hn with heq | hn
  · cases heq
    cases hx
  rcases List.mem_append.mp hn with hn | hn
  · rcases List.mem_append.mp hn with hn | hn
    · obtain ⟨p, hp, heq⟩ := List.mem_map.mp hn
      cases heq
      cases hx
      exact hi.properties p hp
    · obtain ⟨o, ho, hn⟩ := List.mem_flatMap.mp hn
      rcases List.mem_cons.mp hn with heq | hn
      · cases heq
        cases hx
        exact hi.results o ho
      · exact type_of_walkParameters (hi.parameters o ho) hn hx
  · obtain ⟨s, hs, hn⟩ := List.mem_flatMap.mp hn
    rcases List.mem_cons.mp hn with heq | hn
    · cases heq
      cases hx
    · exact type_of_walkParameters (hi.signals s hs) hn hx

theorem type_of_walkStruct {s : Struct} (hs : s.AllTypes P) {name : String} {n : Node}
    (hn : (name, n) ∈ m.walkStruct s) {x : Symbol} (hx : n.symbol? = some x) : P x.type := by
  rcases List.mem_cons.mp hn with heq | hn
  · cases heq
    cases hx
  · obtain ⟨f, hf, heq⟩ := List.mem_map.mp hn
    cases heq
    cases hx
    exact hs f hf

/-- An enum has no typed symbols. -/
theorem symbol?_of_walkEnum {e : Enum} {name : String} {n : Node}
    (hn : (name, n) ∈ m.walkEnum e) : n.symbol? = none := by
  rcases List.mem_cons.mp hn with heq | hn
  · cases heq
    rfl
  · obtain ⟨x, -, heq⟩ := List.mem_map.mp hn
    cases heq
    rfl

/-- The typed symbols of a module have the types of its declarations. -/
theorem Module.AllTypes.type_of_walk (hm : m.AllTypes P) {name : String} {n : Node}
    (hn : (name, n) ∈ m.walk) {x : Symbol} (hx : n.symbol? = some x) : P x.type := by
  rcases List.mem_cons.mp hn with heq | hn
  · cases heq
    cases hx
  rcases List.mem_append.mp hn with hn | hn
  · rcases List.mem_append.mp hn with hn | hn
    · obtain ⟨i, hi, hn⟩ := List.mem_flatMap.mp hn
      exact type_of_walkInterface (hm.interfaces i hi) hn hx
    · obtain ⟨s, hs, hn⟩ := List.mem_flatMap.mp hn
      exact type_of_walkStruct (hm.structs s hs) hn hx
  · obtain ⟨e, -, hn⟩ := List.mem_flatMap.mp hn
    rw [symbol?_of_walkEnum hn] at hx
    cases hx

/-! ## Types seen through containers -/

/-- What a symbol is seen to be some containers further in is what its type is there. -/
theorem Symbol.map_type_inner? (depth : Nat) :
    ∀ x : Symbol, (x.inner? depth).map (·.type) = x.type.inner? depth := by
  induction depth with
  | zero => exact fun _ => rfl
  | succ depth ih =>
      intro x
      rw [Symbol.inner?, Symbol.item?, DataType.inner?]
      cases x.type.item? with
      | none => rfl
      | some t => exact ih (x.withType t)

/-- One container further in are the items of what was seen before. -/
theorem DataType.inner?_succ (depth : Nat) :
    ∀ t : DataType, t.inner? (depth + 1) = (t.inner? depth).bind DataType.item? := by
  induction depth with
  | zero =>
      intro t
      cases h : t.item? <;> simp [DataType.inner?, h]
  | succ depth ih =>
      intro t
      show t.item?.bind (inner? (depth + 1)) = (t.item?.bind (inner? depth)).bind item?
      cases t.item? with
      | none => rfl
      | some u => exact ih u

end Stencil.Model
