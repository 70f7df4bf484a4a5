import Mathlib.Data.Option.Basic
import Stencil.Proofs.Document.Kinds
import Stencil.Template.Handle

/-!
# Where attributes lead

The attributes of a handle that lead to further handles: the lists of children, the
owner of a member, the module, the type of a typed node, the type of the items of a
type, and the declaration that a type refers to.
-/

namespace Stencil

namespace Model

/-- The children of a node under the attribute that lists them, in the order of the model. -/
def Node.listed? (n : Node) (key : String) : Option (List Node) :=
  match n, key with
  | .module m, "interfaces" => some (m.interfaces.map (.interface m))
  | .module m, "structs" => some (m.structs.map (.struct m))
  | .module m, "enums" => some (m.enums.map (.enum m))
  | .interface m i, "properties" => some (i.properties.map (.property m i))
  | .interface m i, "operations" => some (i.operations.map (.operation m i))
  | .interface m i, "signals" => some (i.signals.map (.signal m i))
  | .struct m s, "fields" => some (s.fields.map (.field m s))
  | .enum m e, "members" => some (e.members.map (.member m e))
  | .operation m i o, "parameters" => some (o.parameters.map (.parameter m i))
  | .signal m i s, "parameters" => some (s.parameters.map (.parameter m i))
  | _, _ => none

/-- The owner of a member, with the attribute that leads to it. -/
def Node.owner? : Node → Option (String × Node)
  | .property m i _ | .operation m i _ | .signal m i _ | .parameter m i _ =>
      some ("interface", .interface m i)
  | .field m s _ => some ("struct", .struct m s)
  | .member m e _ => some ("enum", .enum m e)
  | .module _ | .interface .. | .struct .. | .enum .. => none

/-- The owner of the children of a node: the node itself, or for parameters its own owner. -/
def Address.host? : Address → Option Address
  | .interface m i => some (.interface m i)
  | .struct m s => some (.struct m s)
  | .enum m e => some (.enum m e)
  | .operation m i _ | .signal m i _ => some (.interface m i)
  | .module _ | .property .. | .operationParameter .. | .signalParameter .. | .field ..
  | .member .. => none

/-- A node stands at an address: the indexes lead to it from the system, one after the other. -/
inductive System.Holds (s : System) : Address → Node → Prop
  | module {k : Nat} {m : Module} (hm : s.modules[k]? = some m) : Holds s (.module k) (.module m)
  | interface {k i : Nat} {m : Module} {face : Interface} (hm : s.modules[k]? = some m)
      (hface : m.interfaces[i]? = some face) : Holds s (.interface k i) (.interface m face)
  | struct {k i : Nat} {m : Module} {struct : Struct} (hm : s.modules[k]? = some m)
      (hstruct : m.structs[i]? = some struct) : Holds s (.struct k i) (.struct m struct)
  | enum {k i : Nat} {m : Module} {enum : Enum} (hm : s.modules[k]? = some m)
      (henum : m.enums[i]? = some enum) : Holds s (.enum k i) (.enum m enum)
  | property {k i x : Nat} {m : Module} {face : Interface} {p : Property}
      (hm : s.modules[k]? = some m) (hface : m.interfaces[i]? = some face)
      (hp : face.properties[x]? = some p) : Holds s (.property k i x) (.property m face p)
  | operation {k i x : Nat} {m : Module} {face : Interface} {o : Operation}
      (hm : s.modules[k]? = some m) (hface : m.interfaces[i]? = some face)
      (ho : face.operations[x]? = some o) : Holds s (.operation k i x) (.operation m face o)
  | signal {k i x : Nat} {m : Module} {face : Interface} {sig : Signal}
      (hm : s.modules[k]? = some m) (hface : m.interfaces[i]? = some face)
      (hsig : face.signals[x]? = some sig) : Holds s (.signal k i x) (.signal m face sig)
  | operationParameter {k i x j : Nat} {m : Module} {face : Interface} {o : Operation}
      {p : Parameter} (hm : s.modules[k]? = some m) (hface : m.interfaces[i]? = some face)
      (ho : face.operations[x]? = some o) (hp : o.parameters[j]? = some p) :
      Holds s (.operationParameter k i x j) (.parameter m face p)
  | signalParameter {k i x j : Nat} {m : Module} {face : Interface} {sig : Signal}
      {p : Parameter} (hm : s.modules[k]? = some m) (hface : m.interfaces[i]? = some face)
      (hsig : face.signals[x]? = some sig) (hp : sig.parameters[j]? = some p) :
      Holds s (.signalParameter k i x j) (.parameter m face p)
  | field {k i x : Nat} {m : Module} {struct : Struct} {f : Field}
      (hm : s.modules[k]? = some m) (hstruct : m.structs[i]? = some struct)
      (hf : struct.fields[x]? = some f) : Holds s (.field k i x) (.field m struct f)
  | member {k i x : Nat} {m : Module} {enum : Enum} {v : Member}
      (hm : s.modules[k]? = some m) (henum : m.enums[i]? = some enum)
      (hv : enum.members[x]? = some v) : Holds s (.member k i x) (.member m enum v)

theorem System.holds_of_node? {s : System} {a : Address} {n : Node} (h : s.node? a = some n) :
    s.Holds a n := by
  obtain ⟨m, hm, hnode⟩ := Option.bind_eq_some_iff.mp h
  cases a with
  | module k =>
      cases hnode
      exact .module hm
  | interface k i =>
      obtain ⟨face, hface, rfl⟩ := Option.map_eq_some_iff.mp hnode
      exact .interface hm hface
  | struct k i =>
      obtain ⟨struct, hstruct, rfl⟩ := Option.map_eq_some_iff.mp hnode
      exact .struct hm hstruct
  | enum k i =>
      obtain ⟨enum, henum, rfl⟩ := Option.map_eq_some_iff.mp hnode
      exact .enum hm henum
  | property k i x =>
      obtain ⟨face, hface, hx⟩ := Option.bind_eq_some_iff.mp hnode
      obtain ⟨p, hp, rfl⟩ := Option.map_eq_some_iff.mp hx
      exact .property hm hface hp
  | operation k i x =>
      obtain ⟨face, hface, hx⟩ := Option.bind_eq_some_iff.mp hnode
      obtain ⟨o, ho, rfl⟩ := Option.map_eq_some_iff.mp hx
      exact .operation hm hface ho
  | signal k i x =>
      obtain ⟨face, hface, hx⟩ := Option.bind_eq_some_iff.mp hnode
      obtain ⟨sig, hsig, rfl⟩ := Option.map_eq_some_iff.mp hx
      exact .signal hm hface hsig
  | operationParameter k i x j =>
      obtain ⟨face, hface, hx⟩ := Option.bind_eq_some_iff.mp hnode
      obtain ⟨o, ho, hj⟩ := Option.bind_eq_some_iff.mp hx
      obtain ⟨p, hp, rfl⟩ := Option.map_eq_some_iff.mp hj
      exact .operationParameter hm hface ho hp
  | signalParameter k i x j =>
      obtain ⟨face, hface, hx⟩ := Option.bind_eq_some_iff.mp hnode
      obtain ⟨sig, hsig, hj⟩ := Option.bind_eq_some_iff.mp hx
      obtain ⟨p, hp, rfl⟩ := Option.map_eq_some_iff.mp hj
      exact .signalParameter hm hface hsig hp
  | field k i x =>
      obtain ⟨struct, hstruct, hx⟩ := Option.bind_eq_some_iff.mp hnode
      obtain ⟨f, hf, rfl⟩ := Option.map_eq_some_iff.mp hx
      exact .field hm hstruct hf
  | member k i x =>
      obtain ⟨enum, henum, hx⟩ := Option.bind_eq_some_iff.mp hnode
      obtain ⟨v, hv, rfl⟩ := Option.map_eq_some_iff.mp hx
      exact .member hm henum hv

theorem System.node?_of_holds {s : System} {a : Address} {n : Node} (h : s.Holds a n) :
    s.node? a = some n := by
  cases h <;> simp [System.node?, Address.moduleIndex, Module.node?, *]

end Model

namespace Template

open Model

/-- An attribute that holds no handle. -/
def Attribute.IsPlain : Attribute → Prop
  | .handle _ | .handles _ => False
  | .text _ | .number _ | .truth _ | .texts _ | .data _ => True

/-- Addresses at which the children of a node stand, all in its module and with the owner that they
have in common. -/
structure Places (s : System) (a : Address) (children : List Node) (place : Nat → Address) :
    Prop where
  node : ∀ i, s.node? (place i) = children[i]?
  index : ∀ i, (place i).moduleIndex = a.moduleIndex
  owner : ∀ i, (place i).owner? = a.host?

/-- What an attribute of a node can be. -/
inductive Leads (s : System) (a : Address) (n : Node) (key : String) : Attribute → Prop
  | plain {att : Attribute} (h : att.IsPlain) : Leads s a n key att
  | module (h : key = "module") : Leads s a n key (.handle (.node (.module a.moduleIndex)))
  | type {x : Symbol} (h : n.symbol? = some x) : Leads s a n key (.handle (.type a 0))
  | owner {o : Address} {owner : Node} (h : a.owner? = some o)
      (howner : n.owner? = some (key, owner)) : Leads s a n key (.handle (.node o))
  | children {children : List Node} {count : Nat} {place : Nat → Address}
      (h : n.listed? key = some children) (hcount : count = children.length)
      (hplaces : Places s a children place) : Leads s a n key (Handle.children count place)

section Nodes

variable {s : System} {a : Address} {n : Node} {key : String} {att : Attribute}

theorem Leads.list {m : Module} (hm : s.modules[a.moduleIndex]? = some m) {α : Type}
    {xs : List α} {node : α → Node} {place : Nat → Address}
    (hlisted : n.listed? key = some (xs.map node))
    (hnode : ∀ i, m.node? (place i) = xs[i]?.map node)
    (hindex : ∀ i, (place i).moduleIndex = a.moduleIndex)
    (howner : ∀ i, (place i).owner? = a.host?) :
    Leads s a n key (Handle.children xs.length place) := by
  refine .children hlisted (List.length_map node).symm ⟨fun i => ?_, hindex, howner⟩
  rw [System.node?, hindex, hm, Option.bind_some, hnode, List.getElem?_map]

theorem leads_of_commonAttribute? (h : Handle.commonAttribute? a n key = some att) :
    Leads s a n key att := by
  unfold Handle.commonAttribute? at h
  split at h
  all_goals cases h
  · exact .plain trivial
  · exact .plain trivial
  · exact .plain trivial
  · exact .plain trivial
  · exact .module rfl

/-! ## The attributes of each kind

The addresses of the children and the node at them are given by the kind, so what is
listed is read off the definition; all other attributes are plain or single handles. -/

section Kinds

variable {m : Module} {k i : Nat}

theorem leads_module (hm : s.modules[k]? = some m)
    (h : Handle.ownAttribute? (.module k) (.module m) key = some att) :
    Leads s (.module k) (.module m) key att := by
  unfold Handle.ownAttribute? Handle.moduleAttribute? at h
  dsimp only at h
  split at h
  all_goals cases h
  -- the last three attributes are lists
  all_goals first
    | exact .plain trivial
    | exact .list hm rfl (fun _ => rfl) (fun _ => rfl) (fun _ => rfl)

/-- A reading below an element that is there. -/
theorem bind_of_eq_some {α β : Type} {x? : Option α} {x : α} (h : x? = some x)
    (f : α → Option β) : x?.bind f = f x := by
  rw [h, Option.bind_some]

theorem leads_interface (hm : s.modules[k]? = some m) {face : Interface}
    (hface : m.interfaces[i]? = some face)
    (h : Handle.ownAttribute? (.interface k i) (.interface m face) key = some att) :
    Leads s (.interface k i) (.interface m face) key att := by
  unfold Handle.ownAttribute? at h
  dsimp only at h
  split at h
  all_goals cases h
  · exact .plain trivial
  · exact .list hm rfl (fun _ => bind_of_eq_some hface _) (fun _ => rfl) (fun _ => rfl)
  · exact .list hm rfl (fun _ => bind_of_eq_some hface _) (fun _ => rfl) (fun _ => rfl)
  · exact .list hm rfl (fun _ => bind_of_eq_some hface _) (fun _ => rfl) (fun _ => rfl)

theorem leads_struct (hm : s.modules[k]? = some m) {struct : Struct}
    (hstruct : m.structs[i]? = some struct)
    (h : Handle.ownAttribute? (.struct k i) (.struct m struct) key = some att) :
    Leads s (.struct k i) (.struct m struct) key att := by
  unfold Handle.ownAttribute? at h
  dsimp only at h
  split at h
  all_goals cases h
  · exact .plain trivial
  · exact .list hm rfl (fun _ => bind_of_eq_some hstruct _) (fun _ => rfl) (fun _ => rfl)

theorem leads_enum (hm : s.modules[k]? = some m) {enum : Enum} (henum : m.enums[i]? = some enum)
    (h : Handle.ownAttribute? (.enum k i) (.enum m enum) key = some att) :
    Leads s (.enum k i) (.enum m enum) key att := by
  unfold Handle.ownAttribute? at h
  dsimp only at h
  split at h
  all_goals cases h
  · exact .plain trivial
  · exact .plain trivial
  · exact .plain trivial
  · exact .list hm rfl (fun _ => bind_of_eq_some henum _) (fun _ => rfl) (fun _ => rfl)

variable {face : Interface} {x : Nat}

theorem leads_property {p : Property}
    (h : Handle.ownAttribute? (.property k i x) (.property m face p) key = some att) :
    Leads s (.property k i x) (.property m face p) key att := by
  unfold Handle.ownAttribute? Handle.propertyAttribute? at h
  dsimp only at h
  split at h
  all_goals cases h
  · exact .type rfl
  · exact .plain trivial
  · exact .plain trivial
  · exact .plain trivial
  · exact .plain trivial
  · exact .plain trivial
  · exact .owner rfl rfl

theorem leads_operation (hm : s.modules[k]? = some m) (hface : m.interfaces[i]? = some face)
    {o : Operation} (ho : face.operations[x]? = some o)
    (h : Handle.ownAttribute? (.operation k i x) (.operation m face o) key = some att) :
    Leads s (.operation k i x) (.operation m face o) key att := by
  unfold Handle.ownAttribute? at h
  dsimp only at h
  split at h
  all_goals cases h
  · exact .type rfl
  · exact .plain trivial
  · exact .plain trivial
  · exact .plain trivial
  · exact .list hm rfl
      (fun _ => (bind_of_eq_some hface _).trans (bind_of_eq_some ho _)) (fun _ => rfl) (fun _ => rfl)
  · exact .owner rfl rfl

theorem leads_signal (hm : s.modules[k]? = some m) (hface : m.interfaces[i]? = some face)
    {sig : Signal} (hsig : face.signals[x]? = some sig)
    (h : Handle.ownAttribute? (.signal k i x) (.signal m face sig) key = some att) :
    Leads s (.signal k i x) (.signal m face sig) key att := by
  unfold Handle.ownAttribute? at h
  dsimp only at h
  split at h
  all_goals cases h
  · exact .plain trivial
  · exact .list hm rfl
      (fun _ => (bind_of_eq_some hface _).trans (bind_of_eq_some hsig _)) (fun _ => rfl) (fun _ => rfl)
  · exact .owner rfl rfl

/-- A parameter has the same attributes in an operation and in a signal. -/
theorem ownAttribute?_parameter (a : Address) (m : Module) (face : Interface) (p : Parameter)
    (key : String) :
    Handle.ownAttribute? a (.parameter m face p) key =
      match key with
      | "type" => some (.handle (.type a 0))
      | "interface" => Handle.owner? a
      | _ => none := by
  cases a <;> rfl

theorem leads_parameter {a : Address} {p : Parameter} (ha : a.owner? = some (.interface k i))
    (h : Handle.ownAttribute? a (.parameter m face p) key = some att) :
    Leads s a (.parameter m face p) key att := by
  rw [ownAttribute?_parameter] at h
  split at h
  · cases h
    exact .type rfl
  · rw [Handle.owner?, ha] at h
    cases h
    exact .owner ha rfl
  · cases h

theorem leads_field {struct : Struct} {f : Field}
    (h : Handle.ownAttribute? (.field k i x) (.field m struct f) key = some att) :
    Leads s (.field k i x) (.field m struct f) key att := by
  unfold Handle.ownAttribute? at h
  dsimp only at h
  split at h
  all_goals cases h
  · exact .type rfl
  · exact .plain trivial
  · exact .owner rfl rfl

theorem leads_member {enum : Enum} {v : Member}
    (h : Handle.ownAttribute? (.member k i x) (.member m enum v) key = some att) :
    Leads s (.member k i x) (.member m enum v) key att := by
  unfold Handle.ownAttribute? at h
  dsimp only at h
  split at h
  · obtain ⟨value, -, rfl⟩ := Option.map_eq_some_iff.mp h
    exact .plain trivial
  · cases h
    exact .plain trivial
  · cases h
    exact .owner rfl rfl
  · cases h

end Kinds

theorem leads_of_nodeAttribute? (hn : s.node? a = some n)
    (h : Handle.nodeAttribute? a n key = some att) : Leads s a n key att := by
  rcases (Option.orElse_eq_some _ _ _).mp h with hcommon | ⟨-, hown⟩
  · exact leads_of_commonAttribute? hcommon
  cases System.holds_of_node? hn with
  | module hm => exact leads_module hm hown
  | interface hm hface => exact leads_interface hm hface hown
  | struct hm hstruct => exact leads_struct hm hstruct hown
  | enum hm henum => exact leads_enum hm henum hown
  | property => exact leads_property hown
  | operation hm hface ho => exact leads_operation hm hface ho hown
  | signal hm hface hsig => exact leads_signal hm hface hsig hown
  | operationParameter | signalParameter => exact leads_parameter rfl hown
  | field => exact leads_field hown
  | member => exact leads_member hown

/-! ## Attributes that are there -/

theorem exists_list_of_listed? (hn : s.node? a = some n) {children : List Node}
    (h : n.listed? key = some children) :
    ∃ items, Handle.nodeAttribute? a n key = some (.handles items) := by
  unfold Node.listed? at h
  split at h
  case h_11 => cases h
  all_goals cases System.holds_of_node? hn
  all_goals exact ⟨_, rfl⟩

/-- The attribute of a member that leads to its owner, and the owner there. -/
theorem owner_of_node? (hn : s.node? a = some n) {owner : Node}
    (h : n.owner? = some (key, owner)) :
    ∃ o, a.owner? = some o ∧ s.node? o = some owner ∧
      Handle.nodeAttribute? a n key = some (.handle (.node o)) := by
  cases System.holds_of_node? hn with
  | module | interface | struct | enum => cases h
  | property hm hface | operation hm hface | signal hm hface | operationParameter hm hface
  | signalParameter hm hface =>
      cases h
      exact ⟨_, rfl, System.node?_of_holds (.interface hm hface), rfl⟩
  | field hm hstruct =>
      cases h
      exact ⟨_, rfl, System.node?_of_holds (.struct hm hstruct), rfl⟩
  | member hm henum =>
      cases h
      exact ⟨_, rfl, System.node?_of_holds (.enum hm henum), rfl⟩

theorem type_of_symbol? (hn : s.node? a = some n) {x : Symbol} (h : n.symbol? = some x) :
    Handle.nodeAttribute? a n "type" = some (.handle (.type a 0)) := by
  cases System.holds_of_node? hn with
  | module | interface | struct | enum | signal | member => cases h
  | property | operation | operationParameter | signalParameter | field => rfl

theorem module_of_node? (hn : s.node? a = some n) :
    s.node? (.module a.moduleIndex) = some (.module n.home) := by
  cases System.holds_of_node? hn with
  | module hm | interface hm | struct hm | enum hm | property hm | operation hm | signal hm
  | operationParameter hm | signalParameter hm | field hm | member hm =>
      exact System.node?_of_holds (.module hm)

end Nodes

end Template

end Stencil
