import Stencil.Model.Walk
import Stencil.Proofs.Preorder
import Stencil.Proofs.Template.Reached

/-!
# The walk and the tree

Templates go through the model by the lists of children of each handle, checks and
annotations by the walk.  Both meet the same nodes in the same order and under the
same names.
-/

namespace Stencil

namespace Model

/-- The attributes that list children, in the order in which these are gone through. -/
def childKeys : List String :=
  ["modules", "interfaces", "structs", "enums", "properties", "operations", "signals", "parameters",
    "fields", "members"]

/-! ## Nodes and their children -/

/-- The children of a node, list after list. -/
def Node.children (n : Node) : List Node := childKeys.flatMap fun key => (n.listed? key).getD []

section Children

variable (m : Module)

theorem children_module : (Node.module m).children =
    m.interfaces.map (.interface m) ++ (m.structs.map (.struct m) ++ m.enums.map (.enum m)) := by
  rw [← List.append_nil (m.enums.map _)]
  rfl

theorem children_interface (face : Interface) : (Node.interface m face).children =
    face.properties.map (.property m face) ++ (face.operations.map (.operation m face)
      ++ face.signals.map (.signal m face)) := by
  rw [← List.append_nil (face.signals.map _)]
  rfl

theorem children_struct (struct : Struct) :
    (Node.struct m struct).children = struct.fields.map (.field m struct) :=
  List.append_nil (struct.fields.map _)

theorem children_enum (enum : Enum) :
    (Node.enum m enum).children = enum.members.map (.member m enum) :=
  List.append_nil (enum.members.map _)

theorem children_operation (face : Interface) (o : Operation) :
    (Node.operation m face o).children = o.parameters.map (.parameter m face) :=
  List.append_nil (o.parameters.map _)

theorem children_signal (face : Interface) (sig : Signal) :
    (Node.signal m face sig).children = sig.parameters.map (.parameter m face) :=
  List.append_nil (sig.parameters.map _)

theorem children_property (face : Interface) (p : Property) :
    (Node.property m face p).children = [] := rfl

theorem children_parameter (face : Interface) (p : Parameter) :
    (Node.parameter m face p).children = [] := rfl

theorem children_field (struct : Struct) (f : Field) :
    (Node.field m struct f).children = [] := rfl

theorem children_member (enum : Enum) (x : Member) :
    (Node.member m enum x).children = [] := rfl

end Children

/-! ## Places and those below them -/

/-- The place of the node that lists a node among its children; modules are listed by the system. -/
def Address.parent? : Address → Option Address
  | .module _ => none
  | .interface m _ | .struct m _ | .enum m _ => some (.module m)
  | .property m i _ | .operation m i _ | .signal m i _ => some (.interface m i)
  | .operationParameter m i o _ => some (.operation m i o)
  | .signalParameter m i s _ => some (.signal m i s)
  | .field m s _ => some (.struct m s)
  | .member m e _ => some (.enum m e)

/-- How far a node is from the whole system. -/
def Address.level : Address → Nat
  | .module _ => 1
  | .interface .. | .struct .. | .enum .. => 2
  | .property .. | .operation .. | .signal .. | .field .. | .member .. => 3
  | .operationParameter .. | .signalParameter .. => 4

/-- The places of the children of a node, in order. -/
def Address.below (a : Address) (n : Node) : List Address :=
  match a, n with
  | .module k, .module m =>
      (List.range m.interfaces.length).map (.interface k)
        ++ ((List.range m.structs.length).map (.struct k)
        ++ (List.range m.enums.length).map (.enum k))
  | .interface k i, .interface _ face =>
      (List.range face.properties.length).map (.property k i)
        ++ ((List.range face.operations.length).map (.operation k i)
        ++ (List.range face.signals.length).map (.signal k i))
  | .struct k i, .struct _ record => (List.range record.fields.length).map (.field k i)
  | .enum k i, .enum _ values => (List.range values.members.length).map (.member k i)
  | .operation k i x, .operation _ _ o =>
      (List.range o.parameters.length).map (.operationParameter k i x)
  | .signal k i x, .signal _ _ sig =>
      (List.range sig.parameters.length).map (.signalParameter k i x)
  | _, _ => []

variable {s : System} {a b : Address} {n : Node}

theorem level_of_parent? (h : b.parent? = some a) : b.level = a.level + 1 := by
  cases b <;> cases h <;> rfl

/-- These are the places of some nodes, all listed by the node at one place, each once. -/
structure Listed (s : System) (a : Address) (places : List Address) (nodes : List Node) : Prop where
  nodes : places.map s.node? = nodes.map some
  parent : ∀ b ∈ places, b.parent? = some a
  distinct : places.Nodup

theorem listed_nil : Listed s a [] [] :=
  ⟨rfl, fun _ hb => absurd hb List.not_mem_nil, List.nodup_nil⟩

theorem listed_places {α : Type} {xs : List α} {place : Nat → Address} {node : α → Node}
    {m : Module} (hm : s.modules[a.moduleIndex]? = some m)
    (hindex : ∀ i, (place i).moduleIndex = a.moduleIndex)
    (hnode : ∀ i, m.node? (place i) = xs[i]?.map node) (hparent : ∀ i, (place i).parent? = some a)
    (hplace : place.Injective) : Listed s a ((List.range xs.length).map place) (xs.map node) where
  nodes := by
    refine List.ext_getElem (by simp) fun i _ hi => ?_
    simp only [List.length_map] at hi
    simp [System.node?, hindex, hm, hnode, hi]
  parent := by
    intro b hb
    obtain ⟨i, -, rfl⟩ := List.mem_map.mp hb
    exact hparent i
  distinct := List.nodup_range.map hplace

theorem Listed.append {places others : List Address} {nodes rest : List Node}
    (h : Listed s a places nodes) (hrest : Listed s a others rest)
    (hapart : ∀ b ∈ places, b ∉ others) : Listed s a (places ++ others) (nodes ++ rest) where
  nodes := by rw [List.map_append, List.map_append, h.nodes, hrest.nodes]
  parent := by
    intro b hb
    exact (List.mem_append.mp hb).elim (h.parent b) (hrest.parent b)
  distinct := h.distinct.append hrest.distinct fun b hb hother => hapart b hb hother

/-- The children of a node stand at the places below its own. -/
theorem listed_below (h : s.Holds a n) : Listed s a (a.below n) n.children := by
  cases h with
  | module hm =>
      rw [children_module, Address.below]
      refine .append ?_ (.append ?_ ?_ (by simp)) (by simp)
      all_goals
        exact listed_places hm (fun _ => rfl) (fun _ => rfl)
          (fun _ => rfl) fun _ _ h => by cases h; rfl
  | interface hm hface =>
      rw [children_interface, Address.below]
      refine .append ?_ (.append ?_ ?_ (by simp)) (by simp)
      all_goals
        exact listed_places hm (fun _ => rfl) (fun _ => Template.bind_of_eq_some hface _)
          (fun _ => rfl) fun _ _ h => by cases h; rfl
  | struct hm hstruct =>
      rw [children_struct, Address.below]
      exact listed_places hm (fun _ => rfl) (fun _ => Template.bind_of_eq_some hstruct _)
        (fun _ => rfl) fun _ _ h => by cases h; rfl
  | enum hm henum =>
      rw [children_enum, Address.below]
      exact listed_places hm (fun _ => rfl) (fun _ => Template.bind_of_eq_some henum _)
        (fun _ => rfl) fun _ _ h => by cases h; rfl
  | operation hm hface ho =>
      rw [children_operation, Address.below]
      exact listed_places hm (fun _ => rfl)
        (fun _ => (Template.bind_of_eq_some hface _).trans (Template.bind_of_eq_some ho _))
        (fun _ => rfl) fun _ _ h => by cases h; rfl
  | signal hm hface hsig =>
      rw [children_signal, Address.below]
      exact listed_places hm (fun _ => rfl)
        (fun _ => (Template.bind_of_eq_some hface _).trans (Template.bind_of_eq_some hsig _))
        (fun _ => rfl) fun _ _ h => by cases h; rfl
  | property | operationParameter | signalParameter | field | member => exact listed_nil

theorem mem_places {α : Type} {xs : List α} {i : Nat} {x : α} (place : Nat → Address)
    (h : xs[i]? = some x) : place i ∈ (List.range xs.length).map place :=
  List.mem_map_of_mem (List.mem_range.mpr (List.getElem?_eq_some_iff.mp h).1)

/-- What lists the node at some place is a node, which has the place below its own. -/
theorem exists_parent (hb : (s.node? b).isSome) (hparent : b.parent? = some a) :
    ∃ n, s.Holds a n ∧ b ∈ a.below n := by
  obtain ⟨child, hchild⟩ := Option.isSome_iff_exists.mp hb
  cases System.holds_of_node? hchild with
  | module => cases hparent
  | interface hm hface =>
      cases hparent
      exact ⟨_, .module hm, List.mem_append_left _ (mem_places _ hface)⟩
  | struct hm hstruct =>
      cases hparent
      exact ⟨_, .module hm,
        List.mem_append_right _ (List.mem_append_left _ (mem_places _ hstruct))⟩
  | enum hm henum =>
      cases hparent
      exact ⟨_, .module hm, List.mem_append_right _ (List.mem_append_right _ (mem_places _ henum))⟩
  | property hm hface hp =>
      cases hparent
      exact ⟨_, .interface hm hface, List.mem_append_left _ (mem_places _ hp)⟩
  | operation hm hface ho =>
      cases hparent
      exact ⟨_, .interface hm hface,
        List.mem_append_right _ (List.mem_append_left _ (mem_places _ ho))⟩
  | signal hm hface hsig =>
      cases hparent
      exact ⟨_, .interface hm hface,
        List.mem_append_right _ (List.mem_append_right _ (mem_places _ hsig))⟩
  | operationParameter hm hface ho hp =>
      cases hparent
      exact ⟨_, .operation hm hface ho, mem_places _ hp⟩
  | signalParameter hm hface hsig hp =>
      cases hparent
      exact ⟨_, .signal hm hface hsig, mem_places _ hp⟩
  | field hm hstruct hf =>
      cases hparent
      exact ⟨_, .struct hm hstruct, mem_places _ hf⟩
  | member hm henum hx =>
      cases hparent
      exact ⟨_, .enum hm henum, mem_places _ hx⟩

/-! ## The order of a walk -/

section Walk

variable (m : Module)

theorem map_walkParameters (face : Interface) (owner : String) (ps : List Parameter) :
    (m.walkParameters face owner ps).map Prod.snd = ps.map (.parameter m face) := by
  rw [Module.walkParameters, List.map_map]
  rfl

theorem preorder_operation (face : Interface) (o : Operation) :
    preorder Node.children 1 (.operation m face o) =
      .operation m face o :: o.parameters.map (.parameter m face) := by
  rw [preorder, children_operation]
  rw [flatMap_preorder_of_nil (by simp [children_parameter])]

theorem preorder_signal (face : Interface) (sig : Signal) :
    preorder Node.children 1 (.signal m face sig) =
      .signal m face sig :: sig.parameters.map (.parameter m face) := by
  rw [preorder, children_signal]
  rw [flatMap_preorder_of_nil (by simp [children_parameter])]

theorem map_walkInterface (face : Interface) :
    (m.walkInterface face).map Prod.snd = preorder Node.children 2 (.interface m face) := by
  have hproperties : (face.properties.map (Node.property m face)).flatMap
      (preorder Node.children 1) = face.properties.map (.property m face) :=
    flatMap_preorder_of_nil (by simp [children_property]) 1
  rw [preorder, children_interface, List.flatMap_append, List.flatMap_append, hproperties]
  simp [Module.walkInterface, map_walkParameters, preorder_operation, preorder_signal,
    List.map_flatMap, List.flatMap_map, Function.comp_def]

theorem map_walkStruct (struct : Struct) :
    (m.walkStruct struct).map Prod.snd = preorder Node.children 2 (.struct m struct) := by
  rw [preorder, children_struct, flatMap_preorder_of_nil (by simp [children_field]),
    Module.walkStruct, List.map_cons, List.map_map]
  rfl

theorem map_walkEnum (enum : Enum) :
    (m.walkEnum enum).map Prod.snd = preorder Node.children 2 (.enum m enum) := by
  rw [preorder, children_enum, flatMap_preorder_of_nil (by simp [children_member]),
    Module.walkEnum, List.map_cons, List.map_map]
  rfl

/-- A walk goes through a module as its tree is gone through. -/
theorem map_walk : m.walk.map Prod.snd = preorder Node.children 3 (.module m) := by
  simp only [Module.walk, List.map_cons, List.map_append, List.map_flatMap, map_walkInterface,
    map_walkStruct, map_walkEnum]
  rw [preorder, children_module]
  simp [List.flatMap_map]

end Walk

/-! ## Names -/

/-- All but parameters are visited under their qualified names. -/
theorem qualifiedName_of_mem_walk {m : Module} {visit : String × Node} (h : visit ∈ m.walk)
    (hkind : visit.2.kind ≠ "Parameter") : visit.1 = visit.2.qualifiedName := by
  simp only [Module.walk, Module.walkInterface, Module.walkStruct, Module.walkEnum,
    Module.walkParameters, List.mem_cons, List.mem_append, List.mem_flatMap, List.mem_map] at h
  rcases h with rfl | (⟨face, -, hvisit⟩ | ⟨struct, -, hvisit⟩) | ⟨enum, -, hvisit⟩
  · rfl
  · rcases hvisit with rfl | (⟨p, -, rfl⟩ | ⟨o, -, rfl | ⟨p, -, rfl⟩⟩) | ⟨sig, -, rfl | ⟨p, -, rfl⟩⟩
    · rfl
    · rfl
    · rfl
    · exact absurd rfl hkind
    · rfl
    · exact absurd rfl hkind
  · rcases hvisit with rfl | ⟨f, -, rfl⟩
    · rfl
    · rfl
  · rcases hvisit with rfl | ⟨x, -, rfl⟩
    · rfl
    · rfl

end Model

namespace Template

open Model

/-! ## Following the lists of children -/

/-- The handles on the children of what a handle is on, list after list. -/
def Handle.below (s : System) (h : Handle) : List Handle :=
  childKeys.flatMap fun key =>
    match h.attribute? s key with
    | some (.handles items) => items
    | _ => []

/-- The handle is on the system or on a node of it. -/
def OnNode (s : System) : Handle → Prop
  | .system => True
  | .node a => ∃ n, s.Holds a n
  | .type .. => False

/-- How far what a handle is on is from the whole system. -/
def Handle.level : Handle → Nat
  | .system => 0
  | .node a | .type a _ => a.level

/-- The handle on what lists the node that a handle is on. -/
def Handle.parent? : Handle → Option Handle
  | .node a => some (match a.parent? with | some b => .node b | none => .system)
  | .system | .type .. => none

theorem level_le (a : Address) : a.level ≤ 4 := by cases a <;> simp [Address.level]

variable {s : System} {a : Address} {n : Node}

theorem below_system (s : System) :
    Handle.below s .system = (List.range s.modules.length).map fun k => .node (.module k) := by
  simp [Handle.below, childKeys, Handle.attribute?, Handle.systemAttribute?, Handle.children]

theorem below_node (h : s.Holds a n) : Handle.below s (.node a) = (a.below n).map .node := by
  have hattribute := attribute?_of_node? (System.node?_of_holds h)
  simp only [Handle.below, hattribute]
  cases h with
  | property | operationParameter | signalParameter | field | member => rfl
  | module | interface | struct | enum | operation | signal =>
      simp [childKeys, Handle.nodeAttribute?, Handle.commonAttribute?, Handle.ownAttribute?,
        Handle.moduleAttribute?, Handle.children, Address.below, Function.comp_def]

theorem mem_below_node {h : Handle} (hn : s.Holds a n) (hmem : h ∈ Handle.below s (.node a)) :
    ∃ b child, h = .node b ∧ s.Holds b child ∧ b.parent? = some a := by
  rw [below_node hn] at hmem
  obtain ⟨b, hb, rfl⟩ := List.mem_map.mp hmem
  have hlisted := listed_below hn
  have hnode : s.node? b ∈ n.children.map some := hlisted.nodes ▸ List.mem_map_of_mem hb
  obtain ⟨child, -, hchild⟩ := List.mem_map.mp hnode
  exact ⟨b, child, rfl, System.holds_of_node? hchild.symm, hlisted.parent b hb⟩

theorem mem_below_system {h : Handle} (hmem : h ∈ Handle.below s .system) :
    ∃ k m, h = .node (.module k) ∧ s.modules[k]? = some m := by
  rw [below_system] at hmem
  obtain ⟨k, hk, rfl⟩ := List.mem_map.mp hmem
  exact ⟨k, _, rfl, List.getElem?_eq_getElem (List.mem_range.mp hk)⟩

/-- The lists of children make a tree of what they lead to. -/
theorem branches_below (s : System) :
    Branches (Handle.below s) (OnNode s) Handle.level Handle.parent? 4 := by
  have hbelow : ∀ x, OnNode s x → ∀ y ∈ Handle.below s x,
      OnNode s y ∧ y.level = x.level + 1 ∧ y.parent? = some x := by
    intro x hx y hy
    match x, hx with
    | .system, _ =>
        obtain ⟨k, m, rfl, hm⟩ := mem_below_system hy
        exact ⟨⟨_, .module hm⟩, rfl, rfl⟩
    | .node a, ⟨n, hn⟩ =>
        obtain ⟨b, child, rfl, hchild, hparent⟩ := mem_below_node hn hy
        refine ⟨⟨child, hchild⟩, level_of_parent? hparent, ?_⟩
        rw [Handle.parent?, hparent]
  refine ⟨fun x hx y hy => (hbelow x hx y hy).1, fun x hx y hy => (hbelow x hx y hy).2.1,
    fun x hx y hy => (hbelow x hx y hy).2.2, ?_, ?_⟩
  · intro x hx
    match x, hx with
    | .system, _ =>
        rw [below_system]
        exact List.nodup_range.map fun i j h => by cases h; rfl
    | .node a, ⟨n, hn⟩ =>
        rw [below_node hn]
        exact (listed_below hn).distinct.map fun b c h => by cases h; rfl
  · intro x hx
    match x, hx with
    | .system, _ => exact Nat.zero_le 4
    | .node a, _ => exact level_le a

/-! ## The tree and the walk -/

/-- The children of what is behind a handle are behind the handles below it. -/
theorem forall₂_below_node {h : Handle} (hn : h.node? s = some n) :
    List.Forall₂ (fun c child => c.node? s = some child) (Handle.below s h) n.children := by
  match h, hn with
  | .node a, hn =>
      have hholds := System.holds_of_node? hn
      rw [below_node hholds, List.forall₂_map_left_iff]
      have hnodes := (listed_below hholds).nodes
      rwa [← List.forall₂_eq_eq_eq, List.forall₂_map_left_iff, List.forall₂_map_right_iff] at hnodes

theorem forall₂_below_system (s : System) :
    List.Forall₂ (fun c child => c.node? s = some child) (Handle.below s .system)
      (s.modules.map .module) := by
  rw [below_system, List.forall₂_map_left_iff, List.forall₂_map_right_iff, List.forall₂_iff_get]
  refine ⟨List.length_range, fun k hk hmodule => ?_⟩
  simp [Handle.node?, System.node?, Address.moduleIndex, Module.node?, hmodule]

theorem map_walk_system (s : System) :
    s.walk.map Prod.snd = (s.modules.map .module).flatMap (preorder Node.children 3) := by
  rw [System.walk, List.map_flatMap, List.flatMap_map]
  exact List.flatMap_congr fun m _ => map_walk m

/-- A handle that is met at a visit of the walk: it is on the node that is visited, and the names
that templates and symbols have for the node are the one it is visited under, which for a
parameter is that of its owner and its own. -/
structure Meets (s : System) (h : Handle) (visit : String × Node) : Prop where
  node : h.node? s = some visit.2
  named : visit.2.kind ≠ "Parameter" → h.attribute? s "qualified_name" = some (.text visit.1)
  symbol : visit.2.kind ∈ ["Property", "Operation", "Parameter", "Field"] → ∃ x,
    h.symbol? s = some x ∧ h.attribute? s "qualified_name" = some (.text x.qualifiedName)

theorem meets_of_node? {h : Handle} {visit : String × Node} (hn : h.node? s = some visit.2)
    (hvisit : visit ∈ s.walk) : Meets s h visit := by
  match h, hn with
  | .node a, hn =>
      obtain ⟨m, -, hm⟩ := List.mem_flatMap.mp hvisit
      have hname : (Handle.node a).attribute? s "qualified_name" =
          some (.text visit.2.qualifiedName) := attribute?_of_node? hn "qualified_name"
      refine ⟨hn, fun hkind => ?_, fun hkind => ?_⟩
      · rw [hname, qualifiedName_of_mem_walk hm hkind]
      · have hsymbol : (Handle.node a).symbol? s = visit.2.symbol? := bind_of_eq_some hn _
        rw [hsymbol, hname]
        cases hnode : visit.2 with
        | property | operation | parameter | field => exact ⟨_, rfl, rfl⟩
        | module | interface | struct | enum | signal | member =>
            rw [hnode] at hkind
            simp [Node.kind] at hkind

theorem forall₂_meets (s : System) : List.Forall₂ (Meets s)
    ((Handle.below s .system).flatMap (preorder (Handle.below s) 3)) s.walk := by
  have hnodes : List.Forall₂ (fun h n => h.node? s = some n)
      ((Handle.below s .system).flatMap (preorder (Handle.below s) 3))
      ((s.modules.map .module).flatMap (preorder Node.children 3)) :=
    List.rel_flatMap (forall₂_below_system s) fun _ _ hn =>
      forall₂_preorder (fun _ _ => forall₂_below_node) hn 3
  rw [← map_walk_system, List.forall₂_map_right_iff] at hnodes
  rw [List.forall₂_iff_zip] at hnodes ⊢
  refine ⟨hnodes.1, fun {h visit} hmem => ?_⟩
  exact meets_of_node? (hnodes.2 hmem) (List.of_mem_zip hmem).2

/-! ## Every node is met -/

theorem mem_childKeys_of_listed? {key : String} {children : List Node}
    (h : n.listed? key = some children) : key ∈ childKeys := by
  unfold Node.listed? at h
  split at h
  all_goals cases h
  all_goals decide

theorem mem_below_of_attribute? {h item : Handle} {key : String} {items : List Handle}
    (hh : OnNode s h) (hlist : h.attribute? s key = some (.handles items)) (hitem : item ∈ items) :
    item ∈ Handle.below s h := by
  have hkey : key ∈ childKeys := by
    match h, hh with
    | .system, _ =>
        by_cases hmodules : key = "modules"
        · rw [hmodules]
          decide
        · cases plain_of_systemAttribute? hlist hmodules
    | .node a, ⟨n, hn⟩ =>
        have hnode := System.node?_of_holds hn
        rw [attribute?_of_node? hnode] at hlist
        obtain ⟨children, place, hlisted, -⟩ := exists_places hnode hlist
        exact mem_childKeys_of_listed? hlisted
  refine List.mem_flatMap.mpr ⟨key, hkey, ?_⟩
  rw [hlist]
  exact hitem

theorem mem_preorder_of_below {h item : Handle} {depth : Nat} (hdepth : 4 ≤ depth)
    (hmem : h ∈ preorder (Handle.below s) depth .system) (hitem : item ∈ Handle.below s h) :
    [h, item].Sublist (preorder (Handle.below s) depth .system) := by
  have hdeep : preorder (Handle.below s) depth .system =
      preorder (Handle.below s) (depth + 1) .system :=
    (branches_below s).preorder_congr trivial (by simp [Handle.level]; omega)
      (by simp [Handle.level]; omega)
  rw [hdeep]
  exact sublist_preorder_succ hmem hitem

theorem mem_preorder_of_node? (hn : (s.node? a).isSome) :
    .node a ∈ preorder (Handle.below s) 4 .system := by
  -- the induction is on the level, and goes from what lists a node to the node
  induction hlevel : a.level generalizing a with
  | zero => cases a <;> cases hlevel
  | succ level ih =>
      have hlisted : ∃ h ∈ preorder (Handle.below s) 4 .system, .node a ∈ Handle.below s h := by
        cases hparent : a.parent? with
        | none =>
            obtain ⟨n, hholds⟩ := Option.isSome_iff_exists.mp hn
            refine ⟨.system, mem_preorder_self (Handle.below s) 4 Handle.system, ?_⟩
            rw [below_system]
            cases System.holds_of_node? hholds with
            | module hm =>
                exact List.mem_map_of_mem (List.mem_range.mpr (List.getElem?_eq_some_iff.mp hm).1)
            | _ => cases hparent
        | some b =>
            obtain ⟨n, hb, hbelow⟩ := exists_parent hn hparent
            refine ⟨.node b, ih ?_ ?_, ?_⟩
            · rw [System.node?_of_holds hb, Option.isSome_some]
            · have := level_of_parent? hparent
              omega
            · rw [below_node hb]
              exact List.mem_map_of_mem hbelow
      obtain ⟨h, hmem, hbelow⟩ := hlisted
      exact (mem_preorder_of_below (Nat.le_refl 4) hmem hbelow).subset (by simp)

/-- What templates meet that follow the lists of children from the system on, each node before its
children, is what a walk visits, visit by visit; it is every node, once. -/
structure SameTour (s : System) (met : List Handle) : Prop where
  tree : ∀ depth, 4 ≤ depth → preorder (Handle.below s) depth .system = .system :: met
  visits : List.Forall₂ (Meets s) met s.walk
  every : ∀ a, .node a ∈ met ↔ (s.node? a).isSome
  once : (Handle.system :: met).Nodup
  before : ∀ h ∈ Handle.system :: met, ∀ key items,
    h.attribute? s key = some (.handles items) → ∀ item ∈ items,
      [h, item].Sublist (.system :: met)

/-- A walk and the tree that templates see list the same nodes in the same order and under the same
names. -/
theorem walk_along_tree (s : System) : ∃ met, SameTour s met := by
  have htree := branches_below s
  have hroot : OnNode s .system := trivial
  have hnodes : ∀ h ∈ preorder (Handle.below s) 4 .system, OnNode s h :=
    fun h => htree.mem_preorder hroot
  have honce : (preorder (Handle.below s) 4 .system).Nodup := htree.nodup_preorder hroot
  refine ⟨(Handle.below s .system).flatMap (preorder (Handle.below s) 3), ?_, forall₂_meets s, ?_,
    honce, ?_⟩
  · intro depth hdepth
    show preorder (Handle.below s) depth .system = preorder (Handle.below s) 4 .system
    exact htree.preorder_congr hroot (by omega) (by omega)
  · intro a
    constructor
    · intro hmem
      obtain ⟨n, hn⟩ := hnodes (.node a) (List.mem_cons_of_mem Handle.system hmem)
      rw [System.node?_of_holds hn, Option.isSome_some]
    · intro hn
      exact (List.mem_cons.mp (mem_preorder_of_node? hn)).resolve_left (by simp)
  · intro h hmem key items hlist item hitem
    exact mem_preorder_of_below (Nat.le_refl 4) hmem
      (mem_below_of_attribute? (hnodes h hmem) hlist hitem)

end Template

end Stencil
