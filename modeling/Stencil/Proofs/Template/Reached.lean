import Stencil.Proofs.Template.Attributes
import Stencil.Template.Operator

/-!
# Handles that templates reach

A template begins with the handle on the system and goes on by attributes and items.
Whatever handle it gets to is on a node of the model or on a type of one, its lists
are the children in the order of the model, and from a child the way back leads to
where it was taken from.
-/

namespace Stencil.Template

open Model

variable {s : System} {a : Address} {n : Node} {key : String} {att : Attribute}

/-! ## Types seen through containers -/

/-- The type behind a handle on a type is that of its owner, as many containers further in. -/
theorem type?_eq (s : System) (a : Address) (depth : Nat) : (Handle.type a depth).type? s =
    ((s.node? a).bind (·.symbol?)).bind fun x => x.type.inner? depth := by
  show (((s.node? a).bind (·.symbol?)).bind (·.inner? depth)).map (·.type) = _
  rw [Option.map_bind]
  exact Option.bind_congr fun x _ => Symbol.map_type_inner? depth x

/-- The items of the type behind a handle are behind the handle one container further in. -/
theorem type?_succ (s : System) (a : Address) (depth : Nat) :
    (Handle.type a (depth + 1)).type? s =
      ((Handle.type a depth).type? s).bind DataType.item? := by
  rw [type?_eq, type?_eq]
  cases (s.node? a).bind (·.symbol?) with
  | none => rfl
  | some x => exact DataType.inner?_succ depth x.type

/-! ## Handles that are on something -/

/-- The handle is on the system, on a node of it, or on a type of such a node. -/
def Resolved (s : System) : Handle → Prop
  | .system => True
  | .node a => ∃ n, s.node? a = some n
  | .type a depth => ∃ t, (Handle.type a depth).type? s = some t

/-- All handles that an attribute holds satisfy `P`. -/
def Attribute.All (P : Handle → Prop) : Attribute → Prop
  | .handle h => P h
  | .handles items => ∀ h ∈ items, P h
  | .text _ | .number _ | .truth _ | .texts _ | .data _ => True

theorem Attribute.IsPlain.all {P : Handle → Prop} (h : att.IsPlain) : att.All P := by
  cases att with
  | handle | handles => cases h
  | text | number | truth | texts | data => trivial

theorem resolved_reference {r : SymbolRef} {h : Handle} (hr : Handle.ofReference? s r = some h) :
    Resolved s h := by
  obtain ⟨index, -, hr⟩ := Option.bind_eq_some_iff.mp hr
  obtain ⟨m, hm, hr⟩ := Option.bind_eq_some_iff.mp hr
  obtain ⟨b, hb, rfl⟩ := Option.map_eq_some_iff.mp hr
  have hmeets := meets_type hm r.name
  generalize m.lookup? r.name none = read at hmeets
  rw [hb] at hmeets
  cases hmeets with
  | found hnode => exact ⟨_, hnode⟩

theorem mem_children {count : Nat} {place : Nat → Address} {items : List Handle}
    (h : Handle.children count place = .handles items) {item : Handle} (hitem : item ∈ items) :
    ∃ i < count, item = .node (place i) := by
  cases h
  obtain ⟨i, hi, rfl⟩ := List.mem_map.mp hitem
  exact ⟨i, List.mem_range.mp hi, rfl⟩

theorem resolved_nodeAttribute? (hn : s.node? a = some n)
    (h : Handle.nodeAttribute? a n key = some att) : att.All (Resolved s) := by
  cases leads_of_nodeAttribute? hn h with
  | plain hplain => exact hplain.all
  | module => exact ⟨_, module_of_node? hn⟩
  | @type x hx => 
      refine ⟨x.type, ?_⟩
      rw [type?_eq, hn, Option.bind_some, hx, Option.bind_some]
      rfl
  | @owner o owner ho howner =>
      obtain ⟨other, hother, hnode, -⟩ := owner_of_node? hn howner
      rw [ho] at hother
      cases hother
      exact ⟨owner, hnode⟩
  | @children children count place hlisted hcount hplaces =>
      intro item hitem
      obtain ⟨i, hi, rfl⟩ := mem_children rfl hitem
      have hlt : i < children.length := by omega
      exact ⟨children[i], by rw [hplaces.node, List.getElem?_eq_getElem hlt]⟩

theorem resolved_typeAttribute? {depth : Nat} {t : DataType}
    (ht : (Handle.type a depth).type? s = some t)
    (h : Handle.typeAttribute? s a depth t key = some att) : att.All (Resolved s) := by
  unfold Handle.typeAttribute? at h
  split at h
  · cases h
    trivial
  · cases h
    trivial
  · obtain ⟨u, hu, rfl⟩ := Option.map_eq_some_iff.mp h
    refine ⟨u, ?_⟩
    rw [type?_succ, ht, Option.bind_some, hu]
  · obtain ⟨target, htarget, rfl⟩ := Option.map_eq_some_iff.mp h
    obtain ⟨r, -, hr⟩ := Option.bind_eq_some_iff.mp htarget
    exact resolved_reference hr
  · cases h
    trivial
  · cases h
    exact ⟨t, ht⟩
  · cases h
    rw [type?_eq] at ht
    obtain ⟨x, hx, -⟩ := Option.bind_eq_some_iff.mp ht
    obtain ⟨n, hn, -⟩ := Option.bind_eq_some_iff.mp hx
    exact ⟨_, module_of_node? hn⟩
  · obtain ⟨b, -, rfl⟩ := Option.map_eq_some_iff.mp h
    trivial

theorem resolved_systemAttribute? (h : Handle.systemAttribute? s key = some att) :
    att.All (Resolved s) := by
  unfold Handle.systemAttribute? at h
  split at h
  · cases h
    intro item hitem
    obtain ⟨k, hk, rfl⟩ := mem_children rfl hitem
    exact ⟨_, System.node?_of_holds (.module (List.getElem?_eq_getElem hk))⟩
  · cases h
    trivial
  · cases h

/-- An attribute of a handle that is on something holds only such handles. -/
theorem resolved_attribute? {h : Handle} (hh : Resolved s h) (hatt : h.attribute? s key = some att) :
    att.All (Resolved s) := by
  cases h with
  | system => exact resolved_systemAttribute? hatt
  | node a =>
      obtain ⟨n, hn⟩ := hh
      rw [Handle.attribute?, hn] at hatt
      exact resolved_nodeAttribute? hn hatt
  | type a depth =>
      obtain ⟨t, ht⟩ := hh
      rw [Handle.attribute?, ht] at hatt
      exact resolved_typeAttribute? ht hatt

/-! ## Values that templates reach -/

/-- A value of data and of handles that satisfy `P`, at any depth. -/
inductive Value.All (P : Handle → Prop) : Value → Prop
  | undefined : All P .undefined
  | none : All P .none
  | bool (b : Bool) : All P (.bool b)
  | int (n : Int) : All P (.int n)
  | float (d : Double) : All P (.float d)
  | text (s : String) (safe : Bool) : All P (.text s safe)
  | list {items : List Value} (h : ∀ v ∈ items, All P v) : All P (.list items)
  | map {entries : List (Value × Value)} (h : ∀ e ∈ entries, All P e.2) : All P (.map entries)
  | handle {h : Handle} (hP : P h) : All P (.handle h)

section Values

variable {P : Handle → Prop}

mutual
theorem all_ofJson : ∀ v : Json, (Value.ofJson v).All P
  | .null => .none
  | .bool b => .bool b
  | .int n => .int n
  | .double d => .float d
  | .string s => .text s false
  | .array items => .list (all_ofJsonItems items)
  | .object members => .map (all_ofJsonMembers members)

theorem all_ofJsonItems : ∀ (items : List Json), ∀ v ∈ Value.ofJsonItems items, v.All P
  | [], v, hv => nomatch hv
  | x :: rest, v, hv => by
      rcases List.mem_cons.mp hv with rfl | hv
      · exact all_ofJson x
      · exact all_ofJsonItems rest v hv

theorem all_ofJsonMembers :
    ∀ (members : List (String × Json)), ∀ e ∈ Value.ofJsonMembers members, e.2.All P
  | [], e, he => nomatch he
  | (key, x) :: rest, e, he => by
      rcases List.mem_cons.mp he with rfl | he
      · exact all_ofJson x
      · exact all_ofJsonMembers rest e he
end

theorem all_ofAttribute (h : att.All P) : (Value.ofAttribute att).All P := by
  cases att with
  | text s => exact .text s false
  | number n => exact .int n
  | truth b => exact .bool b
  | texts items =>
      refine .list fun v hv => ?_
      obtain ⟨s, -, rfl⟩ := List.mem_map.mp hv
      exact .text s false
  | data v => exact all_ofJson v
  | handle h => exact .handle h
  | handles items =>
      refine .list fun v hv => ?_
      obtain ⟨item, hitem, rfl⟩ := List.mem_map.mp hv
      exact .handle (h item hitem)

end Values

theorem mem_of_itemAt? {items : List Value} {sized : Bool} {index : Int} {v : Value}
    (h : World.itemAt? items sized index = some v) : v ∈ items := by
  unfold World.itemAt? at h
  split at h
  · cases h
  · obtain ⟨i, -, hi⟩ := Option.bind_eq_some_iff.mp h
    exact List.mem_of_getElem? hi

theorem mem_of_find? {w : World} {key v : Value} {entries : List (Value × Value)}
    (h : w.find? key entries = some v) : ∃ e ∈ entries, e.2 = v := by
  unfold World.find? at h
  split at h
  · split at h
    · cases h
      exact ⟨_, List.mem_cons_self, rfl⟩
    · cases h
  · obtain ⟨e, he, rfl⟩ := Option.map_eq_some_iff.mp h
    exact ⟨e, List.mem_of_find?_eq_some he, rfl⟩

/-- What is under a key of a value of resolved handles is such a value again. -/
theorem all_get? {w : World} {v key u : Value} (hv : v.All (Resolved w.system))
    (h : w.get? v key = some u) : u.All (Resolved w.system) := by
  cases hv with
  | undefined | none | bool | int | float => cases h
  | text s safe =>
      obtain ⟨i, -, hi⟩ := Option.bind_eq_some_iff.mp h
      obtain ⟨c, -, rfl⟩ := List.mem_map.mp (mem_of_itemAt? hi)
      exact .text _ false
  | list hitems =>
      obtain ⟨i, -, hi⟩ := Option.bind_eq_some_iff.mp h
      exact hitems u (mem_of_itemAt? hi)
  | map hentries =>
      obtain ⟨e, he, rfl⟩ := mem_of_find? h
      exact hentries e he
  | handle hh =>
      obtain ⟨s, -, hs⟩ := Option.bind_eq_some_iff.mp h
      obtain ⟨att, hatt, rfl⟩ := Option.map_eq_some_iff.mp hs
      exact all_ofAttribute (resolved_attribute? hh hatt)

/-- Where a chain of accesses leads to, from the handle on the whole system. -/
def follow (w : World) (keys : List Value) : Option Value := keys.foldlM w.get? (.handle .system)

/-- No chain of accesses leads to a handle on nothing. -/
theorem resolved_of_follow {w : World} {keys : List Value} {h : Handle}
    (hfollow : follow w keys = some (.handle h)) : Resolved w.system h := by
  -- the induction is on the chain, for any value of resolved handles that it may begin with
  have hrun : ∀ {v u : Value}, v.All (Resolved w.system) → keys.foldlM w.get? v = some u →
      u.All (Resolved w.system) := by
    clear hfollow
    induction keys with
    | nil =>
        intro v u hv hu
        cases hu
        exact hv
    | cons key rest ih =>
        intro v u hv hu
        rw [List.foldlM_cons] at hu
        obtain ⟨next, hnext, hrest⟩ := Option.bind_eq_some_iff.mp hu
        exact ih (all_get? hv hnext) hrest
  have hroot : (Value.handle .system).All (Resolved w.system) :=
    .handle (show Resolved w.system .system from trivial)
  cases hrun hroot hfollow with
  | handle hh => exact hh

/-! ## What the attributes of a handle lead to -/

/-- A list of handles is on these nodes, one handle for each, in the same order. -/
def Lists (s : System) (items : List Handle) (nodes : List Node) : Prop :=
  items.map (Handle.node? s) = nodes.map some

/-- The way back from a child in a list of a node.  The module of the child is that of the node.  The
owner of the child is the node itself; parameters name the owner of their operation or signal. -/
structure LeadsBack (s : System) (a : Address) (n : Node) (item : Handle) : Prop where
  module : item.attribute? s "module" = (Handle.node a).attribute? s "module"
  owner : ∀ child word owner, item.node? s = some child → child.owner? = some (word, owner) →
    item.attribute? s word =
      match n with
      | .operation .. | .signal .. => (Handle.node a).attribute? s word
      | _ => some (.handle (.node a))

/-- A handle on a node: it is on one, and what its attributes lead to is as the model has it. -/
structure StandsOnNode (s : System) (a : Address) (n : Node) : Prop where
  node : s.node? a = some n
  lists : ∀ key children, n.listed? key = some children ↔
    ∃ items, (Handle.node a).attribute? s key = some (.handles items) ∧ Lists s items children
  back : ∀ key items, (Handle.node a).attribute? s key = some (.handles items) →
    ∀ item ∈ items, LeadsBack s a n item
  owner : ∀ word owner, n.owner? = some (word, owner) → ∃ o,
    (Handle.node a).attribute? s word = some (.handle (.node o)) ∧ s.node? o = some owner
  home : ∃ k, (Handle.node a).attribute? s "module" = some (.handle (.node (.module k))) ∧
    s.node? (.module k) = some (.module n.home)

/-- A handle on a type: its owner has a type, and what is behind the handle is the type to which as
many steps to nested types lead from there as the handle counts. -/
structure StandsOnType (s : System) (a : Address) (depth : Nat) (n : Node) (x : Symbol)
    (t : DataType) : Prop where
  node : s.node? a = some n
  symbol : n.symbol? = some x
  inner : x.type.inner? depth = some t
  type : (Handle.type a depth).type? s = some t
  first : (Handle.node a).attribute? s "type" = some (.handle (.type a 0))
  nested : ∀ k < depth, (Handle.type a k).attribute? s "nested" = some (.handle (.type a (k + 1)))
  module : (Handle.type a depth).attribute? s "module" = (Handle.node a).attribute? s "module"

/-- What a handle that templates reach is. -/
def Stands (s : System) : Handle → Prop
  | .system => ∃ items, Handle.system.attribute? s "modules" = some (.handles items) ∧
      Lists s items (s.modules.map .module) ∧
      ∀ key att, Handle.system.attribute? s key = some att → key ≠ "modules" → att.IsPlain
  | .node a => ∃ n, StandsOnNode s a n
  | .type a depth => ∃ n x t, StandsOnType s a depth n x t

section Nodes

theorem attribute?_of_node? (hn : s.node? a = some n) (key : String) :
    (Handle.node a).attribute? s key = Handle.nodeAttribute? a n key := by
  rw [Handle.attribute?, hn]

theorem lists_places {children : List Node} {place : Nat → Address}
    (hnode : ∀ i, s.node? (place i) = children[i]?) :
    Lists s ((List.range children.length).map fun i => .node (place i)) children := by
  refine List.ext_getElem (by simp) fun i hi hchildren => ?_
  simp [Handle.node?, hnode]

/-- A list among the attributes of a node holds handles on the places of the children. -/
theorem exists_places (hn : s.node? a = some n) {items : List Handle}
    (h : Handle.nodeAttribute? a n key = some (.handles items)) :
    ∃ children place, n.listed? key = some children ∧ Places s a children place ∧
      items = (List.range children.length).map fun i => .node (place i) := by
  have hleads := leads_of_nodeAttribute? hn h
  -- of all that an attribute can be, only the children are a list of handles
  generalize hatt : Attribute.handles items = att at hleads
  cases hleads with
  | plain hplain =>
      rw [← hatt] at hplain
      cases hplain
  | module | type | owner => cases hatt
  | children hlisted hcount hplaces =>
      rw [hcount] at hatt
      cases hatt
      exact ⟨_, _, hlisted, hplaces, rfl⟩

theorem lists_iff (hn : s.node? a = some n) (key : String) (children : List Node) :
    n.listed? key = some children ↔
      ∃ items, (Handle.node a).attribute? s key = some (.handles items) ∧
        Lists s items children := by
  rw [attribute?_of_node? hn]
  constructor
  · intro h
    obtain ⟨items, hitems⟩ := exists_list_of_listed? hn h
    obtain ⟨others, place, hothers, hplaces, rfl⟩ := exists_places hn hitems
    rw [h] at hothers
    cases hothers
    exact ⟨_, hitems, lists_places hplaces.node⟩
  · rintro ⟨items, hitems, hlists⟩
    obtain ⟨others, place, hothers, hplaces, rfl⟩ := exists_places hn hitems
    -- the same handles cannot be on two lists of nodes
    have hsame : others.map some = children.map some :=
      (lists_places hplaces.node).symm.trans hlists
    rw [hothers, List.map_injective_iff.mpr (Option.some_injective Node) hsame]

theorem word_of_owner? {child : Node} {word : String} {m : Module} {face : Interface}
    (h : child.owner? = some (word, .interface m face)) : word = "interface" := by
  cases child with
  | module | interface | struct | enum | field | member => cases h
  | property | operation | signal | parameter =>
      cases h
      rfl

theorem leadsBack_of_mem (hn : s.node? a = some n) {items : List Handle}
    (h : (Handle.node a).attribute? s key = some (.handles items)) {item : Handle}
    (hitem : item ∈ items) : LeadsBack s a n item := by
  rw [attribute?_of_node? hn] at h
  obtain ⟨children, place, -, hplaces, rfl⟩ := exists_places hn h
  obtain ⟨i, hi, rfl⟩ := List.mem_map.mp hitem
  have hlt : i < children.length := List.mem_range.mp hi
  have hchild : s.node? (place i) = some children[i] := by
    rw [hplaces.node, List.getElem?_eq_getElem hlt]
  refine ⟨?_, fun child word owner hat howner => ?_⟩
  · rw [attribute?_of_node? hchild, attribute?_of_node? hn]
    show some (Attribute.handle (.node (.module (place i).moduleIndex))) =
      some (.handle (.node (.module a.moduleIndex)))
    rw [hplaces.index]
  · obtain ⟨o, ho, hnode, hatt⟩ := owner_of_node? hat howner
    rw [attribute?_of_node? hat, hatt]
    rw [hplaces.owner] at ho
    cases System.holds_of_node? hn with
    | module | property | operationParameter | signalParameter | field | member => cases ho
    | interface | struct | enum =>
        cases ho
        rfl
    | operation hm hface | signal hm hface =>
        -- the owner is an interface, which every member calls by the same word
        cases ho
        rw [System.node?_of_holds (.interface hm hface)] at hnode
        cases hnode
        rw [word_of_owner? howner, attribute?_of_node? hn]
        rfl

theorem standsOnNode_of_node? (hn : s.node? a = some n) : StandsOnNode s a n where
  node := hn
  lists := lists_iff hn
  back _ _ h _ hitem := leadsBack_of_mem hn h hitem
  owner word owner h := by
    obtain ⟨o, -, hnode, hatt⟩ := owner_of_node? hn h
    exact ⟨o, (attribute?_of_node? hn word).trans hatt, hnode⟩
  home := ⟨a.moduleIndex, attribute?_of_node? hn "module", module_of_node? hn⟩

end Nodes

section Types

variable {depth : Nat}

theorem exists_type?_of_le {k : Nat} (hk : k ≤ depth)
    (h : ∃ t, (Handle.type a depth).type? s = some t) : ∃ t, (Handle.type a k).type? s = some t := by
  induction hk with
  | refl => exact h
  | step _ ih =>
      -- a type with items comes before every nested one
      obtain ⟨t, ht⟩ := h
      rw [type?_succ] at ht
      obtain ⟨u, hu, -⟩ := Option.bind_eq_some_iff.mp ht
      exact ih ⟨u, hu⟩

theorem nested_of_type? {t : DataType} (ht : (Handle.type a (depth + 1)).type? s = some t) :
    (Handle.type a depth).attribute? s "nested" = some (.handle (.type a (depth + 1))) := by
  rw [type?_succ] at ht
  obtain ⟨u, hu, hitem⟩ := Option.bind_eq_some_iff.mp ht
  have hattribute : (Handle.type a depth).attribute? s "nested" =
      u.item?.map fun _ => .handle (.type a (depth + 1)) := by
    rw [Handle.attribute?, hu]
    rfl
  rw [hattribute, hitem]
  rfl

theorem exists_standsOnType {t : DataType} (ht : (Handle.type a depth).type? s = some t) :
    ∃ n x, StandsOnType s a depth n x t := by
  have howner := ht
  rw [type?_eq] at howner
  obtain ⟨x, hx, hinner⟩ := Option.bind_eq_some_iff.mp howner
  obtain ⟨n, hn, hsymbol⟩ := Option.bind_eq_some_iff.mp hx
  refine ⟨n, x, hn, hsymbol, hinner, ht, ?_, fun k hk => ?_, ?_⟩
  · rw [attribute?_of_node? hn, type_of_symbol? hn hsymbol]
  · obtain ⟨u, hu⟩ := exists_type?_of_le (Nat.succ_le_of_lt hk) ⟨t, ht⟩
    exact nested_of_type? hu
  · rw [attribute?_of_node? hn, Handle.attribute?, ht]
    rfl

end Types

theorem plain_of_systemAttribute? (h : Handle.systemAttribute? s key = some att)
    (hkey : key ≠ "modules") : att.IsPlain := by
  unfold Handle.systemAttribute? at h
  split at h
  · exact absurd rfl hkey
  · cases h
    trivial
  · cases h

theorem stands_of_resolved {h : Handle} (hh : Resolved s h) : Stands s h := by
  cases h with
  | system =>
      refine ⟨_, rfl, ?_, fun key att hatt hkey => plain_of_systemAttribute? hatt hkey⟩
      have hnode : ∀ k, s.node? (.module k) = (s.modules.map Node.module)[k]? := by
        intro k
        rw [List.getElem?_map, Option.map_eq_bind]
        rfl
      have hlists := lists_places hnode
      rwa [List.length_map] at hlists
  | node a =>
      obtain ⟨n, hn⟩ := hh
      exact ⟨n, standsOnNode_of_node? hn⟩
  | type a depth =>
      obtain ⟨t, ht⟩ := hh
      obtain ⟨n, x, hstands⟩ := exists_standsOnType ht
      exact ⟨n, x, t, hstands⟩

/-- Whatever handle a chain of accesses leads to from the system, it is on the system, on a node of
the model or on a type of one, and all of its attributes lead to where they should. -/
theorem stands_of_follow (w : World) (keys : List Value) (h : Handle)
    (hfollow : follow w keys = some (.handle h)) : Stands w.system h :=
  stands_of_resolved (resolved_of_follow hfollow)

namespace Sample

/-- A module with a struct and an interface that lists values of it. -/
def shelved : World where
  system := ⟨[{ (default : Module) with
    name := "m"
    structs := [{ (default : Struct) with
      name := "Item"
      fields := [{ (default : Field) with name := "size" }] }]
    interfaces := [{ (default : Interface) with
      name := "Shelf"
      properties := [{ (default : Property) with
        name := "items", type := .list (.struct ⟨"m", "Item"⟩) }] }] }]⟩
  heap := {}

/-- From the system to the type of a property, and through what the list holds to a struct. -/
def path : List Value :=
  [.ofText "modules", .int 0, .ofText "interfaces", .int 0, .ofText "properties", .int 0,
    .ofText "type", .ofText "nested", .ofText "reference"]

theorem follow_path : follow shelved path = some (.handle (.node (.struct 0 0))) := by
  rfl

end Sample

theorem stands_of_follow_path :
    follow Sample.shelved Sample.path = some (.handle (.node (.struct 0 0))) ∧
      ∃ n, StandsOnNode Sample.shelved.system (.struct 0 0) n :=
  ⟨Sample.follow_path, stands_of_follow Sample.shelved Sample.path (.node (.struct 0 0))
    Sample.follow_path⟩

end Stencil.Template
