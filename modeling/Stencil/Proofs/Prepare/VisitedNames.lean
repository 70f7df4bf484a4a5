import Stencil.Proofs.Document.ModuleNames
import Stencil.Proofs.Prepare.Annotations
import Stencil.Proofs.Template.NodeTree

/-!
# Names under which nodes are visited

In a system whose names are unique and have no separators in them, the name under
which a node is visited leads back to it, so that annotations can be written for it.
Only a module whose name is that of a type takes the name away from the type.
-/

namespace Stencil

namespace Model

/-! ## Names that tell declarations apart -/

/-- The names of the types of a module. -/
def Module.typeNames (m : Module) : List String :=
  m.interfaces.map (·.name) ++ (m.structs.map (·.name) ++ m.enums.map (·.name))

/-- The names of the members of an interface. -/
def Interface.memberNames (face : Interface) : List String :=
  face.properties.map (·.name) ++ (face.operations.map (·.name) ++ face.signals.map (·.name))

/-- The names of the members of each type of a module. -/
def Module.memberNames (m : Module) : List (List String) :=
  m.interfaces.map Interface.memberNames ++ (m.structs.map (·.fields.map (·.name))
    ++ m.enums.map (·.members.map (·.name)))

/-- No name has a separator in it that another part of a qualified name begins with, no type is
declared twice in a module, and no member twice in a type. -/
structure System.Named (s : System) : Prop where
  module : ∀ m ∈ s.modules, '#' ∉ m.name.toList
  type : ∀ m ∈ s.modules, ∀ name ∈ m.typeNames, '.' ∉ name.toList ∧ '#' ∉ name.toList
  member : ∀ m ∈ s.modules, ∀ names ∈ m.memberNames, ∀ name ∈ names,
    '.' ∉ name.toList ∧ '#' ∉ name.toList
  types : ∀ m ∈ s.modules, m.typeNames.Nodup
  members : ∀ m ∈ s.modules, ∀ names ∈ m.memberNames, names.Nodup

section First

variable {α : Type} {nameOf : α → String} {xs : List α} {name : String}

theorem first_of_nodup (h : (xs.map nameOf).Nodup) {i : Nat} {x : α} (hx : xs[i]? = some x) :
    xs.findIdx? (nameOf · = nameOf x) = some i ∧ xs.find? (nameOf · = nameOf x) = some x := by
  rcases find?_findIdx? (nameOf · = nameOf x) xs with ⟨hnone, -⟩ | ⟨j, y, hj, hy, hat, hname⟩
  · have hfalse := List.findIdx?_eq_none_iff.mp hnone x (List.mem_of_getElem? hx)
    simp at hfalse
  · have hsame : (xs.map nameOf)[j]? = (xs.map nameOf)[i]? := by
      rw [List.getElem?_map, List.getElem?_map, hat, hx, Option.map_some, Option.map_some,
        of_decide_eq_true hname]
    have hlt : j < (xs.map nameOf).length := by
      rw [List.length_map]
      exact (List.getElem?_eq_some_iff.mp hat).1
    obtain rfl : j = i := (List.getElem?_inj hlt h).mp hsame
    rw [hx] at hat
    cases hat
    exact ⟨hj, hy⟩

theorem none_of_not_mem (h : name ∉ xs.map nameOf) :
    xs.findIdx? (nameOf · = name) = none ∧ xs.find? (nameOf · = name) = none := by
  rcases find?_findIdx? (nameOf · = name) xs with hnone | ⟨i, x, -, -, hat, hname⟩
  · exact hnone
  · exact absurd (List.mem_map.mpr ⟨x, List.mem_of_getElem? hat, of_decide_eq_true hname⟩) h

end First

/-! ## Three lists of declarations, searched one after the other -/

section ThreeLists

variable {α β γ : Type} {nameX : α → String} {nameY : β → String} {nameZ : γ → String}
  {xs : List α} {ys : List β} {zs : List γ} {f g h : Nat → Address}
  (hnodup : (xs.map nameX ++ (ys.map nameY ++ zs.map nameZ)).Nodup)
include hnodup

theorem search_first {i : Nat} {x : α} (hx : xs[i]? = some x) :
    ((xs.findIdx? (nameX · = nameX x)).map f <|> (ys.findIdx? (nameY · = nameX x)).map g
      <|> (zs.findIdx? (nameZ · = nameX x)).map h) = some (f i) := by
  rw [(first_of_nodup hnodup.of_append_left hx).1]
  rfl

theorem search_second {i : Nat} {y : β} (hy : ys[i]? = some y) :
    ((xs.findIdx? (nameX · = nameY y)).map f <|> (ys.findIdx? (nameY · = nameY y)).map g
      <|> (zs.findIdx? (nameZ · = nameY y)).map h) = some (g i) := by
  have hmem : nameY y ∈ ys.map nameY ++ zs.map nameZ :=
    List.mem_append_left _ (List.mem_map_of_mem (List.mem_of_getElem? hy))
  have hnot : nameY y ∉ xs.map nameX := fun hx => List.disjoint_of_nodup_append hnodup hx hmem
  rw [(none_of_not_mem hnot).1, (first_of_nodup hnodup.of_append_right.of_append_left hy).1]
  rfl

theorem search_third {i : Nat} {z : γ} (hz : zs[i]? = some z) :
    ((xs.findIdx? (nameX · = nameZ z)).map f <|> (ys.findIdx? (nameY · = nameZ z)).map g
      <|> (zs.findIdx? (nameZ · = nameZ z)).map h) = some (h i) := by
  have hmem : nameZ z ∈ zs.map nameZ := List.mem_map_of_mem (List.mem_of_getElem? hz)
  have hnotx : nameZ z ∉ xs.map nameX :=
    fun hx => List.disjoint_of_nodup_append hnodup hx (List.mem_append_right _ hmem)
  have hnoty : nameZ z ∉ ys.map nameY :=
    fun hy => List.disjoint_of_nodup_append hnodup.of_append_right hy hmem
  rw [(none_of_not_mem hnotx).1, (none_of_not_mem hnoty).1,
    (first_of_nodup hnodup.of_append_right.of_append_right hz).1]
  rfl

end ThreeLists

/-! ## Inside a module -/

section Names

variable {m : Module} {i : Nat}

theorem mem_typeNames_interface {face : Interface} (h : m.interfaces[i]? = some face) :
    face.name ∈ m.typeNames :=
  List.mem_append_left _ (List.mem_map_of_mem (List.mem_of_getElem? h))

theorem mem_typeNames_struct {struct : Struct} (h : m.structs[i]? = some struct) :
    struct.name ∈ m.typeNames :=
  List.mem_append_right _ (List.mem_append_left _ (List.mem_map_of_mem (List.mem_of_getElem? h)))

theorem mem_typeNames_enum {enum : Enum} (h : m.enums[i]? = some enum) :
    enum.name ∈ m.typeNames :=
  List.mem_append_right _ (List.mem_append_right _ (List.mem_map_of_mem (List.mem_of_getElem? h)))

theorem mem_memberNames_interface {face : Interface} (h : m.interfaces[i]? = some face) :
    face.memberNames ∈ m.memberNames :=
  List.mem_append_left _ (List.mem_map_of_mem (List.mem_of_getElem? h))

theorem mem_memberNames_struct {struct : Struct} (h : m.structs[i]? = some struct) :
    struct.fields.map (·.name) ∈ m.memberNames :=
  List.mem_append_right _ (List.mem_append_left _
    (List.mem_map.mpr ⟨struct, List.mem_of_getElem? h, rfl⟩))

theorem mem_memberNames_enum {enum : Enum} (h : m.enums[i]? = some enum) :
    enum.members.map (·.name) ∈ m.memberNames :=
  List.mem_append_right _ (List.mem_append_right _
    (List.mem_map.mpr ⟨enum, List.mem_of_getElem? h, rfl⟩))

end Names

section InModule

variable {m : Module} {k i x : Nat} (htypes : m.typeNames.Nodup)
include htypes

theorem find?_inInterface {face : Interface} (hface : m.interfaces[i]? = some face)
    (member : String) : m.find? k face.name (some member) =
      ((face.properties.findIdx? (·.name = member)).map (.property k i)
        <|> (face.operations.findIdx? (·.name = member)).map (.operation k i)
        <|> (face.signals.findIdx? (·.name = member)).map (.signal k i)) := by
  obtain ⟨hindex, hfind⟩ := first_of_nodup htypes.of_append_left hface
  simp only [Module.find?, Module.interface?, hindex, hfind]

theorem find?_inStruct {struct : Struct} (hstruct : m.structs[i]? = some struct)
    (member : String) : m.find? k struct.name (some member) =
      (struct.fields.findIdx? (·.name = member)).map (.field k i) := by
  have hmem : struct.name ∈ m.structs.map (·.name) ++ m.enums.map (·.name) :=
    List.mem_append_left _ (List.mem_map_of_mem (List.mem_of_getElem? hstruct))
  have hnot : struct.name ∉ m.interfaces.map (·.name) :=
    fun hface => List.disjoint_of_nodup_append htypes hface hmem
  obtain ⟨hindex, hfind⟩ := first_of_nodup htypes.of_append_right.of_append_left hstruct
  simp only [Module.find?, Module.struct?, (none_of_not_mem hnot).1, hindex, hfind]

theorem find?_inEnum {enum : Enum} (henum : m.enums[i]? = some enum)
    (member : String) : m.find? k enum.name (some member) =
      (enum.members.findIdx? (·.name = member)).map (.member k i) := by
  have hmem : enum.name ∈ m.enums.map (·.name) :=
    List.mem_map_of_mem (List.mem_of_getElem? henum)
  have hnotface : enum.name ∉ m.interfaces.map (·.name) :=
    fun hface => List.disjoint_of_nodup_append htypes hface (List.mem_append_right _ hmem)
  have hnotstruct : enum.name ∉ m.structs.map (·.name) :=
    fun hstruct => List.disjoint_of_nodup_append htypes.of_append_right hstruct hmem
  obtain ⟨hindex, hfind⟩ := first_of_nodup htypes.of_append_right.of_append_right henum
  simp only [Module.find?, Module.enum?, (none_of_not_mem hnotface).1,
    (none_of_not_mem hnotstruct).1, hindex, hfind]

end InModule

/-! ## In the system -/

section InSystem

variable {s : System} {m : Module} {k : Nat} (hnames : s.names.Nodup) (hm : s.modules[k]? = some m)
include hnames hm

theorem index?_of_nodup : s.index? m.name = some k := (first_of_nodup hnames hm).1

theorem inModule_of_nodup {type : String} (htype : '.' ∉ type.toList) (member : Option String) :
    System.find?.inModule s (m.name ++ "." ++ type) member = m.find? k type member := by
  have hcut : Text.cutLast '.' (m.name ++ "." ++ type) = some (m.name, type) :=
    Text.cutLast_eq_some.mpr ⟨by simp, htype⟩
  rw [System.find?.inModule, hcut]
  show (s.index? m.name).bind _ = _
  rw [index?_of_nodup hnames hm, Option.bind_some, hm, Option.bind_some]

theorem find?_type (hsep : '#' ∉ m.name.toList) {type : String}
    (htype : '.' ∉ type.toList ∧ '#' ∉ type.toList)
    (hfree : s.contains (m.name ++ "." ++ type) = false) :
    s.find? (m.name ++ "." ++ type) = m.find? k type none := by
  have hcut : Text.cutFirst '#' (m.name ++ "." ++ type) = none :=
    Text.cutFirst_eq_none.mpr (by simp [hsep, htype.2])
  have hindex : s.index? (m.name ++ "." ++ type) = none := by
    refine List.findIdx?_eq_none_iff.mpr fun other hother => ?_
    exact eq_false_of_ne_true (List.any_eq_false.mp hfree other hother)
  rw [System.find?, hcut]
  simp only [hindex]
  exact inModule_of_nodup hnames hm htype.1 none

theorem find?_member (hsep : '#' ∉ m.name.toList) {type : String}
    (htype : '.' ∉ type.toList ∧ '#' ∉ type.toList) (member : String) :
    s.find? (m.name ++ "." ++ type ++ "#" ++ member) = m.find? k type (some member) := by
  have hcut : Text.cutFirst '#' (m.name ++ "." ++ type ++ "#" ++ member) =
      some (m.name ++ "." ++ type, member) :=
    Text.cutFirst_eq_some.mpr ⟨by simp, by simp [hsep, htype.2]⟩
  rw [System.find?, hcut]
  exact inModule_of_nodup hnames hm htype.1 (some member)

theorem find?_module (hsep : '#' ∉ m.name.toList) : s.find? m.name = some (.module k) := by
  rw [System.find?, Text.cutFirst_eq_none.mpr hsep]
  simp only [index?_of_nodup hnames hm]

end InSystem

section Visited

variable {s : System} (hnames : s.names.Nodup) (hnamed : s.Named)
include hnames hnamed

/-- The name of a node that no module has as its name leads to the node. -/
theorem find?_qualifiedName {a : Address} {n : Node} (h : s.Holds a n)
    (hkind : n.kind ≠ "Parameter")
    (hfree : n.kind ≠ "Module" → s.contains n.qualifiedName = false) :
    s.find? n.qualifiedName = some a := by
  have hmem : n.home ∈ s.modules := by
    cases h <;> exact List.mem_of_getElem? ‹_›
  have hsep := hnamed.module n.home hmem
  have htypes := hnamed.types n.home hmem
  have htype := hnamed.type n.home hmem
  have hmembers := hnamed.members n.home hmem
  cases h with
  | module hm => exact find?_module hnames hm hsep
  | interface hm hface =>
      have hname := htype _ (mem_typeNames_interface hface)
      exact (find?_type hnames hm hsep hname (hfree (by simp [Node.kind]))).trans
        (search_first htypes hface)
  | struct hm hstruct =>
      have hname := htype _ (mem_typeNames_struct hstruct)
      exact (find?_type hnames hm hsep hname (hfree (by simp [Node.kind]))).trans
        (search_second htypes hstruct)
  | enum hm henum =>
      have hname := htype _ (mem_typeNames_enum henum)
      exact (find?_type hnames hm hsep hname (hfree (by simp [Node.kind]))).trans
        (search_third htypes henum)
  | property hm hface hp =>
      have hname := htype _ (mem_typeNames_interface hface)
      refine (find?_member hnames hm hsep hname _).trans ?_
      refine (find?_inInterface htypes hface _).trans ?_
      exact search_first (hmembers _ (mem_memberNames_interface hface)) hp
  | operation hm hface ho =>
      have hname := htype _ (mem_typeNames_interface hface)
      refine (find?_member hnames hm hsep hname _).trans ?_
      refine (find?_inInterface htypes hface _).trans ?_
      exact search_second (hmembers _ (mem_memberNames_interface hface)) ho
  | signal hm hface hsig =>
      have hname := htype _ (mem_typeNames_interface hface)
      refine (find?_member hnames hm hsep hname _).trans ?_
      refine (find?_inInterface htypes hface _).trans ?_
      exact search_third (hmembers _ (mem_memberNames_interface hface)) hsig
  | field hm hstruct hf =>
      have hname := htype _ (mem_typeNames_struct hstruct)
      refine (find?_member hnames hm hsep hname _).trans ?_
      have hfield := (first_of_nodup (hmembers _ (mem_memberNames_struct hstruct)) hf).1
      exact (find?_inStruct htypes hstruct _).trans (congrArg _ hfield)
  | member hm henum hv =>
      have hname := htype _ (mem_typeNames_enum henum)
      refine (find?_member hnames hm hsep hname _).trans ?_
      have hmember := (first_of_nodup (hmembers _ (mem_memberNames_enum henum)) hv).1
      exact (find?_inEnum htypes henum _).trans (congrArg _ hmember)
  | operationParameter | signalParameter => exact absurd rfl hkind

omit hnames in
/-- The names of members have a separator, which no module has in its name. -/
theorem kind_of_contains {a : Address} {n : Node} (h : s.Holds a n)
    (hkind : n.kind ≠ "Parameter") (hmodule : n.kind ≠ "Module")
    (hcontains : s.contains n.qualifiedName = true) :
    n.kind ∈ ["Interface", "Struct", "Enum"] := by
  obtain ⟨m, hm, hname⟩ := List.any_eq_true.mp hcontains
  have hsep : '#' ∉ n.qualifiedName.toList := of_decide_eq_true hname ▸ hnamed.module m hm
  cases h with
  | module => exact absurd rfl hmodule
  | operationParameter | signalParameter => exact absurd rfl hkind
  | interface | struct | enum => simp [Node.kind]
  | property | operation | signal | field | member => simp [Node.qualifiedName] at hsep

end Visited

end Model

namespace Prepare

open Model Document
open Report (Reporter)

/-! ## The way back to a visited node -/

/-- A name leads to the node at an address: it is looked up there, and the tags that an annotation
document has under the name are merged into its own. -/
structure LeadsTo (s : System) (name : String) (a : Address) (n : Node) : Prop where
  node : s.node? a = some n
  named : n.qualifiedName = name
  found : s.lookup? name = some n
  annotated : ∀ (document : Members) (origin : String) (reporter : Reporter) (ms : Members),
    document.Distinct → (name, .object ms) ∈ document →
      ((annotate document origin s reporter).system.node? a).map Node.tags =
        some (Tags.merge ms n.tags)

theorem leadsTo_of_find? {s : System} {name : String} {a : Address} {n : Node}
    (h : s.find? name = some a) (hn : s.node? a = some n) : LeadsTo s name a n := by
  rcases s.cases_of_find? name with ⟨hnone, -⟩ | ⟨b, read, hfind, hread, hnode, hname⟩
  · rw [h] at hnone
    cases hnone
  · obtain rfl : a = b := Option.some.inj (h.symm.trans hfind)
    obtain rfl : n = read := Option.some.inj (hn.symm.trans hnode)
    refine ⟨hnode, hname, hread, fun document origin reporter ms hdistinct hmem => ?_⟩
    have htags := tags?_annotate_of_reached origin s reporter hdistinct hmem ⟨h, rfl⟩
    rw [System.map_tags_node?, htags, ← System.map_tags_node?, hnode]
    rfl

variable {sources : List Source} {s : System}

theorem exists_node?_of_mem_walk {visit : String × Node} (h : visit ∈ s.walk) :
    ∃ a, s.node? a = some visit.2 := by
  obtain ⟨on, -, hmeets⟩ := exists_left_of_forall₂ (Template.forall₂_meets s) h
  match on, hmeets.node with
  | .node a, hnode => exact ⟨a, hnode⟩

/-- The name under which a node is visited leads back to the node, and to no other.  Only the name
of an interface, struct or enum can be that of a loaded module as well, and then it leads there. -/
theorem leads_back_of_walk (h : build sources = .ok s) (hnamed : s.Named) {name : String} {n : Node}
    (hvisit : (name, n) ∈ s.walk) (hkind : n.kind ≠ "Parameter") :
    (∃ a, s.node? a = some n) ∧
      if n.kind ≠ "Module" ∧ s.contains name = true then
        n.kind ∈ ["Interface", "Struct", "Enum"] ∧
          ∃ k m, LeadsTo s name (.module k) (.module m)
      else ∀ a, s.node? a = some n → LeadsTo s name a n := by
  have hnames : s.names.Nodup := by
    rw [names_of_build h]
    exact nodup_distinct _
  obtain ⟨home, -, hhome⟩ := List.mem_flatMap.mp hvisit
  have hname : name = n.qualifiedName := qualifiedName_of_mem_walk hhome hkind
  obtain ⟨a, ha⟩ := exists_node?_of_mem_walk hvisit
  refine ⟨⟨a, ha⟩, ?_⟩
  split
  · next hshadowed =>
      obtain ⟨hmodule, hcontains⟩ := hshadowed
      refine ⟨?_, ?_⟩
      · exact kind_of_contains hnamed (System.holds_of_node? ha) hkind hmodule (hname ▸ hcontains)
      · obtain ⟨m, hm, hsame⟩ := List.any_eq_true.mp hcontains
        obtain ⟨k, hk⟩ := List.getElem?_of_mem hm
        have hfind : s.find? name = some (.module k) :=
          of_decide_eq_true hsame ▸ find?_module hnames hk (hnamed.module m hm)
        exact ⟨k, m, leadsTo_of_find? hfind (System.node?_of_holds (.module hk))⟩
  · next hfree =>
      intro b hb
      have hfind : s.find? n.qualifiedName = some b := by
        refine find?_qualifiedName hnames hnamed (System.holds_of_node? hb) hkind fun hmodule => ?_
        exact eq_false_of_ne_true fun hcontains => hfree ⟨hmodule, hname ▸ hcontains⟩
      exact leadsTo_of_find? (hname ▸ hfind) hb

namespace Sample

/-- A document with an interface and a property. -/
def outer : Source :=
  ⟨⟨"a.yaml", ""⟩,
    { (default : Document) with
      module := "a"
      interfaces := [{ (default : Document.Interface) with
        name := "b"
        properties := [{ (default : Document.Property) with name := "c", type := "int" }] }] }⟩

/-- A document of a module that is named as the interface is. -/
def inner : Source := ⟨⟨"a.b.yaml", ""⟩, { (default : Document) with module := "a.b" }⟩

/-- The system of both. -/
def nested : System := (build [outer, inner]).toOption.getD default

theorem build_nested : build [outer, inner] = .ok nested := by
  have hbuilt : (build [outer, inner]).toOption.isSome = true := by decide +kernel
  obtain ⟨s, hs⟩ := exists_ok hbuilt
  rw [nested, hs]
  rfl

theorem named_nested : nested.Named := by
  constructor <;> decide +kernel

end Sample

theorem leads_back_of_walk_nested :
    (∃ a n, n.kind = "Property" ∧ LeadsTo Sample.nested "a.b#c" a n) ∧
      ∃ n, n.kind = "Interface" ∧ ("a.b", n) ∈ Sample.nested.walk ∧
        ∃ k m, LeadsTo Sample.nested "a.b" (.module k) (.module m) := by
  have hproperty : ∃ visit ∈ Sample.nested.walk,
      visit.1 = "a.b#c" ∧ visit.2.kind = "Property" := by decide +kernel
  have hface : ∃ visit ∈ Sample.nested.walk,
      visit.1 = "a.b" ∧ visit.2.kind = "Interface" := by decide +kernel
  constructor
  · obtain ⟨⟨name, n⟩, hvisit, rfl, hkind⟩ := hproperty
    obtain ⟨⟨a, ha⟩, hleads⟩ := leads_back_of_walk Sample.build_nested Sample.named_nested hvisit
      (by simp [hkind])
    have hfree : Sample.nested.contains "a.b#c" = false := by decide +kernel
    rw [if_neg (by simp [hfree])] at hleads
    exact ⟨a, n, hkind, hleads a ha⟩
  · obtain ⟨⟨name, n⟩, hvisit, rfl, hkind⟩ := hface
    obtain ⟨-, hleads⟩ := leads_back_of_walk Sample.build_nested Sample.named_nested hvisit
      (by simp [hkind])
    have htaken : Sample.nested.contains "a.b" = true := by decide +kernel
    rw [if_pos ⟨by simp [hkind], htaken⟩] at hleads
    exact ⟨n, hkind, hvisit, hleads.2⟩

/-- A name does not always lead back to the node that is visited under it: the interface of one
module can have the name of another module. -/
theorem not_lookup?_of_walk : ¬ ∀ (sources : List Source) (s : System),
    build sources = .ok s → s.Named → ∀ visit ∈ s.walk,
      visit.2.kind ≠ "Parameter" → s.lookup? visit.1 = some visit.2 := by
  intro h
  have hface : ∃ visit ∈ Sample.nested.walk,
      visit.1 = "a.b" ∧ visit.2.kind = "Interface" := by decide +kernel
  obtain ⟨⟨name, n⟩, hvisit, rfl, hkind⟩ := hface
  have hfound := h _ _ Sample.build_nested Sample.named_nested _ hvisit (by simp [hkind])
  have hmodule : (Sample.nested.lookup? "a.b").map Node.kind = some "Module" := by decide +kernel
  rw [hfound, Option.map_some, hkind] at hmodule
  simp at hmodule

end Prepare

end Stencil
