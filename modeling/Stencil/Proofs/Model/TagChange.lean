import Mathlib.Data.List.Basic
import Stencil.Model.Node

/-!
# Changing the tags of one node

A change at an address reaches the tags of the node there and nothing else: the
tags at every other address stay, and so does all of the system but its tags.
-/

namespace Stencil.Model

/-! ## One element of a list -/

section Lists

variable {α β : Type} {f : α → α} {xs : List α} {i j : Nat}

theorem bind_getElem?_modify {g : α → Option β} (h : i = j → ∀ x, g (f x) = g x) :
    (xs.modify i f)[j]?.bind g = xs[j]?.bind g := by
  rw [List.getElem?_modify]
  by_cases hij : i = j
  · cases xs[j]? with
    | none => rfl
    | some x => simp [hij, h hij x]
  · cases xs[j]? with
    | none => rfl
    | some x => simp [hij]

theorem map_getElem?_modify {g : α → β} (h : i = j → ∀ x, g (f x) = g x) :
    (xs.modify i f)[j]?.map g = xs[j]?.map g := by
  rw [Option.map_eq_bind, Option.map_eq_bind]
  exact bind_getElem?_modify fun hij x => congrArg some (h hij x)

theorem map_modify {g : α → β} (h : ∀ x, g (f x) = g x) : (xs.modify i f).map g = xs.map g := by
  refine List.ext_getElem? fun j => ?_
  rw [List.getElem?_map, List.getElem?_map]
  exact map_getElem?_modify fun _ => h

end Lists

/-! ## The tags at an address -/

/-- The tags at an address inside the module. -/
def Module.tags? (m : Module) : Address → Option Tags
  | .module _ => some m.tags
  | .interface _ i => m.interfaces[i]?.map (·.tags)
  | .struct _ s => m.structs[s]?.map (·.tags)
  | .enum _ e => m.enums[e]?.map (·.tags)
  | .property _ i p => m.interfaces[i]?.bind fun face => face.properties[p]?.map (·.tags)
  | .operation _ i o => m.interfaces[i]?.bind fun face => face.operations[o]?.map (·.tags)
  | .signal _ i s => m.interfaces[i]?.bind fun face => face.signals[s]?.map (·.tags)
  | .operationParameter _ i o p =>
      m.interfaces[i]?.bind fun face =>
        face.operations[o]?.bind fun op => op.parameters[p]?.map (·.tags)
  | .signalParameter _ i s p =>
      m.interfaces[i]?.bind fun face =>
        face.signals[s]?.bind fun sig => sig.parameters[p]?.map (·.tags)
  | .field _ s f => m.structs[s]?.bind fun struct => struct.fields[f]?.map (·.tags)
  | .member _ e x => m.enums[e]?.bind fun enum => enum.members[x]?.map (·.tags)

/-- The tags at an address. -/
def System.tags? (s : System) (a : Address) : Option Tags :=
  s.modules[a.moduleIndex]?.bind (·.tags? a)

theorem Module.map_tags_node? (m : Module) (a : Address) :
    (m.node? a).map Node.tags = m.tags? a := by
  cases a <;> simp [Module.node?, Module.tags?, Option.map_bind, Function.comp_def, Node.tags]

theorem System.map_tags_node? (s : System) (a : Address) :
    (s.node? a).map Node.tags = s.tags? a := by
  unfold System.node? System.tags?
  rw [Option.map_bind]
  exact Option.bind_congr fun m _ => m.map_tags_node? a

theorem Module.tags?_modifyTags_self (m : Module) (change : Tags → Tags) (a : Address) :
    (m.modifyTags change a).tags? a = (m.tags? a).map change := by
  cases a <;> simp [Module.modifyTags, Module.tags?, modifyTags.onInterface, modifyTags.onStruct,
    modifyTags.onEnum, modifyTags.onParameter, Option.map_bind, Option.bind_map, Function.comp_def]

/-! ## The tags at other addresses

A change of a node is compared with readings of nodes of all kinds: those in other lists do
not meet it, those in the same list meet it at another index or do not look at what it
changes.  Nodes that stand in lists of one depth are taken together, whatever their kinds. -/

/-- Tags at another address of the module stay. -/
theorem Module.tags?_modifyTags_of_ne (m : Module) (change : Tags → Tags) {a b : Address}
    (hne : a ≠ b) (hindex : a.moduleIndex = b.moduleIndex) :
    (m.modifyTags change a).tags? b = m.tags? b := by
  cases a with
  | module =>
      cases b with
      | module => exact absurd (congrArg Address.module hindex) hne
      | _ => rfl
  | interface k i | struct k i | enum k i =>
      have hk : k = b.moduleIndex := hindex
      cases b with
      | interface | struct | enum =>
          first
          | rfl
          | exact map_getElem?_modify fun hi => absurd (by rw [hk, hi]; rfl) hne
      | _ => first | rfl | exact bind_getElem?_modify fun _ _ => rfl
  | property k i p | operation k i p | signal k i p | field k i p | member k i p =>
      have hk : k = b.moduleIndex := hindex
      cases b with
      | property | operation | signal | field | member =>
          first
          | rfl
          | exact bind_getElem?_modify fun _ _ => rfl
          | exact bind_getElem?_modify fun hi _ => map_getElem?_modify fun hp =>
              absurd (by rw [hk, hi, hp]; rfl) hne
      | interface | struct | enum => first | rfl | exact map_getElem?_modify fun _ _ => rfl
      | operationParameter | signalParameter =>
          first
          | rfl
          | exact bind_getElem?_modify fun _ _ => rfl
          | exact bind_getElem?_modify fun _ _ => bind_getElem?_modify fun _ _ => rfl
      | module => rfl
  | operationParameter k i o p | signalParameter k i o p =>
      have hk : k = b.moduleIndex := hindex
      cases b with
      | operationParameter | signalParameter =>
          first
          | exact bind_getElem?_modify fun _ _ => rfl
          | exact bind_getElem?_modify fun hi _ => bind_getElem?_modify fun ho _ =>
              map_getElem?_modify fun hp => absurd (by rw [hk, hi, ho, hp]; rfl) hne
      | property | operation | signal =>
          first
          | exact bind_getElem?_modify fun _ _ => rfl
          | exact bind_getElem?_modify fun _ _ => map_getElem?_modify fun _ _ => rfl
      | interface => exact map_getElem?_modify fun _ _ => rfl
      | _ => rfl

/-- Of all tags of the system, a change reaches those at its address. -/
theorem System.tags?_modifyTags (s : System) (change : Tags → Tags) (a b : Address) :
    (s.modifyTags a change).tags? b =
      if b = a then (s.tags? b).map change else s.tags? b := by
  unfold System.tags? System.modifyTags
  by_cases hba : b = a
  · subst hba
    rw [if_pos rfl, List.getElem?_modify_eq]
    cases s.modules[b.moduleIndex]? with
    | none => rfl
    | some m => exact m.tags?_modifyTags_self change b
  · rw [if_neg hba]
    exact bind_getElem?_modify fun hindex m => m.tags?_modifyTags_of_ne change (Ne.symm hba) hindex

/-! ## All but the tags -/

/-- A parameter without its tags. -/
def Parameter.untagged (p : Parameter) : Parameter := { p with tags := .empty }

/-- A property without its tags. -/
def Property.untagged (p : Property) : Property := { p with tags := .empty }

/-- An operation without its tags and those of its parameters. -/
def Operation.untagged (o : Operation) : Operation :=
  { o with tags := .empty, parameters := o.parameters.map Parameter.untagged }

/-- A signal without its tags and those of its parameters. -/
def Signal.untagged (s : Signal) : Signal :=
  { s with tags := .empty, parameters := s.parameters.map Parameter.untagged }

/-- An interface without its tags and those of its members. -/
def Interface.untagged (i : Interface) : Interface :=
  { i with
    tags := .empty
    properties := i.properties.map Property.untagged
    operations := i.operations.map Operation.untagged
    signals := i.signals.map Signal.untagged }

/-- A field without its tags. -/
def Field.untagged (f : Field) : Field := { f with tags := .empty }

/-- A struct without its tags and those of its fields. -/
def Struct.untagged (s : Struct) : Struct :=
  { s with tags := .empty, fields := s.fields.map Field.untagged }

/-- A member without its tags. -/
def Member.untagged (x : Member) : Member := { x with tags := .empty }

/-- An enum without its tags and those of its members. -/
def Enum.untagged (e : Enum) : Enum :=
  { e with tags := .empty, members := e.members.map Member.untagged }

/-- A module without its tags and those of its declarations. -/
def Module.untagged (m : Module) : Module :=
  { m with
    tags := .empty
    interfaces := m.interfaces.map Interface.untagged
    structs := m.structs.map Struct.untagged
    enums := m.enums.map Enum.untagged }

/-- The system without any tags. -/
def System.untagged (s : System) : System := ⟨s.modules.map Module.untagged⟩

section Untagged

variable {m : Module} {change : Tags → Tags}

theorem untagged_onInterface {i : Nat} {f : Interface → Interface}
    (h : ∀ face, (f face).untagged = face.untagged) :
    (Module.modifyTags.onInterface m i f).untagged = m.untagged := by
  simp only [Module.modifyTags.onInterface, Module.untagged, map_modify h]

theorem untagged_onStruct {i : Nat} {f : Struct → Struct}
    (h : ∀ struct, (f struct).untagged = struct.untagged) :
    (Module.modifyTags.onStruct m i f).untagged = m.untagged := by
  simp only [Module.modifyTags.onStruct, Module.untagged, map_modify h]

theorem untagged_onEnum {i : Nat} {f : Enum → Enum}
    (h : ∀ enum, (f enum).untagged = enum.untagged) :
    (Module.modifyTags.onEnum m i f).untagged = m.untagged := by
  simp only [Module.modifyTags.onEnum, Module.untagged, map_modify h]

theorem untagged_onParameter (p : Nat) (ps : List Parameter) :
    (Module.modifyTags.onParameter change p ps).map Parameter.untagged =
      ps.map Parameter.untagged :=
  map_modify fun _ => rfl

end Untagged

theorem Module.untagged_modifyTags (m : Module) (change : Tags → Tags) (a : Address) :
    (m.modifyTags change a).untagged = m.untagged := by
  cases a with
  | module => rfl
  | interface => exact untagged_onInterface fun _ => rfl
  | struct => exact untagged_onStruct fun _ => rfl
  | enum => exact untagged_onEnum fun _ => rfl
  | property k i j | operation k i j | signal k i j =>
      refine untagged_onInterface fun face => ?_
      simp only [Interface.untagged]
      rw [map_modify]
      exact fun _ => rfl
  | operationParameter k i j p | signalParameter k i j p =>
      refine untagged_onInterface fun face => ?_
      simp only [Interface.untagged]
      rw [map_modify]
      intro x
      simp only [Operation.untagged, Signal.untagged, untagged_onParameter]
  | field k i f =>
      refine untagged_onStruct fun struct => ?_
      simp only [Struct.untagged]
      rw [map_modify]
      exact fun _ => rfl
  | member k i x =>
      refine untagged_onEnum fun enum => ?_
      simp only [Enum.untagged]
      rw [map_modify]
      exact fun _ => rfl

theorem System.untagged_modifyTags (s : System) (a : Address) (change : Tags → Tags) :
    (s.modifyTags a change).untagged = s.untagged :=
  congrArg System.mk (map_modify fun m => m.untagged_modifyTags change a)

/-! ## The tags and all but the tags

A system is known from what is left without its tags and from the tags at all
addresses.  Lists are compared element by element; what the tags at the addresses
below two elements say of these is handed down. -/

section Lists

variable {α β : Type} {strip : α → β} {xs ys : List α}

theorem eq_of_map_eq (hstrip : xs.map strip = ys.map strip)
    (h : ∀ (i : Nat) x y, xs[i]? = some x → ys[i]? = some y → strip x = strip y → x = y) : xs = ys := by
  refine List.ext_getElem? fun i => ?_
  have hi : xs[i]?.map strip = ys[i]?.map strip := by
    rw [← List.getElem?_map, hstrip, List.getElem?_map]
  cases hx : xs[i]? with
  | none =>
      rw [hx, Option.map_none] at hi
      exact (Option.map_eq_none_iff.mp hi.symm).symm
  | some x =>
      rw [hx, Option.map_some] at hi
      obtain ⟨y, hy, hxy⟩ := Option.map_eq_some_iff.mp hi.symm
      rw [hy, h i x y hx hy hxy.symm]

/-- Elements that have nothing below them. -/
theorem eq_of_tags {tagsOf : α → Tags} (hstrip : xs.map strip = ys.map strip)
    (htags : ∀ i : Nat, xs[i]?.map tagsOf = ys[i]?.map tagsOf)
    (h : ∀ x y, strip x = strip y → tagsOf x = tagsOf y → x = y) : xs = ys := by
  refine eq_of_map_eq hstrip fun i x y hx hy hxy => h x y hxy ?_
  have hi := htags i
  rw [hx, hy] at hi
  exact Option.some.inj hi

end Lists

theorem Parameter.eq_of_untagged (p q : Parameter) (h : p.untagged = q.untagged)
    (htags : p.tags = q.tags) : p = q := by
  cases p
  cases q
  simp_all [Parameter.untagged]

theorem Property.eq_of_untagged (p q : Property) (h : p.untagged = q.untagged)
    (htags : p.tags = q.tags) : p = q := by
  cases p
  cases q
  simp_all [Property.untagged]

theorem Field.eq_of_untagged (f g : Field) (h : f.untagged = g.untagged)
    (htags : f.tags = g.tags) : f = g := by
  cases f
  cases g
  simp_all [Field.untagged]

theorem Member.eq_of_untagged (x y : Member) (h : x.untagged = y.untagged)
    (htags : x.tags = y.tags) : x = y := by
  cases x
  cases y
  simp_all [Member.untagged]

theorem Operation.eq_of_untagged {o p : Operation} (h : o.untagged = p.untagged)
    (htags : o.tags = p.tags) (hparameters : o.parameters = p.parameters) : o = p := by
  cases o
  cases p
  simp_all [Operation.untagged]

theorem Signal.eq_of_untagged {s t : Signal} (h : s.untagged = t.untagged)
    (htags : s.tags = t.tags) (hparameters : s.parameters = t.parameters) : s = t := by
  cases s
  cases t
  simp_all [Signal.untagged]

section Known

variable {m n : Module} {k : Nat}
  (htags : ∀ a : Address, a.moduleIndex = k → m.tags? a = n.tags? a)
include htags

theorem interfaces_eq_of_untagged (h : m.untagged = n.untagged) : m.interfaces = n.interfaces := by
  refine eq_of_map_eq (congrArg Module.interfaces h) fun i face gace hface hgace hstrip => ?_
  -- all tags below the two interfaces are tags of the modules at addresses that begin alike
  have htagsAt : face.tags = gace.tags := by
    simpa [Module.tags?, hface, hgace] using htags (.interface k i) rfl
  have hproperties : face.properties = gace.properties := by
    refine eq_of_tags (congrArg Interface.properties hstrip) (fun p => ?_) Property.eq_of_untagged
    simpa [Module.tags?, hface, hgace] using htags (.property k i p) rfl
  have hoperations : face.operations = gace.operations := by
    refine eq_of_map_eq (congrArg Interface.operations hstrip) fun o x y hx hy hxy => ?_
    refine Operation.eq_of_untagged hxy ?_ ?_
    · simpa [Module.tags?, hface, hgace, hx, hy] using htags (.operation k i o) rfl
    · refine eq_of_tags (congrArg Operation.parameters hxy) (fun p => ?_) Parameter.eq_of_untagged
      simpa [Module.tags?, hface, hgace, hx, hy] using htags (.operationParameter k i o p) rfl
  have hsignals : face.signals = gace.signals := by
    refine eq_of_map_eq (congrArg Interface.signals hstrip) fun s x y hx hy hxy => ?_
    refine Signal.eq_of_untagged hxy ?_ ?_
    · simpa [Module.tags?, hface, hgace, hx, hy] using htags (.signal k i s) rfl
    · refine eq_of_tags (congrArg Signal.parameters hxy) (fun p => ?_) Parameter.eq_of_untagged
      simpa [Module.tags?, hface, hgace, hx, hy] using htags (.signalParameter k i s p) rfl
  cases face
  cases gace
  simp_all [Interface.untagged]

theorem structs_eq_of_untagged (h : m.untagged = n.untagged) : m.structs = n.structs := by
  refine eq_of_map_eq (congrArg Module.structs h) fun s x y hx hy hxy => ?_
  have htagsAt : x.tags = y.tags := by
    simpa [Module.tags?, hx, hy] using htags (.struct k s) rfl
  have hfields : x.fields = y.fields := by
    refine eq_of_tags (congrArg Struct.fields hxy) (fun f => ?_) Field.eq_of_untagged
    simpa [Module.tags?, hx, hy] using htags (.field k s f) rfl
  cases x
  cases y
  simp_all [Struct.untagged]

theorem enums_eq_of_untagged (h : m.untagged = n.untagged) : m.enums = n.enums := by
  refine eq_of_map_eq (congrArg Module.enums h) fun e x y hx hy hxy => ?_
  have htagsAt : x.tags = y.tags := by
    simpa [Module.tags?, hx, hy] using htags (.enum k e) rfl
  have hmembers : x.members = y.members := by
    refine eq_of_tags (congrArg Enum.members hxy) (fun v => ?_) Member.eq_of_untagged
    simpa [Module.tags?, hx, hy] using htags (.member k e v) rfl
  cases x
  cases y
  simp_all [Enum.untagged]

theorem Module.eq_of_untagged (h : m.untagged = n.untagged) : m = n := by
  have hinterfaces := interfaces_eq_of_untagged htags h
  have hstructs := structs_eq_of_untagged htags h
  have henums := enums_eq_of_untagged htags h
  have htagsAt : m.tags = n.tags := Option.some.inj (htags (.module k) rfl)
  cases m
  cases n
  simp_all [Module.untagged]

end Known

/-- Systems that differ in nothing but tags, and have the same tags everywhere, are equal. -/
theorem System.eq_of_untagged {s t : System} (h : s.untagged = t.untagged)
    (htags : ∀ a, s.tags? a = t.tags? a) : s = t := by
  refine congrArg System.mk (eq_of_map_eq (congrArg System.modules h) fun k m n hm hn hmn => ?_)
  have htagsAt : ∀ a : Address, a.moduleIndex = k → m.tags? a = n.tags? a := by
    rintro a rfl
    simpa [System.tags?, hm, hn] using htags a
  exact Module.eq_of_untagged htagsAt hmn

end Stencil.Model
