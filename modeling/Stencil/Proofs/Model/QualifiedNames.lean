import Stencil.Proofs.Model.TagChange
import Stencil.Proofs.Text.Cut

/-!
# Qualified names

A qualified name is looked for in two ways: one gives the address at which tags are
changed, the other reads the node.  They find the same node, and it has exactly the
name that was looked for.
-/

namespace Stencil.Model

/-- The first element of a class stands at the first position of one, if there is any. -/
theorem find?_findIdx? {α : Type} (p : α → Bool) (xs : List α) :
    (xs.findIdx? p = none ∧ xs.find? p = none) ∨
      ∃ i x, xs.findIdx? p = some i ∧ xs.find? p = some x ∧ xs[i]? = some x ∧ p x = true := by
  cases h : xs.findIdx? p with
  | none =>
      refine Or.inl ⟨rfl, List.find?_eq_none.mpr fun x hx => ?_⟩
      simp [List.findIdx?_eq_none_iff.mp h x hx]
  | some i =>
      obtain ⟨hi, hp, hbefore⟩ := List.findIdx?_eq_some_iff_getElem.mp h
      refine Or.inr ⟨i, xs[i], rfl, ?_, List.getElem?_eq_getElem hi, hp⟩
      refine List.find?_eq_some_iff_getElem.mpr ⟨hp, i, hi, rfl, fun j hj => ?_⟩
      simpa using hbefore j hj

/-! ## Two ways that meet -/

/-- Two ways to look for a name meet: both find nothing, or one finds the address of the node that
the other finds, and this node has the name. -/
inductive System.Meets (s : System) (name : String) : Option Address → Option Node → Prop
  | missing : Meets s name none none
  | found {a : Address} {n : Node} (hnode : s.node? a = some n) (hname : n.qualifiedName = name) :
      Meets s name (some a) (some n)

section Meeting

variable {s : System} {name : String}

theorem System.Meets.orElse {a a' : Option Address} {n n' : Option Node} (h : s.Meets name a n)
    (h' : s.Meets name a' n') : s.Meets name (a <|> a') (n <|> n') := by
  cases h with
  | missing => simpa using h'
  | found hnode hname => exact .found hnode hname

/-- The two ways meet at the first declaration of a name in a list. -/
theorem System.Meets.first {α : Type} {nameOf : α → String} {xs : List α} {wanted : String}
    {address : Nat → Address} {node : α → Node}
    (hnode : ∀ i x, xs[i]? = some x → s.node? (address i) = some (node x))
    (hname : ∀ x, nameOf x = wanted → (node x).qualifiedName = name) :
    s.Meets name ((xs.findIdx? (nameOf · = wanted)).map address)
      ((xs.find? (nameOf · = wanted)).map node) := by
  rcases find?_findIdx? (nameOf · = wanted) xs with ⟨hi, hx⟩ | ⟨i, x, hi, hx, hat, hp⟩
  · rw [hi, hx]
    exact .missing
  · rw [hi, hx]
    exact .found (hnode i x hat) (hname x (of_decide_eq_true hp))

end Meeting

/-- The name of a type in a module, or of a member of it. -/
def qualify (path : String) : Option String → String
  | none => path
  | some member => path ++ "#" ++ member

/-! ## Inside a module -/

section InModule

variable {s : System} {m : Module} {index : Nat}

theorem meets_type (hm : s.modules[index]? = some m) (type : String) :
    s.Meets (m.name ++ "." ++ type) (m.find? index type none) (m.lookup? type none) := by
  have h : m.lookup? type none = ((m.interface? type).map (.interface m)
      <|> (m.struct? type).map (.struct m) <|> (m.enum? type).map (.enum m)) := by
    unfold Module.lookup?
    cases m.interface? type with
    | some face => rfl
    | none =>
        cases m.struct? type with
        | some struct => rfl
        | none => cases m.enum? type <;> rfl
  rw [h]
  refine .orElse (.first ?_ ?_) (.orElse (.first ?_ ?_) (.first ?_ ?_))
  · intro i face hface
    simp [System.node?, Address.moduleIndex, hm, Module.node?, hface]
  · rintro face rfl
    rfl
  · intro i struct hstruct
    simp [System.node?, Address.moduleIndex, hm, Module.node?, hstruct]
  · rintro struct rfl
    rfl
  · intro i enum henum
    simp [System.node?, Address.moduleIndex, hm, Module.node?, henum]
  · rintro enum rfl
    rfl

theorem meets_inInterface (hm : s.modules[index]? = some m) {i : Nat} {face : Interface}
    (hface : m.interfaces[i]? = some face) (member : String) :
    s.Meets (m.name ++ "." ++ face.name ++ "#" ++ member)
      ((face.properties.findIdx? (·.name = member)).map (.property index i)
        <|> (face.operations.findIdx? (·.name = member)).map (.operation index i)
        <|> (face.signals.findIdx? (·.name = member)).map (.signal index i))
      ((face.property? member).map (.property m face)
        <|> (face.operation? member).map (.operation m face)
        <|> (face.signal? member).map (.signal m face)) := by
  refine .orElse (.first ?_ ?_) (.orElse (.first ?_ ?_) (.first ?_ ?_))
  · intro p x hx
    simp [System.node?, Address.moduleIndex, hm, Module.node?, hface, hx]
  · rintro x rfl
    rfl
  · intro o x hx
    simp [System.node?, Address.moduleIndex, hm, Module.node?, hface, hx]
  · rintro x rfl
    rfl
  · intro g x hx
    simp [System.node?, Address.moduleIndex, hm, Module.node?, hface, hx]
  · rintro x rfl
    rfl

theorem meets_inStruct (hm : s.modules[index]? = some m) {i : Nat} {struct : Struct}
    (hstruct : m.structs[i]? = some struct) (member : String) :
    s.Meets (m.name ++ "." ++ struct.name ++ "#" ++ member)
      ((struct.fields.findIdx? (·.name = member)).map (.field index i))
      ((struct.field? member).map (.field m struct)) := by
  refine .first ?_ ?_
  · intro f x hx
    simp [System.node?, Address.moduleIndex, hm, Module.node?, hstruct, hx]
  · rintro x rfl
    rfl

theorem meets_inEnum (hm : s.modules[index]? = some m) {i : Nat} {enum : Enum}
    (henum : m.enums[i]? = some enum) (member : String) :
    s.Meets (m.name ++ "." ++ enum.name ++ "#" ++ member)
      ((enum.members.findIdx? (·.name = member)).map (.member index i))
      ((enum.member? member).map (.member m enum)) := by
  refine .first ?_ ?_
  · intro k x hx
    simp [System.node?, Address.moduleIndex, hm, Module.node?, henum, hx]
  · rintro x rfl
    rfl

/-- Both ways look for a member in the same type: an interface before a struct, a struct before an
enum. -/
theorem meets_member (hm : s.modules[index]? = some m) (type member : String) :
    s.Meets (m.name ++ "." ++ type ++ "#" ++ member) (m.find? index type (some member))
      (m.lookup? type (some member)) := by
  unfold Module.find? Module.lookup? Module.interface? Module.struct? Module.enum?
  rcases find?_findIdx? (·.name = type) m.interfaces with ⟨hi, hf⟩ | ⟨i, face, hi, hf, hat, hp⟩
  · rcases find?_findIdx? (·.name = type) m.structs with ⟨hs, hg⟩ | ⟨k, struct, hs, hg, hat, hp⟩
    · rcases find?_findIdx? (·.name = type) m.enums with ⟨he, hx⟩ | ⟨e, enum, he, hx, hat, hp⟩
      · simp only [hi, hf, hs, hg, he, hx, Option.bind_none]
        exact .missing
      · simp only [hi, hf, hs, hg, he, hx, Option.bind_some]
        exact of_decide_eq_true hp ▸ meets_inEnum hm hat member
    · simp only [hi, hf, hs, hg]
      exact of_decide_eq_true hp ▸ meets_inStruct hm hat member
  · simp only [hi, hf]
    exact of_decide_eq_true hp ▸ meets_inInterface hm hat member

theorem meets_module (hm : s.modules[index]? = some m) (type : String) (member : Option String) :
    s.Meets (qualify (m.name ++ "." ++ type) member) (m.find? index type member)
      (m.lookup? type member) := by
  cases member with
  | none => exact meets_type hm type
  | some member => exact meets_member hm type member

end InModule

/-! ## In the system -/

namespace System

variable (s : System)

theorem index?_module? (name : String) :
    (s.index? name = none ∧ s.module? name = none) ∨
      ∃ i m, s.index? name = some i ∧ s.module? name = some m ∧ s.modules[i]? = some m ∧
        m.name = name := by
  rcases find?_findIdx? (·.name = name) s.modules with hnone | ⟨i, m, hi, hm, hat, hp⟩
  · exact Or.inl hnone
  · exact Or.inr ⟨i, m, hi, hm, hat, of_decide_eq_true hp⟩

theorem meets_path (path : String) (member : Option String) :
    s.Meets (qualify path member) (find?.inModule s path member)
      (lookup?.lookupIn s path member) := by
  unfold find?.inModule lookup?.lookupIn
  cases hcut : Text.cutLast '.' path with
  | none => exact .missing
  | some p =>
      obtain ⟨name, type⟩ := p
      simp only [Option.bind_some]
      rcases s.index?_module? name with ⟨hi, hm⟩ | ⟨i, m, hi, hm, hat, rfl⟩
      · rw [hi, hm]
        exact .missing
      · have hpath : m.name ++ "." ++ type = path := by
          rw [← String.toList_inj, (Text.cutLast_eq_some.mp hcut).1]
          simp
        rw [hi, hm, Option.bind_some, Option.bind_some, hat, ← hpath]
        exact meets_module hat type member

/-- The address that is found for a qualified name is that of the node which is read for it, and
this node has that name. -/
theorem meets (qualified : String) :
    s.Meets qualified (s.find? qualified) (s.lookup? qualified) := by
  unfold find? lookup?
  cases hcut : Text.cutFirst '#' qualified with
  | some p =>
      obtain ⟨path, member⟩ := p
      have hqualified : qualify path (some member) = qualified := by
        rw [← String.toList_inj, (Text.cutFirst_eq_some.mp hcut).1]
        simp [qualify]
      exact hqualified ▸ s.meets_path path (some member)
  | none =>
      rcases s.index?_module? qualified with ⟨hi, hm⟩ | ⟨i, m, hi, hm, hat, rfl⟩
      · simp only [hi, hm]
        exact s.meets_path qualified none
      · simp only [hi, hm]
        exact .found (by simp [node?, Address.moduleIndex, hat, Module.node?]) rfl

end System

/-! ## Names without tags -/

section Names

variable {α : Type} {f : α → α} {nameOf : α → String} {name : String} {xs : List α}

theorem findIdx?_map_of_name (h : ∀ x, nameOf (f x) = nameOf x) :
    (xs.map f).findIdx? (nameOf · = name) = xs.findIdx? (nameOf · = name) := by
  simp only [List.findIdx?_map, Function.comp_def, h]

theorem find?_map_of_name (h : ∀ x, nameOf (f x) = nameOf x) :
    (xs.map f).find? (nameOf · = name) = (xs.find? (nameOf · = name)).map f := by
  simp only [List.find?_map, Function.comp_def, h]

end Names

section Untagged

variable (m : Module) (index : Nat) (type : String)

theorem findIdx?_interfaces_untagged :
    m.untagged.interfaces.findIdx? (·.name = type) = m.interfaces.findIdx? (·.name = type) :=
  findIdx?_map_of_name fun _ => rfl

theorem findIdx?_structs_untagged :
    m.untagged.structs.findIdx? (·.name = type) = m.structs.findIdx? (·.name = type) :=
  findIdx?_map_of_name fun _ => rfl

theorem findIdx?_enums_untagged :
    m.untagged.enums.findIdx? (·.name = type) = m.enums.findIdx? (·.name = type) :=
  findIdx?_map_of_name fun _ => rfl

theorem find?_type_untagged : m.untagged.find? index type none = m.find? index type none := by
  unfold Module.find?
  rw [findIdx?_interfaces_untagged, findIdx?_structs_untagged, findIdx?_enums_untagged]

theorem find?_member_untagged (member : String) :
    m.untagged.find? index type (some member) = m.find? index type (some member) := by
  have hface : m.untagged.interface? type = (m.interface? type).map Interface.untagged :=
    find?_map_of_name fun _ => rfl
  have hstruct : m.untagged.struct? type = (m.struct? type).map Struct.untagged :=
    find?_map_of_name fun _ => rfl
  have henum : m.untagged.enum? type = (m.enum? type).map Enum.untagged :=
    find?_map_of_name fun _ => rfl
  unfold Module.find?
  simp only [findIdx?_interfaces_untagged, findIdx?_structs_untagged, findIdx?_enums_untagged,
    hface, hstruct, henum]
  rcases find?_findIdx? (·.name = type) m.interfaces with ⟨hi, -⟩ | ⟨i, face, hi, hf, -⟩
  · rcases find?_findIdx? (·.name = type) m.structs with ⟨hs, -⟩ | ⟨k, struct, hs, hg, -⟩
    · rcases find?_findIdx? (·.name = type) m.enums with ⟨he, -⟩ | ⟨e, enum, he, hx, -⟩
      · simp only [hi, hs, he]
      · have hmembers : enum.untagged.members.findIdx? (·.name = member) =
            enum.members.findIdx? (·.name = member) := findIdx?_map_of_name fun _ => rfl
        simp only [hi, hs, he, Module.enum?, hx, Option.map_some, hmembers]
    · have hfields : struct.untagged.fields.findIdx? (·.name = member) =
          struct.fields.findIdx? (·.name = member) := findIdx?_map_of_name fun _ => rfl
      simp only [hi, hs, Module.struct?, hg, Option.map_some, hfields]
  · have hproperties : face.untagged.properties.findIdx? (·.name = member) =
        face.properties.findIdx? (·.name = member) := findIdx?_map_of_name fun _ => rfl
    have hoperations : face.untagged.operations.findIdx? (·.name = member) =
        face.operations.findIdx? (·.name = member) := findIdx?_map_of_name fun _ => rfl
    have hsignals : face.untagged.signals.findIdx? (·.name = member) =
        face.signals.findIdx? (·.name = member) := findIdx?_map_of_name fun _ => rfl
    simp only [hi, Module.interface?, hf, Option.map_some, hproperties, hoperations, hsignals]

theorem find?_module_untagged (member : Option String) :
    m.untagged.find? index type member = m.find? index type member := by
  cases member with
  | none => exact find?_type_untagged m index type
  | some member => exact find?_member_untagged m index type member

end Untagged

namespace System

variable (s : System)

theorem index?_untagged (name : String) : s.untagged.index? name = s.index? name :=
  findIdx?_map_of_name fun _ => rfl

theorem inModule_untagged (path : String) (member : Option String) :
    find?.inModule s.untagged path member = find?.inModule s path member := by
  unfold find?.inModule
  simp only [index?_untagged]
  simp only [untagged, List.getElem?_map, Option.bind_map, find?_module_untagged, Function.comp_def]

/-- An address is found by names alone, so tags do not change what a qualified name stands for. -/
theorem find?_untagged (qualified : String) : s.untagged.find? qualified = s.find? qualified := by
  unfold find?
  simp only [inModule_untagged, index?_untagged]

theorem find?_modifyTags (a : Address) (change : Tags → Tags) (qualified : String) :
    (s.modifyTags a change).find? qualified = s.find? qualified := by
  rw [← find?_untagged, untagged_modifyTags, find?_untagged]

/-! ## Qualified names and tags -/

/-- What the two ways find for a qualified name. -/
theorem cases_of_find? (qualified : String) :
    (s.find? qualified = none ∧ s.lookup? qualified = none) ∨
      ∃ a n, s.find? qualified = some a ∧ s.lookup? qualified = some n ∧ s.node? a = some n ∧
        n.qualifiedName = qualified := by
  have h := s.meets qualified
  generalize s.find? qualified = found, s.lookup? qualified = read at h
  cases h with
  | missing => exact Or.inl ⟨rfl, rfl⟩
  | found hnode hname => exact Or.inr ⟨_, _, rfl, rfl, hnode, hname⟩

theorem lookup?_eq (qualified : String) :
    s.lookup? qualified = (s.find? qualified).bind s.node? := by
  rcases s.cases_of_find? qualified with ⟨hfind, hread⟩ | ⟨a, n, hfind, hread, hnode, -⟩
  · rw [hfind, hread]
    rfl
  · rw [hfind, hread, Option.bind_some, hnode]

/-- No two names stand for the same address. -/
theorem qualified_eq_of_find? {s : System} {a : Address} {left right : String}
    (hleft : s.find? left = some a) (hright : s.find? right = some a) : left = right := by
  have hname : ∀ qualified, s.find? qualified = some a →
      (s.node? a).map Node.qualifiedName = some qualified := by
    intro qualified hfound
    rcases s.cases_of_find? qualified with ⟨hfind, -⟩ | ⟨b, n, hfind, -, hnode, hname⟩
    · rw [hfind] at hfound
      cases hfound
    · rw [hfind] at hfound
      cases hfound
      rw [hnode, Option.map_some, hname]
  exact Option.some.inj ((hname left hleft).symm.trans (hname right hright))

/-- The tags that are read under a name after those at an address were changed. -/
theorem map_tags_lookup?_modifyTags (a : Address) (change : Tags → Tags) (qualified : String) :
    ((s.modifyTags a change).lookup? qualified).map Node.tags =
      if s.find? qualified = some a then (s.tags? a).map change
      else (s.lookup? qualified).map Node.tags := by
  rw [lookup?_eq, lookup?_eq, find?_modifyTags]
  cases s.find? qualified with
  | none => rfl
  | some b =>
      simp only [Option.bind_some, map_tags_node?, tags?_modifyTags, Option.some.injEq]
      by_cases hb : b = a
      · rw [if_pos hb, if_pos hb, hb]
      · rw [if_neg hb, if_neg hb]

/-- Tags can be changed under a qualified name exactly if a node is read under it.  They are the tags
of that node, which has exactly this name and is reached under no other.  A change of them is seen
at the address of the node, and under its name, and nowhere else. -/
theorem changes_node_of_lookup? (qualified : String) :
    ((s.find? qualified).isSome ↔ (s.lookup? qualified).isSome) ∧
    ∀ a, s.find? qualified = some a →
      ∃ n, s.lookup? qualified = some n ∧ s.node? a = some n ∧ n.qualifiedName = qualified ∧
        (∀ other, s.find? other = some a → other = qualified) ∧
        ∀ change : Tags → Tags,
          ((s.modifyTags a change).node? a).map Node.tags = some (change n.tags) ∧
          (∀ b, b ≠ a →
            ((s.modifyTags a change).node? b).map Node.tags = (s.node? b).map Node.tags) ∧
          (s.modifyTags a change).untagged = s.untagged ∧
          ∀ other, ((s.modifyTags a change).lookup? other).map Node.tags =
            if other = qualified then some (change n.tags)
            else (s.lookup? other).map Node.tags := by
  rcases s.cases_of_find? qualified with ⟨hfind, hread⟩ | ⟨a, n, hfind, hread, hnode, hname⟩
  · rw [hfind, hread]
    exact ⟨Iff.rfl, fun a ha => nomatch ha⟩
  rw [hfind, hread]
  refine ⟨Iff.rfl, ?_⟩
  rintro _ ⟨rfl⟩
  have htags : s.tags? a = some n.tags := by rw [← map_tags_node?, hnode, Option.map_some]
  have honly : ∀ other, s.find? other = some a ↔ other = qualified :=
    fun other => ⟨fun hother => qualified_eq_of_find? hother hfind, fun heq => heq ▸ hfind⟩
  refine ⟨n, rfl, hnode, hname, fun other => (honly other).mp, fun change => ⟨?_, ?_, ?_, ?_⟩⟩
  · rw [map_tags_node?, tags?_modifyTags, if_pos rfl, htags, Option.map_some]
  · intro b hb
    rw [map_tags_node?, map_tags_node?, tags?_modifyTags, if_neg hb]
  · exact s.untagged_modifyTags a change
  · intro other
    simp only [map_tags_lookup?_modifyTags, honly, htags, Option.map_some]

end System

namespace Sample

/-- A module with dots in its name, in which an interface hides a struct of its name. -/
def shadowed : System :=
  ⟨[{ (default : Module) with
      name := "org.example"
      interfaces := [{ (default : Interface) with
        name := "Echo"
        properties := [{ (default : Property) with name := "text" }] }]
      structs := [{ (default : Struct) with
        name := "Echo"
        fields := [{ (default : Field) with name := "text" }] }] }]⟩

end Sample

theorem System.changes_node_of_lookup?_shadowed :
    Sample.shadowed.find? "org.example.Echo#text" = some (.property 0 0 0) ∧
      ∃ n, Sample.shadowed.lookup? "org.example.Echo#text" = some n ∧
        n.qualifiedName = "org.example.Echo#text" ∧
        ∀ change : Tags → Tags,
          ((Sample.shadowed.modifyTags (.property 0 0 0) change).node? (.property 0 0 0)).map
            Node.tags = some (change n.tags) := by
  have hfind : Sample.shadowed.find? "org.example.Echo#text" = some (.property 0 0 0) := by
    decide +kernel
  obtain ⟨n, hread, -, hname, -, hchange⟩ :=
    (Sample.shadowed.changes_node_of_lookup? "org.example.Echo#text").2 _ hfind
  exact ⟨hfind, n, hread, hname, fun change => (hchange change).1⟩

end Stencil.Model
