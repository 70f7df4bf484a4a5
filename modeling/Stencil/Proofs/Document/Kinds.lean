import Stencil.Proofs.Document.References
import Stencil.Proofs.Model.QualifiedNames
import Stencil.Template.Handle

/-!
# Kinds of references

A name may be declared in several documents of a module, each time as something
else.  The type of a reference follows the last of these declarations, whatever it
is; the node that a template reaches from the type is the first interface of the
name, or else the first struct, or else the first enum.  So type and node agree
exactly if the last declaration is what comes first in that order.
-/

namespace Stencil.Model

/-- The declaration that is found for the reference of a type, in the way its kind asks for. -/
def System.declaration? (s : System) : DataType → Option Node
  | .enum r | .flag r => (s.enum? r).map fun (m, e) => .enum m e
  | .struct r => (s.struct? r).map fun (m, x) => .struct m x
  | .interface r => (s.interface? r).map fun (m, i) => .interface m i
  | .void | .primitive _ | .list _ | .model _ | .map _ => none

/-- A node is a declaration of the kind that a type says. -/
def Node.HasKindOf : Node → DataType → Prop
  | .enum _ e, .enum _ => e.isFlag = false
  | .enum _ e, .flag _ => e.isFlag = true
  | .struct _ _, .struct _ => True
  | .interface _ _, .interface _ => True
  | _, _ => False

/-- What holds of all types of a module holds of every typed symbol at an address in it. -/
theorem Module.AllTypes.type_of_node? {P : DataType → Prop} {m : Module} (hm : m.AllTypes P)
    {a : Address} {n : Node} (hn : m.node? a = some n) {x : Symbol} (hx : n.symbol? = some x) :
    P x.type := by
  cases a <;>
    simp only [Module.node?, Option.some.injEq, Option.bind_eq_some_iff,
      Option.map_eq_some_iff] at hn
  case module =>
      subst hn
      cases hx
  case interface | struct | enum =>
      obtain ⟨y, -, rfl⟩ := hn
      cases hx
  case signal | member =>
      obtain ⟨y, -, z, -, rfl⟩ := hn
      cases hx
  case property =>
      obtain ⟨i, hi, p, hp, rfl⟩ := hn
      cases hx
      exact (hm.interfaces i (List.mem_of_getElem? hi)).properties p (List.mem_of_getElem? hp)
  case operation =>
      obtain ⟨i, hi, o, ho, rfl⟩ := hn
      cases hx
      exact (hm.interfaces i (List.mem_of_getElem? hi)).results o (List.mem_of_getElem? ho)
  case operationParameter =>
      obtain ⟨i, hi, o, ho, p, hp, rfl⟩ := hn
      cases hx
      exact (hm.interfaces i (List.mem_of_getElem? hi)).parameters o (List.mem_of_getElem? ho) p
        (List.mem_of_getElem? hp)
  case signalParameter =>
      obtain ⟨i, hi, g, hg, p, hp, rfl⟩ := hn
      cases hx
      exact (hm.interfaces i (List.mem_of_getElem? hi)).signals g (List.mem_of_getElem? hg) p
        (List.mem_of_getElem? hp)
  case field =>
      obtain ⟨y, hy, f, hf, rfl⟩ := hn
      cases hx
      exact hm.structs y (List.mem_of_getElem? hy) f (List.mem_of_getElem? hf)

end Stencil.Model

namespace Stencil.Document

open Model (Address DataType Module Node SymbolRef System)
open Template (Handle)

/-! ## The declarations of one name -/

/-- What documents declare a name to be, one declaration after another. -/
def kindsIn (docs : List Document) (name : String) : List Declared :=
  ((docs.flatMap declarations).filter (·.1 = name)).map (·.2)

/-- What the documents of its module declare a name to be. -/
def kindsOf (docs : List Document) (r : SymbolRef) : List Declared :=
  kindsIn (docs.filter (·.module = r.module)) r.name

/-- What is taken first of several declarations of a name: an interface, or else a struct, or else
the first enum. -/
def leading (kinds : List Declared) : Option Declared :=
  if .interface ∈ kinds then some .interface
  else if .struct ∈ kinds then some .struct
  else kinds.head?

theorem exists_leading {kinds : List Declared} {d : Declared} (h : kinds.getLast? = some d) :
    ∃ e, leading kinds = some e := by
  unfold leading
  split
  · exact ⟨_, rfl⟩
  · split
    · exact ⟨_, rfl⟩
    · cases kinds with
      | nil => cases h
      | cons e rest => exact ⟨e, rfl⟩

/-- The first entry of a key has the first of the values that are listed with it. -/
theorem lookup_eq_head? {α β : Type} [DecidableEq α] (xs : List (α × β)) (key : α) :
    xs.lookup key = ((xs.filter (·.1 = key)).map (·.2)).head? := by
  induction xs with
  | nil => rfl
  | cons x xs ih =>
      obtain ⟨k, v⟩ := x
      by_cases h : k = key
      · subst h
        simp
      · have hkey : (key == k) = false := by simpa using fun heq => h heq.symm
        rw [List.lookup_cons, hkey, ih]
        simp [h]

/-- A name is what the last of its declarations says. -/
theorem symbols_eq_getLast? (docs : List Document) (r : SymbolRef) :
    symbols docs r.module r.name = (kindsOf docs r).getLast? := by
  unfold symbols kindsOf kindsIn
  rw [lookup_eq_head?, List.filter_reverse, List.map_reverse, List.head?_reverse]

section OneName

variable {docs : List Document} {name : String}

theorem mem_kindsIn {d : Declared} :
    d ∈ kindsIn docs name ↔ ∃ doc ∈ docs, (name, d) ∈ declarations doc := by
  simp [kindsIn]

theorem interface_mem_kindsIn :
    .interface ∈ kindsIn docs name ↔ name ∈ docs.flatMap (·.interfaces.map (·.name)) := by
  simp [mem_kindsIn, declarations]

theorem struct_mem_kindsIn :
    .struct ∈ kindsIn docs name ↔ name ∈ docs.flatMap (·.structs.map (·.name)) := by
  simp [mem_kindsIn, declarations]

/-- A name that is neither an interface nor a struct is declared as the enums say. -/
theorem kindsIn_eq_enums (hinterface : .interface ∉ kindsIn docs name)
    (hstruct : .struct ∉ kindsIn docs name) :
    kindsIn docs name =
      ((docs.flatMap (·.enums.map fun e => (e.name, e.flag))).filter (·.1 = name)).map
        (Declared.enum ·.2) := by
  simp only [interface_mem_kindsIn, struct_mem_kindsIn, List.mem_flatMap, List.mem_map,
    not_exists, not_and] at hinterface hstruct
  unfold kindsIn
  rw [List.filter_flatMap, List.filter_flatMap, List.map_flatMap, List.map_flatMap]
  refine List.flatMap_congr fun doc hdoc => ?_
  have hinterfaces : (doc.interfaces.map fun i => (i.name, Declared.interface)).filter
      (·.1 = name) = [] := by
    simpa using hinterface doc hdoc
  have hstructs : (doc.structs.map fun s => (s.name, Declared.struct)).filter (·.1 = name) = [] := by
    simpa using hstruct doc hdoc
  rw [declarations, List.filter_append, List.filter_append, hinterfaces, hstructs, List.append_nil,
    List.append_nil, List.filter_map, List.filter_map, List.map_map, List.map_map]
  rfl

end OneName

/-! ## The declarations of a built module -/

/-- The enums of a module are flags where they are declared so. -/
theorem flags_of_assemble {table : Symbols} {name : String} {sources : List Source} {m : Module}
    (h : assemble table name sources = .ok m) :
    m.enums.map (fun e => (e.name, e.isFlag)) =
      (sources.map (·.document)).flatMap (·.enums.map fun e => (e.name, e.flag)) := by
  obtain ⟨version, parts, -, hparts, rfl⟩ := assemble_eq_ok.mp h
  rw [moduleOf, List.map_flatMap, List.flatMap_map]
  refine flatMap_of_mapM ?_ hparts
  intro s c hc
  rw [← (contents_eq_ok.mp hc).2.2, List.map_map]
  rfl

/-- What a declaration stands for, if types can refer to it. -/
def Declared.ofNode? : Node → Option Declared
  | .interface _ _ => some .interface
  | .struct _ _ => some .struct
  | .enum _ e => some (.enum e.isFlag)
  | _ => none

theorem hasKindOf_type_iff {n : Node} {d : Declared} {r : SymbolRef} :
    n.HasKindOf (d.type r) ↔ Declared.ofNode? n = some d := by
  cases d with
  | enum flag => cases n <;> cases flag <;> simp [Declared.type, Declared.ofNode?, Node.HasKindOf]
  | struct => cases n <;> simp [Declared.type, Declared.ofNode?, Node.HasKindOf]
  | interface => cases n <;> simp [Declared.type, Declared.ofNode?, Node.HasKindOf]

/-- The node of a name in a module is what comes first of its declarations there. -/
theorem ofNode?_lookup? {table : Symbols} {name : String} {sources : List Source} {m : Module}
    (h : assemble table name sources = .ok m) (type : String) :
    (m.lookup? type none).bind Declared.ofNode? =
      leading (kindsIn (sources.map (·.document)) type) := by
  have hlists := lists_of_assemble h
  have hinterface : .interface ∈ kindsIn (sources.map (·.document)) type ↔
      (m.interface? type).isSome := by
    rw [interface_mem_kindsIn, ← hlists.interfaces]
    simp [Module.interface?]
  have hstruct : .struct ∈ kindsIn (sources.map (·.document)) type ↔
      (m.struct? type).isSome := by
    rw [struct_mem_kindsIn, ← hlists.structs]
    simp [Module.struct?]
  unfold leading Module.lookup?
  cases hface : m.interface? type with
  | some face =>
      rw [hface] at hinterface
      rw [if_pos (hinterface.mpr rfl)]
      rfl
  | none =>
      rw [hface] at hinterface
      have hno : .interface ∉ kindsIn (sources.map (·.document)) type := by simp [hinterface]
      rw [if_neg hno]
      cases hs : m.struct? type with
      | some struct =>
          rw [hs] at hstruct
          rw [if_pos (hstruct.mpr rfl)]
          rfl
      | none =>
          rw [hs] at hstruct
          have hnone : .struct ∉ kindsIn (sources.map (·.document)) type := by simp [hstruct]
          rw [if_neg hnone, kindsIn_eq_enums hno hnone, ← flags_of_assemble h, List.head?_map,
            List.head?_filter, List.find?_map, Option.map_map]
          simp only [Module.enum?, Function.comp_def]
          cases m.enums.find? (·.name = type) <;> rfl

/-- The node of a name is the declaration that is found for the type of its kind. -/
theorem declaration?_of_lookup? {s : System} {r : SymbolRef} {m : Module}
    (hm : s.module? r.module = some m) {n : Node} (hn : m.lookup? r.name none = some n)
    {d : Declared} (hd : Declared.ofNode? n = some d) : s.declaration? (d.type r) = some n := by
  unfold Module.lookup? at hn
  cases hface : m.interface? r.name with
  | some face =>
      simp only [hface, Option.some.injEq] at hn
      subst hn
      cases hd
      simp [Declared.type, System.declaration?, System.interface?, hm, hface]
  | none =>
      cases hstruct : m.struct? r.name with
      | some struct =>
          simp only [hface, hstruct, Option.some.injEq] at hn
          subst hn
          cases hd
          simp [Declared.type, System.declaration?, System.struct?, hm, hstruct]
      | none =>
          simp only [hface, hstruct, Option.bind_eq_some_iff, Option.some.injEq] at hn
          obtain ⟨enum, henum, rfl⟩ := hn
          cases hd
          cases hflag : enum.isFlag <;>
            simp [Declared.type, System.declaration?, System.enum?, hm, henum]

/-- A reference leads to the node that its module has for the name. -/
theorem node?_of_ofReference? {s : System} {r : SymbolRef} {m : Module}
    (hm : s.module? r.module = some m) {n : Node} (hn : m.lookup? r.name none = some n) :
    ∃ a, Handle.ofReference? s r = some (.node a) ∧ s.node? a = some n := by
  rcases s.index?_module? r.module with ⟨-, hnone⟩ | ⟨index, found, hindex, hfound, hat, -⟩
  · rw [hm] at hnone
    cases hnone
  · rw [hm] at hfound
    cases hfound
    have hmeets := Model.meets_type hat r.name
    generalize hfind : m.find? index r.name none = address at hmeets
    rw [hn] at hmeets
    cases hmeets with
    | @found a n hnode hname =>
        refine ⟨a, ?_, hnode⟩
        rw [Handle.ofReference?, hindex, Option.bind_some, hat, Option.bind_some, hfind]
        rfl

/-! ## The types of a built system -/

/-- The type of a handle is covered by the symbols that the system was built with. -/
theorem cover_of_handle {sources : List Source} {s : System} (h : build sources = .ok s)
    {a : Address} {depth : Nat} {t : DataType} (ht : (Handle.type a depth).type? s = some t) :
    (symbols (sources.map (·.document))).Cover t := by
  obtain ⟨x, hx, rfl⟩ := Option.map_eq_some_iff.mp ht
  obtain ⟨outer, houter, hinner⟩ := Option.bind_eq_some_iff.mp hx
  obtain ⟨n, hn, hsymbol⟩ := Option.bind_eq_some_iff.mp houter
  obtain ⟨m, hm, hnode⟩ := Option.bind_eq_some_iff.mp hn
  have hall := allTypes_of_assemble (assemble_of_mem_modules h (List.mem_of_getElem? hm))
  have htype : outer.type.inner? depth = some x.type := by
    rw [← Model.Symbol.map_type_inner?, hinner, Option.map_some]
  exact cover_of_inner? (hall.type_of_node? hnode hsymbol) htype

/-- A reference that the symbols cover is of the kind that they know its name for. -/
theorem exists_declared_of_cover {table : Symbols} {t : DataType} (h : table.Cover t)
    {r : SymbolRef} (hr : t.reference? = some r) :
    ∃ d, table r.module r.name = some d ∧ d.type r = t := by
  cases t with
  | enum =>
      cases hr
      exact ⟨.enum false, h, rfl⟩
  | flag =>
      cases hr
      exact ⟨.enum true, h, rfl⟩
  | struct =>
      cases hr
      exact ⟨.struct, h, rfl⟩
  | interface =>
      cases hr
      exact ⟨.interface, h, rfl⟩
  | void | primitive | list | model | map => cases hr

/-- The kinds that a module has for a name are those of all documents of the module. -/
theorem kindsOf_eq (sources : List Source) (r : SymbolRef) :
    kindsOf (sources.map (·.document)) r =
      kindsIn ((group sources r.module).map (·.document)) r.name := by
  unfold kindsOf group
  rw [List.filter_map]
  rfl

/-- A type that refers to a declaration always has a node in templates.  It is of the kind of the
type, and the very declaration that is found for the type by its kind, exactly if the last
declaration of the name in the documents of its module is what comes first there. -/
theorem reference_agrees_iff {sources : List Source} {s : System} (h : build sources = .ok s)
    {a : Address} {depth : Nat} {t : DataType} (ht : (Handle.type a depth).type? s = some t)
    {r : SymbolRef} (hr : t.reference? = some r) :
    ∃ node n, (Handle.type a depth).attribute? s "reference" = some (.handle node) ∧
      node.node? s = some n ∧
      (n.HasKindOf t ∧ s.declaration? t = some n ↔
        leading (kindsOf (sources.map (·.document)) r) =
          (kindsOf (sources.map (·.document)) r).getLast?) := by
  obtain ⟨d, hd, rfl⟩ := exists_declared_of_cover (cover_of_handle h ht) hr
  obtain ⟨m, hm, -⟩ := standsIn_of_symbols h hd
  rw [symbols_eq_getLast?] at hd
  obtain ⟨e, he⟩ := exists_leading hd
  have hlookup := ofNode?_lookup? ((module?_eq_some_iff h).mp hm).2 r.name
  rw [← kindsOf_eq, he] at hlookup
  obtain ⟨n, hn, hkind⟩ := Option.bind_eq_some_iff.mp hlookup
  obtain ⟨address, hreference, hnode⟩ := node?_of_ofReference? hm hn
  refine ⟨.node address, n, ?_, hnode, ?_⟩
  · have hattribute : (Handle.type a depth).attribute? s "reference" =
        (((d.type r).reference?).bind (Handle.ofReference? s)).map .handle := by
      rw [Handle.attribute?, ht]
      rfl
    rw [hattribute, hr, Option.bind_some, hreference]
    rfl
  · rw [he, hd, hasKindOf_type_iff, hkind]
    constructor
    · rintro ⟨hsame, -⟩
      exact hsame
    · intro hsame
      cases hsame
      exact ⟨rfl, declaration?_of_lookup? hm hn hkind⟩

namespace Sample

/-- A document that declares an interface. -/
def face : Source :=
  ⟨⟨"face.yaml", ""⟩,
    { (default : Document) with
      module := "m"
      interfaces := [{ (default : Interface) with name := "Item" }] }⟩

/-- A later document of the same module that declares a struct of the same name and refers to it. -/
def record : Source :=
  ⟨⟨"record.yaml", ""⟩,
    { (default : Document) with
      module := "m"
      structs := [{ (default : Struct) with name := "Item" }]
      interfaces := [{ (default : Interface) with
        name := "Shelf"
        properties := [{ (default : Property) with name := "items", type := "list<Item>" }] }] }⟩

end Sample

/-- Where the interface is declared last, both the type and the node are that interface. -/
theorem reference_agrees_iff_face_last :
    ∃ s, build [Sample.record, Sample.face] = .ok s ∧
      (Handle.type (.property 0 0 0) 1).type? s = some (.interface ⟨"m", "Item"⟩) ∧
      ∃ node n, (Handle.type (.property 0 0 0) 1).attribute? s "reference" = some (.handle node) ∧
        node.node? s = some n ∧ n.HasKindOf (.interface ⟨"m", "Item"⟩) ∧
        s.declaration? (.interface ⟨"m", "Item"⟩) = some n := by
  have htype : (build [Sample.record, Sample.face]).toOption.map
      (Handle.type (.property 0 0 0) 1).type? = some (some (.interface ⟨"m", "Item"⟩)) := by
    decide +kernel
  cases h : build [Sample.record, Sample.face] with
  | error e =>
      rw [h] at htype
      cases htype
  | ok s =>
      rw [h] at htype
      have ht := Option.some.inj htype
      obtain ⟨node, n, hattribute, hnode, hagree⟩ := reference_agrees_iff h ht rfl
      exact ⟨s, rfl, ht, node, n, hattribute, hnode, hagree.mpr (by decide +kernel)⟩

/-- Where the struct is declared last, the type is a struct and the node an interface. -/
theorem not_reference_agrees :
    ¬ ∀ (sources : List Source) (s : System), build sources = .ok s →
      ∀ (a : Address) (depth : Nat) (t : DataType) (r : SymbolRef),
        (Handle.type a depth).type? s = some t → t.reference? = some r →
          ∃ node n, (Handle.type a depth).attribute? s "reference" = some (.handle node) ∧
            node.node? s = some n ∧ n.HasKindOf t ∧ s.declaration? t = some n := by
  intro hclaim
  have hrun : (build [Sample.face, Sample.record]).toOption.map (fun s =>
      ((Handle.type (.property 0 1 0) 1).type? s,
        (Handle.type (.property 0 1 0) 1).attribute? s "reference",
        (s.node? (.interface 0 0)).map (·.kind))) =
      some (some (.struct ⟨"m", "Item"⟩), some (.handle (.node (.interface 0 0))),
        some "Interface") := by
    decide +kernel
  cases h : build [Sample.face, Sample.record] with
  | error e =>
      rw [h] at hrun
      cases hrun
  | ok s =>
      rw [h] at hrun
      obtain ⟨htype, hrest⟩ := Prod.mk.inj (Option.some.inj hrun)
      obtain ⟨hreference, hkind⟩ := Prod.mk.inj hrest
      obtain ⟨node, n, hattribute, hnode, hagrees, -⟩ := hclaim _ s h _ _ _ _ htype rfl
      rw [hreference] at hattribute
      cases hattribute
      obtain ⟨found, hfound, hinterface⟩ := Option.map_eq_some_iff.mp hkind
      cases hnode.symm.trans hfound
      -- a node of the kind of the type would be a struct
      cases n with
      | struct m x => simp [Node.kind] at hinterface
      | _ => exact hagrees

end Stencil.Document
