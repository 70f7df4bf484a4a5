import Stencil.Proofs.Distinct
import Stencil.Proofs.Prepare.Tagged
import Stencil.Proofs.Prepare.VisitedNames
import Stencil.Proofs.Template.Reached

/-!
# The index of the modules

A system is built by calls: modules are added, annotations are merged into its nodes, and
the nodes get their settings.  The modules stand in the order in which they were added,
and each is found under its own name and at one index.  Later calls change no more of a
module than tags and settings and put new modules at the end, so an address or a handle
leads to the same declaration ever after.
-/

namespace Stencil

namespace Model

/-! ## Outlines -/

/-- An interface without tags and settings. -/
def Interface.outline (i : Interface) : Interface := i.bare.untagged

/-- A struct without tags and settings. -/
def Struct.outline (s : Struct) : Struct := s.bare.untagged

/-- An enum without tags and settings. -/
def Enum.outline (e : Enum) : Enum := e.bare.untagged

/-- A module without tags and settings. -/
def Module.outline (m : Module) : Module := m.bare.untagged

/-- A node without the tags and settings of its declaration and of those around it. -/
def Node.outline : Node → Node
  | .module m => .module m.outline
  | .interface m i => .interface m.outline i.outline
  | .struct m s => .struct m.outline s.outline
  | .enum m e => .enum m.outline e.outline
  | .property m i p => .property m.outline i.outline p.bare
  | .operation m i o => .operation m.outline i.outline o.untagged
  | .signal m i s => .signal m.outline i.outline s.untagged
  | .parameter m i p => .parameter m.outline i.outline p.untagged
  | .field m s f => .field m.outline s.outline f.untagged
  | .member m e x => .member m.outline e.outline x.untagged

/-- The modules of a system without tags and settings, in order. -/
def System.outlines (s : System) : List Module := s.modules.map Module.outline

section Outlines

theorem kind_outline (n : Node) : n.outline.kind = n.kind := by
  cases n <;> rfl

theorem name_outline (n : Node) : n.outline.name = n.name := by
  cases n <;> rfl

theorem qualifiedName_outline (n : Node) : n.outline.qualifiedName = n.qualifiedName := by
  cases n <;> rfl

theorem type_outline (n : Node) : n.outline.symbol?.map (·.type) = n.symbol?.map (·.type) := by
  cases n <;> rfl

theorem Module.interfaces_outline (m : Module) :
    m.outline.interfaces = m.interfaces.map Interface.outline :=
  List.map_map

theorem Module.structs_outline (m : Module) : m.outline.structs = m.structs.map Struct.outline :=
  List.map_map

theorem Module.enums_outline (m : Module) : m.outline.enums = m.enums.map Enum.outline :=
  List.map_map

theorem Interface.properties_outline (i : Interface) :
    i.outline.properties = i.properties.map Property.bare :=
  List.map_map

theorem Interface.operations_outline (i : Interface) :
    i.outline.operations = i.operations.map Operation.untagged :=
  List.map_map

theorem Interface.signals_outline (i : Interface) :
    i.outline.signals = i.signals.map Signal.untagged :=
  List.map_map

theorem Struct.fields_outline (s : Struct) : s.outline.fields = s.fields.map Field.untagged :=
  List.map_map

theorem Enum.members_outline (e : Enum) : e.outline.members = e.members.map Member.untagged :=
  List.map_map

/-- Tags and settings may be taken away in any order. -/
theorem bare_untagged (m : Module) : m.untagged.bare = m.outline := by
  have hinterface : ∀ i : Interface, i.untagged.bare = i.outline := by
    intro i
    simp [Interface.outline, Interface.untagged, Interface.bare, Function.comp_def,
      Property.untagged, Property.bare, Operation.untagged, Operation.bare, Signal.untagged,
      Signal.bare]
  have hstruct : ∀ s : Struct, s.untagged.bare = s.outline := by
    intro s
    simp [Struct.outline, Struct.untagged, Struct.bare]
  have henum : ∀ e : Enum, e.untagged.bare = e.outline := by
    intro e
    simp [Enum.outline, Enum.untagged, Enum.bare]
  simp [Module.outline, Module.untagged, Module.bare, hinterface, hstruct, henum,
    Interface.outline, Struct.outline, Enum.outline]

/-- An address leads to the outline of the node to which it leads. -/
theorem Module.node?_outline (m : Module) (a : Address) :
    m.outline.node? a = (m.node? a).map Node.outline := by
  cases a with
  | module => rfl
  | interface | property | operation | signal =>
      simp [Module.node?, Module.interfaces_outline, Interface.properties_outline,
        Interface.operations_outline, Interface.signals_outline, Node.outline, Option.map_bind,
        Option.bind_map, Function.comp_def]
  | operationParameter | signalParameter =>
      simp [Module.node?, Module.interfaces_outline, Interface.operations_outline,
        Interface.signals_outline, Operation.untagged, Signal.untagged, Node.outline,
        Option.map_bind, Option.bind_map, Function.comp_def]
  | struct | field =>
      simp [Module.node?, Module.structs_outline, Struct.fields_outline, Node.outline,
        Option.map_bind, Option.bind_map, Function.comp_def]
  | enum | member =>
      simp [Module.node?, Module.enums_outline, Enum.members_outline, Node.outline,
        Option.map_bind, Option.bind_map, Function.comp_def]

end Outlines

/-! ## Systems that begin alike -/

theorem System.names_eq_outlines (s : System) : s.names = s.outlines.map (·.name) := by
  unfold System.outlines
  rw [List.map_map]
  rfl

theorem System.index?_eq_names (s : System) (name : String) :
    s.index? name = s.names.findIdx? (· = name) := by
  unfold System.names
  rw [List.findIdx?_map]
  rfl

/-- What a later system keeps of an earlier one: the index of every module, and the declarations to
which addresses and the handles of templates lead, but for tags and settings. -/
structure System.Continues (s later : System) : Prop where
  index : ∀ name i, s.index? name = some i → later.index? name = some i
  node : ∀ a n, s.node? a = some n → ∃ n', later.node? a = some n' ∧ n'.outline = n.outline ∧
    n'.kind = n.kind ∧ n'.qualifiedName = n.qualifiedName
  handle : ∀ h, Template.Resolved s h →
    Template.Resolved later h ∧ h.name later = h.name s ∧ h.type? later = h.type? s

section Beginning

variable {s later : System} (h : s.outlines <+: later.outlines)
include h

theorem index?_of_prefix {name : String} {i : Nat} (hi : s.index? name = some i) :
    later.index? name = some i := by
  obtain ⟨rest, hrest⟩ := h
  rw [System.index?_eq_names, System.names_eq_outlines] at hi ⊢
  rw [← hrest, List.map_append, List.findIdx?_append, hi]
  rfl

theorem exists_node?_of_prefix {a : Address} {n : Node} (hn : s.node? a = some n) :
    ∃ n', later.node? a = some n' ∧ n'.outline = n.outline := by
  obtain ⟨m, hm, hnode⟩ := Option.bind_eq_some_iff.mp hn
  have houtline : s.outlines[a.moduleIndex]? = some m.outline := by
    simp [System.outlines, hm]
  obtain ⟨rest, hrest⟩ := h
  have hlater : later.outlines[a.moduleIndex]? = some m.outline := by
    rw [← hrest, List.getElem?_append_left (List.getElem?_eq_some_iff.mp houtline).1]
    exact houtline
  obtain ⟨m', hm', heq⟩ : ∃ m', later.modules[a.moduleIndex]? = some m' ∧
      m'.outline = m.outline := by
    simpa [System.outlines] using hlater
  -- the two modules have one outline, and the address leads into it
  have hsame : (m'.node? a).map Node.outline = some n.outline := by
    rw [← Module.node?_outline, heq, Module.node?_outline, hnode]
    rfl
  obtain ⟨n', hn', hout⟩ := Option.map_eq_some_iff.mp hsame
  refine ⟨n', ?_, hout⟩
  rw [System.node?, hm', Option.bind_some, hn']

theorem type?_of_prefix {a : Address} {n : Node} (hn : s.node? a = some n) (depth : Nat) :
    (Template.Handle.type a depth).type? later = (Template.Handle.type a depth).type? s := by
  obtain ⟨n', hn', hout⟩ := exists_node?_of_prefix h hn
  have htype : n'.symbol?.map (·.type) = n.symbol?.map (·.type) := by
    rw [← type_outline, hout, type_outline]
  have hmap : ∀ x? : Option Symbol, (x?.bind fun x => x.type.inner? depth) =
      (x?.map (·.type)).bind (DataType.inner? depth) := by
    intro x?
    cases x? <;> rfl
  rw [Template.type?_eq, Template.type?_eq, hn', hn]
  simp only [Option.bind_some]
  rw [hmap, hmap, htype]

theorem continues_of_prefix : s.Continues later where
  index _ _ := index?_of_prefix h
  node a n hn := by
    obtain ⟨n', hn', hout⟩ := exists_node?_of_prefix h hn
    refine ⟨n', hn', hout, ?_, ?_⟩
    · rw [← kind_outline, hout, kind_outline]
    · rw [← qualifiedName_outline, hout, qualifiedName_outline]
  handle handle hresolved := by
    cases handle with
    | system => exact ⟨trivial, rfl, rfl⟩
    | node a =>
        obtain ⟨n, hn⟩ := hresolved
        obtain ⟨n', hn', hout⟩ := exists_node?_of_prefix h hn
        refine ⟨⟨n', hn'⟩, ?_, rfl⟩
        simp only [Template.Handle.name, hn', hn]
        rw [← name_outline, hout, name_outline]
    | type a depth =>
        obtain ⟨t, ht⟩ := hresolved
        obtain ⟨x, hx, -⟩ := Option.bind_eq_some_iff.mp ((Template.type?_eq s a depth).symm.trans ht)
        obtain ⟨n, hn, -⟩ := Option.bind_eq_some_iff.mp hx
        have htype := type?_of_prefix h hn depth
        refine ⟨⟨t, htype.trans ht⟩, ?_, htype⟩
        simp only [Template.Handle.name, htype]

end Beginning

/-! ## Modules under their names -/

/-- Every module is found under its own name, at one index, and at no other place. -/
structure System.Indexed (s : System) : Prop where
  distinct : s.names.Nodup
  contains : ∀ name, s.contains name = true ↔ name ∈ s.names
  at_index : ∀ i m, s.modules[i]? = some m →
    s.index? m.name = some i ∧ s.module? m.name = some m
  under_name : ∀ name i, s.index? name = some i →
    ∃ m, s.modules[i]? = some m ∧ m.name = name ∧ s.module? name = some m
  missing : ∀ name, name ∉ s.names → s.index? name = none ∧ s.module? name = none

theorem System.contains_iff (s : System) (name : String) :
    s.contains name = true ↔ name ∈ s.names := by
  simp [System.contains, System.names]

theorem System.indexed_of_nodup {s : System} (h : s.names.Nodup) : s.Indexed where
  distinct := h
  contains := s.contains_iff
  at_index _ _ hm := first_of_nodup h hm
  under_name name i hi := by
    rcases s.index?_module? name with ⟨hnone, -⟩ | ⟨j, m, hj, hm, hat, hname⟩
    · rw [hi] at hnone
      cases hnone
    · obtain rfl : i = j := Option.some.inj (hi.symm.trans hj)
      exact ⟨m, hat, hname, hm⟩
  missing _ hname := none_of_not_mem hname

end Model

namespace Prepare

open Model
open Report (Reporter)

/-! ## Calls -/

/-- A call on a system. -/
inductive Call where
  | add (m : Module)
  | configure (run : RunSettings)
  | annotate (annotations : Members) (origin : String) (reporter : Reporter)

/-- What a call makes of a system. -/
def Call.outcome (s : System) : Call → Except DuplicateModule System
  | .add m => s.add m
  | .configure run => .ok (Prepare.configure run s)
  | .annotate annotations origin reporter =>
      .ok (Prepare.annotate annotations origin s reporter).system

/-- The system after a call, which is what it was before if the call fails. -/
def Call.next (s : System) (c : Call) : System := (c.outcome s).toOption.getD s

/-- The module that a call adds, if it adds one and does not fail. -/
def Call.added? (s : System) : Call → Option Module
  | .add m => (s.add m).toOption.map fun _ => m
  | .configure _ | .annotate .. => none

/-- The name of the module that is to be added. -/
def Call.name? : Call → Option String
  | .add m => some m.name
  | .configure _ | .annotate .. => none

/-- The system that calls make of the empty one. -/
def built (calls : List Call) : System := calls.foldl Call.next .empty

/-- The modules that calls add, in the order in which they succeed. -/
def additions (s : System) : List Call → List Module
  | [] => []
  | c :: rest => (c.added? s).toList ++ additions (c.next s) rest

/-! ## One call -/

section OneCall

variable (s : System)

/-- An addition fails exactly if the name is taken, and otherwise puts the module at the end. -/
theorem add_eq (m : Module) :
    s.add m = if m.name ∈ s.names then .error ⟨m.name⟩ else .ok ⟨s.modules ++ [m]⟩ := by
  unfold System.add
  by_cases h : m.name ∈ s.names
  · rw [if_pos h, if_pos (s.contains_iff _ |>.mpr h)]
  · rw [if_neg h, if_neg fun hc => h (s.contains_iff _ |>.mp hc)]

theorem outlines_eq_bare : s.outlines = s.bare.untagged.modules := by
  simp [System.outlines, System.bare, System.untagged, Module.outline]

theorem outlines_eq_untagged : s.outlines = s.untagged.bare.modules := by
  simp [System.outlines, System.bare, System.untagged, bare_untagged, Function.comp_def]

theorem outlines_configure (run : RunSettings) :
    (Prepare.configure run s).outlines = s.outlines := by
  rw [outlines_eq_bare, bare_configure, outlines_eq_bare]

theorem outlines_annotate (annotations : Members) (origin : String) (reporter : Reporter) :
    (Prepare.annotate annotations origin s reporter).system.outlines = s.outlines := by
  rw [outlines_eq_untagged, untagged_annotate, outlines_eq_untagged]

/-- A call puts the module that it adds at the end, and changes no more of the others than tags and
settings. -/
theorem outlines_next (c : Call) :
    (c.next s).outlines = s.outlines ++ (c.added? s).toList.map Module.outline := by
  cases c with
  | configure run => exact (outlines_configure s run).trans (List.append_nil _).symm
  | annotate annotations origin reporter =>
      exact (outlines_annotate s annotations origin reporter).trans (List.append_nil _).symm
  | add m =>
      simp only [Call.next, Call.outcome, Call.added?, add_eq]
      by_cases h : m.name ∈ s.names
      · simp [h, Except.toOption]
      · simp [h, Except.toOption, System.outlines]

theorem names_next (c : Call) :
    (c.next s).names = s.names ++ (c.added? s).toList.map (·.name) := by
  rw [System.names_eq_outlines, outlines_next, List.map_append, ← System.names_eq_outlines,
    List.map_map]
  rfl

/-- A module is added if its name is new. -/
theorem names_next_eq (c : Call) :
    (c.next s).names = s.names ++ c.name?.toList.filter (· ∉ s.names) := by
  rw [names_next]
  cases c with
  | configure | annotate => rfl
  | add m =>
      simp only [Call.added?, Call.name?, add_eq]
      by_cases h : m.name ∈ s.names
      · simp [h, Except.toOption]
      · simp [h, Except.toOption]

end OneCall

/-! ## Calls in turn -/

theorem built_append (calls later : List Call) :
    built (calls ++ later) = later.foldl Call.next (built calls) :=
  List.foldl_append

theorem outlines_foldl (calls : List Call) : ∀ s : System,
    (calls.foldl Call.next s).outlines = s.outlines ++ (additions s calls).map Module.outline := by
  induction calls with
  | nil => exact fun s => (List.append_nil s.outlines).symm
  | cons c rest ih =>
      intro s
      rw [List.foldl_cons, ih, outlines_next, additions, List.map_append, List.append_assoc]

/-- The modules stand in the order in which they were added. -/
theorem outlines_built (calls : List Call) :
    (built calls).outlines = (additions .empty calls).map Module.outline :=
  outlines_foldl calls .empty

theorem names_built (calls : List Call) :
    (built calls).names = (additions .empty calls).map (·.name) := by
  rw [System.names_eq_outlines, outlines_built, List.map_map]
  rfl

/-- Of the modules that are to be added, the first of each name is. -/
theorem names_built_eq_distinct (calls : List Call) :
    (built calls).names = distinct (calls.filterMap Call.name?) := by
  induction calls using List.reverseRec with
  | nil => rfl
  | append_singleton calls c ih =>
      have hstep : (built (calls ++ [c])).names =
          (built calls).names ++ c.name?.toList.filter (· ∉ (built calls).names) := by
        rw [built_append]
        exact names_next_eq (built calls) c
      rw [hstep, List.filterMap_append, ih]
      generalize calls.filterMap Call.name? = tried
      cases hname : c.name? with
      | none => simp [hname]
      | some name =>
          rw [List.filterMap_cons_some hname, List.filterMap_nil]
          by_cases h : name ∈ tried
          · rw [distinct_repeated h]
            simp [h]
          · rw [distinct_fresh h]
            simp [h]

theorem continues_built (calls later : List Call) :
    (built calls).Continues (built (calls ++ later)) := by
  apply continues_of_prefix
  rw [built_append, outlines_foldl]
  exact List.prefix_append _ _

theorem nodup_names_built (calls : List Call) : (built calls).names.Nodup := by
  rw [names_built_eq_distinct]
  exact nodup_distinct _

/-- How a system answers an addition, and what it is afterwards. -/
structure Answers (s : System) (m : Module) (afterwards : System) : Prop where
  accepts : (∃ next, s.add m = .ok next) ↔ m.name ∉ s.names
  accepted : ∀ next, s.add m = .ok next → afterwards = next ∧ next.modules = s.modules ++ [m]
  refused : ∀ e, s.add m = .error e → afterwards = s ∧ e.name = m.name

theorem answers_next (s : System) (m : Module) : Answers s m ((Call.add m).next s) := by
  have hnext : (Call.add m).next s = (s.add m).toOption.getD s := rfl
  rw [add_eq] at hnext
  by_cases h : m.name ∈ s.names
  · rw [if_pos h] at hnext
    refine ⟨?_, fun next hadd => ?_, fun e hadd => ?_⟩
    · simp [add_eq, h]
    · simp [add_eq, h] at hadd
    · obtain rfl : (⟨m.name⟩ : DuplicateModule) = e := by simpa [add_eq, h] using hadd
      exact ⟨hnext, rfl⟩
  · rw [if_neg h] at hnext
    refine ⟨?_, fun next hadd => ?_, fun e hadd => ?_⟩
    · simp [add_eq, h]
    · obtain rfl : (⟨s.modules ++ [m]⟩ : System) = next := by simpa [add_eq, h] using hadd
      exact ⟨hnext, rfl⟩
    · simp [add_eq, h] at hadd

/-- The module that was added as the one of an index is found there under its name. -/
theorem index?_of_additions {calls : List Call} {i : Nat} {m : Module}
    (h : (additions .empty calls)[i]? = some m) : (built calls).index? m.name = some i := by
  have hnames : (built calls).names[i]? = some m.name := by
    rw [names_built, List.getElem?_map, h]
    rfl
  obtain ⟨n, hn, hname⟩ : ∃ n, (built calls).modules[i]? = some n ∧ n.name = m.name := by
    simpa [System.names] using hnames
  rw [← hname]
  exact index?_of_nodup (nodup_names_built calls) hn

/-- Calls on a system keep its index.  A module is added exactly if no module has its name yet, and at
the end; otherwise the system stays as it was.  So the modules stand in the order in which they were
added, with their own names, no two alike, and each is found under its name at its index and at
no other.  Later calls leave every index as it is, and the addresses and handles that were given
out lead to the same declarations, of which no more than tags and settings may have changed. -/
theorem index_of_calls (calls : List Call) :
    (∀ m, Answers (built calls) m (built (calls ++ [.add m]))) ∧
    (built calls).Indexed ∧
    (built calls).names = (additions .empty calls).map (·.name) ∧
    (built calls).outlines = (additions .empty calls).map Module.outline ∧
    (∀ i m, (additions .empty calls)[i]? = some m → (built calls).index? m.name = some i) ∧
    ∀ later, (built calls).Continues (built (calls ++ later)) := by
  refine ⟨fun m => ?_, System.indexed_of_nodup (nodup_names_built calls), names_built calls,
    outlines_built calls, fun i m => index?_of_additions, continues_built calls⟩
  rw [built_append]
  exact answers_next (built calls) m

namespace Sample

/-- A module with an interface. -/
def voiced (name : String) : Module :=
  { (default : Module) with name, interfaces := [{ (default : Interface) with name := "Echo" }] }

/-- Two modules are added, then one of a name that is taken, with tags and settings in between. -/
def calls : List Call :=
  [.add (voiced "a"), .configure ⟨none, true⟩, .add (voiced "b"), .add default, .add (voiced "a"),
    .annotate [("b.Echo", .object [("note", .string "kept")])] "notes.yaml" default]

end Sample

theorem index_of_calls_repeated :
    (built Sample.calls).names = ["a", "b", ""] ∧
    (built (Sample.calls ++ [.add (Sample.voiced "b")])) = built Sample.calls ∧
    (built (Sample.calls ++ [.add (Sample.voiced "c")])).index? "b" = some 1 ∧
    ∃ n, (built (Sample.calls ++ [.add (Sample.voiced "c")])).node? (.interface 1 0) = some n ∧
      n.qualifiedName = "b.Echo" := by
  obtain ⟨hanswers, -, hnames, -, hindex, hlater⟩ := index_of_calls Sample.calls
  have hcontinues := hlater [.add (Sample.voiced "c")]
  obtain ⟨e, he⟩ : ∃ e, (built Sample.calls).add (Sample.voiced "b") = .error e :=
    ⟨⟨"b"⟩, by decide +kernel⟩
  have hb : (built Sample.calls).index? "b" = some 1 :=
    hindex 1 (Sample.voiced "b") (by decide +kernel)
  obtain ⟨old, hold, hname⟩ : ∃ n, (built Sample.calls).node? (.interface 1 0) = some n ∧
      n.qualifiedName = "b.Echo" := by decide +kernel
  obtain ⟨n, hn, -, -, hsame⟩ := hcontinues.node _ old hold
  refine ⟨hnames.trans (by decide +kernel), ((hanswers _).refused e he).1,
    hcontinues.index "b" 1 hb, n, hn, hsame.trans hname⟩

end Prepare

end Stencil
