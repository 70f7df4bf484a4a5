import Stencil.Proofs.Document.Assembly
import Stencil.Proofs.Document.Refusal
import Stencil.Proofs.Model.Types

/-!
# The types of a module and its spellings

The types of a built module are what the spellings in its documents stand for.  So
a property that can be told from each spelling holds of all types of the module
exactly if it is told of all these spellings.
-/

namespace Stencil.Document

open Model (DataType)

/-! ## One document -/

section Reading

variable {r : Reading} {told : String → Prop} {P : DataType → Prop}
  (htold : ∀ spelling t, r.type spelling = .ok t → (told spelling ↔ P t))
include htold

theorem told_parameter {written : Parameter} {p : Model.Parameter}
    (h : r.parameter written = .ok p) : told written.type ↔ P p.type := by
  obtain ⟨t, ht, heq⟩ := bind_eq_ok.mp h
  cases heq
  exact htold _ _ ht

theorem told_parameters {written : List Parameter} {ps : List Model.Parameter}
    (h : written.mapM r.parameter = .ok ps) :
    (∀ spelling ∈ written.map (·.type), told spelling) ↔ ∀ p ∈ ps, P p.type := by
  rw [List.forall_mem_map]
  exact forall_iff_of_mapM (fun _ _ => told_parameter htold) h

theorem told_property {written : Property} {p : Model.Property}
    (h : r.property written = .ok p) : told written.type ↔ P p.type := by
  obtain ⟨t, ht, heq⟩ := bind_eq_ok.mp h
  cases heq
  exact htold _ _ ht

theorem told_field {written : Field} {f : Model.Field}
    (h : r.field written = .ok f) : told written.type ↔ P f.type := by
  obtain ⟨t, ht, heq⟩ := bind_eq_ok.mp h
  cases heq
  exact htold _ _ ht

theorem told_operation {written : Operation} {o : Model.Operation}
    (h : r.operation written = .ok o) :
    (∀ spelling ∈ written.spellings, told spelling) ↔
      P o.type ∧ ∀ p ∈ o.parameters, P p.type := by
  obtain ⟨t, ht, h⟩ := bind_eq_ok.mp h
  obtain ⟨ps, hps, heq⟩ := bind_eq_ok.mp h
  cases heq
  rw [Operation.spellings, List.forall_mem_cons, told_parameters htold hps, htold _ _ ht]

theorem told_signal {written : Signal} {s : Model.Signal}
    (h : r.signal written = .ok s) :
    (∀ spelling ∈ written.spellings, told spelling) ↔ ∀ p ∈ s.parameters, P p.type := by
  obtain ⟨ps, hps, heq⟩ := bind_eq_ok.mp h
  cases heq
  exact told_parameters htold hps

theorem told_interface {written : Interface} {i : Model.Interface}
    (h : r.interface written = .ok i) :
    (∀ spelling ∈ written.spellings, told spelling) ↔ i.AllTypes P := by
  obtain ⟨properties, hproperties, h⟩ := bind_eq_ok.mp h
  obtain ⟨operations, hoperations, h⟩ := bind_eq_ok.mp h
  obtain ⟨signals, hsignals, heq⟩ := bind_eq_ok.mp h
  cases heq
  have hp := forall_iff_of_mapM (fun _ _ => told_property htold) hproperties
  have ho := forall_iff_of_mapM (fun _ _ => told_operation htold) hoperations
  have hs := forall_iff_of_mapM (fun _ _ => told_signal htold) hsignals
  rw [Interface.spellings, List.forall_mem_append, List.forall_mem_append, List.forall_mem_map,
    List.forall_mem_flatMap, List.forall_mem_flatMap, hp, ho, hs]
  constructor
  · rintro ⟨⟨hproperty, hoperation⟩, hsignal⟩
    exact ⟨hproperty, fun o ho => (hoperation o ho).1, fun o ho => (hoperation o ho).2, hsignal⟩
  · rintro ⟨hproperty, hresult, hparameter, hsignal⟩
    exact ⟨⟨hproperty, fun o ho => ⟨hresult o ho, hparameter o ho⟩⟩, hsignal⟩

theorem told_struct {written : Struct} {s : Model.Struct} (h : r.struct written = .ok s) :
    (∀ spelling ∈ written.spellings, told spelling) ↔ s.AllTypes P := by
  obtain ⟨fields, hfields, heq⟩ := bind_eq_ok.mp h
  cases heq
  rw [Struct.spellings, List.forall_mem_map]
  exact forall_iff_of_mapM (fun _ _ => told_field htold) hfields

end Reading

theorem told_contents {scope : Scope} {source : Source} {c : Contents} {told : String → Prop}
    {P : DataType → Prop}
    (htold : ∀ spelling t, Reading.type ⟨scope, source.origin⟩ spelling = .ok t →
      (told spelling ↔ P t)) (h : contents scope source = .ok c) :
    (∀ spelling ∈ source.document.spellings, told spelling) ↔
      (∀ i ∈ c.interfaces, i.AllTypes P) ∧ ∀ s ∈ c.structs, s.AllTypes P := by
  obtain ⟨hinterfaces, hstructs, -⟩ := contents_eq_ok.mp h
  rw [spellings, List.forall_mem_append, List.forall_mem_flatMap, List.forall_mem_flatMap,
    forall_iff_of_mapM (fun _ _ => told_interface htold) hinterfaces,
    forall_iff_of_mapM (fun _ _ => told_struct htold) hstructs]

/-! ## A module -/

/-- What is told alike of a spelling in a module and of the type that it stands for is told of all
spellings in the documents of the module exactly if it holds of all its types. -/
theorem allTypes_iff_of_assemble {table : Symbols} {name : String} {sources : List Source}
    {m : Model.Module} {told : String → Prop} {P : DataType → Prop}
    (htold : ∀ spelling t, (scopeOf table name sources).resolve spelling = .ok t →
      (told spelling ↔ P t)) (h : assemble table name sources = .ok m) :
    (∀ source ∈ sources, ∀ spelling ∈ source.document.spellings, told spelling) ↔
      m.AllTypes P := by
  obtain ⟨version, parts, -, hparts, rfl⟩ := assemble_eq_ok.mp h
  have htype : ∀ (source : Source) spelling t,
      Reading.type ⟨scopeOf table name sources, source.origin⟩ spelling = .ok t →
        (told spelling ↔ P t) := by
    intro source spelling t ht
    rw [type_eq, mapError_eq_ok] at ht
    exact htold spelling t ht
  rw [forall_iff_of_mapM (fun source _ => told_contents (htype source)) hparts]
  constructor
  · intro hall
    refine ⟨?_, ?_⟩
    · exact List.forall_mem_flatMap.mpr fun c hc => (hall c hc).1
    · exact List.forall_mem_flatMap.mpr fun c hc => (hall c hc).2
  · rintro ⟨hinterfaces, hstructs⟩ c hc
    exact ⟨List.forall_mem_flatMap.mp hinterfaces c hc, List.forall_mem_flatMap.mp hstructs c hc⟩

end Stencil.Document
