import Stencil.Prepare.Validate
import Stencil.Proofs.Model.Types

/-!
# What the check of types lets through

The check passes exactly the systems whose properties, operations, parameters and
fields all have supported types.  It looks at the outermost type only: the items
of a container may be anything.
-/

namespace Stencil.Prepare

open Model (DataType Interface Module Node Struct Symbol System)

/-- A type that the check lets through: neither an interface nor a map. -/
def Supported (t : DataType) : Prop := unsupported? t = none

theorem allTypes_of_interface {P : DataType → Prop} {i : Interface} :
    i.AllTypes P ↔
      (∀ p ∈ i.properties, P p.type) ∧
        (∀ o ∈ i.operations, (∀ p ∈ o.parameters, P p.type) ∧ P o.type) ∧
          ∀ s ∈ i.signals, ∀ p ∈ s.parameters, P p.type := by
  constructor
  · intro h
    exact ⟨h.properties, fun o ho => ⟨h.parameters o ho, h.results o ho⟩, h.signals⟩
  · rintro ⟨hproperties, hoperations, hsignals⟩
    exact ⟨hproperties, fun o ho => (hoperations o ho).2, fun o ho => (hoperations o ho).1,
      hsignals⟩

/-- The types that have to be supported are all types of the module. -/
theorem forall_usedTypes {P : DataType → Prop} {m : Module} :
    (∀ used ∈ usedTypes m, P used.2) ↔ m.AllTypes P := by
  have hinterfaces : (∀ i ∈ m.interfaces, i.AllTypes P) ↔
      ∀ used ∈ m.interfaces.flatMap (fun i =>
        i.properties.map (fun p => ("Properties", p.type))
          ++ i.operations.flatMap (fun o =>
              o.parameters.map (fun p => ("Arguments", p.type)) ++ [("Return values", o.type)])
          ++ i.signals.flatMap (fun s => s.parameters.map fun p => ("Arguments", p.type))),
        P used.2 := by
    simp only [allTypes_of_interface, List.forall_mem_flatMap, List.forall_mem_append,
      List.forall_mem_map, List.forall_mem_singleton, and_assoc]
  have hstructs : (∀ s ∈ m.structs, s.AllTypes P) ↔
      ∀ used ∈ m.structs.flatMap (fun s => s.fields.map fun f => ("Fields", f.type)),
        P used.2 := by
    simp only [Struct.AllTypes, List.forall_mem_flatMap, List.forall_mem_map]
  unfold usedTypes
  rw [List.forall_mem_append, ← hinterfaces, ← hstructs]
  exact ⟨fun ⟨hi, hs⟩ => ⟨hi, hs⟩, fun h => ⟨h.interfaces, h.structs⟩⟩

/-- A system passes the check exactly if all its types are supported. -/
theorem checkSupportedTypes_eq_ok {source : String} {s : System} :
    checkSupportedTypes source s = .ok () ↔ ∀ m ∈ s.modules, m.AllTypes Supported := by
  let fault? (used : String × DataType) := (unsupported? used.2).map (used.1, ·)
  have hnone : checkSupportedTypes source s = .ok () ↔
      (s.modules.flatMap usedTypes).findSome? fault? = none := by
    unfold checkSupportedTypes
    split
    · rename_i kind type hfound
      have hfault : (s.modules.flatMap usedTypes).findSome? fault? = some (kind, type) := hfound
      simp [hfault]
    · rename_i hfound
      exact iff_of_true rfl hfound
  rw [hnone, List.findSome?_eq_none_iff, List.forall_mem_flatMap]
  refine forall₂_congr fun m _ => ?_
  rw [← forall_usedTypes]
  refine forall₂_congr fun used _ => ?_
  rw [Option.map_eq_none_iff, Supported]

/-- The typed symbols that a walk over a checked system meets have supported types. -/
theorem supported_of_walk {source : String} {s : System}
    (h : checkSupportedTypes source s = .ok ()) {name : String} {n : Node}
    (hn : (name, n) ∈ s.walk) {x : Symbol} (hx : n.symbol? = some x) : Supported x.type := by
  obtain ⟨m, hm, hmn⟩ := List.mem_flatMap.mp hn
  exact (checkSupportedTypes_eq_ok.mp h m hm).type_of_walk hmn hx

end Stencil.Prepare
