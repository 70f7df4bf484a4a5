import Stencil.Proofs.Document.References

/-!
# The order of documents

A module is put together from its own documents, in their order, and from what all
documents declare.  So the order of the modules is all that changes when documents
are loaded in another order which keeps that of the documents of each module.
-/

namespace Stencil.Document

/-- The documents are the same ones, and those of each module stand in the same order. -/
structure Rearranged (xs ys : List Source) : Prop where
  perm : xs.Perm ys
  group : ∀ name, group xs name = group ys name

variable {xs ys : List Source}

namespace Rearranged

theorem symm (h : Rearranged xs ys) : Rearranged ys xs :=
  ⟨h.perm.symm, fun name => (h.group name).symm⟩

/-- Neighbours of different modules may change places. -/
theorem swap {a b : Source} (hab : a.document.module ≠ b.document.module)
    (before after : List Source) :
    Rearranged (before ++ a :: b :: after) (before ++ b :: a :: after) where
  perm := (List.Perm.swap b a after).append_left before
  group := by
    intro name
    unfold Document.group
    rw [List.filter_append, List.filter_append]
    refine congrArg (List.filter _ before ++ ·) ?_
    by_cases ha : a.document.module = name
    · have hb : b.document.module ≠ name := fun hb => hab (ha.trans hb.symm)
      simp [ha, hb]
    · simp [List.filter_cons, ha]

theorem symbols_eq (h : Rearranged xs ys) :
    symbols (xs.map (·.document)) = symbols (ys.map (·.document)) := by
  funext module name
  rw [Document.symbols_eq, Document.symbols_eq, h.group]

theorem mem_moduleNames (h : Rearranged xs ys) {name : String} :
    name ∈ moduleNames xs ↔ name ∈ moduleNames ys := by
  unfold moduleNames
  rw [mem_distinct, mem_distinct]
  exact (h.perm.map _).mem_iff

theorem perm_moduleNames (h : Rearranged xs ys) : (moduleNames xs).Perm (moduleNames ys) :=
  (List.perm_ext_iff_of_nodup (nodup_distinct _) (nodup_distinct _)).mpr fun _ => h.mem_moduleNames

/-- A module is put together alike from rearranged documents. -/
theorem assemble_eq (h : Rearranged xs ys) (name : String) :
    assemble (symbols (xs.map (·.document))) name (Document.group xs name) =
      assemble (symbols (ys.map (·.document))) name (Document.group ys name) := by
  rw [h.symbols_eq, h.group]

theorem exists_build (h : Rearranged xs ys) {s : Model.System} (hs : build xs = .ok s) :
    ∃ t, build ys = .ok t ∧ s.modules.Perm t.modules := by
  obtain ⟨modules, hmodules, hperm⟩ := mapM_perm h.perm_moduleNames (build_eq_ok.mp hs)
  refine ⟨⟨modules⟩, build_eq_ok.mpr ?_, hperm⟩
  rw [← hmodules]
  exact mapM_congr fun name _ => (h.assemble_eq name).symm

theorem module?_eq (h : Rearranged xs ys) {s t : Model.System} (hs : build xs = .ok s)
    (ht : build ys = .ok t) (name : String) : s.module? name = t.module? name := by
  refine Option.ext fun m => ?_
  rw [module?_eq_some_iff hs, module?_eq_some_iff ht, h.mem_moduleNames, h.assemble_eq]

end Rearranged

/-- Rearranged documents give a system if and only if the original ones do, and then the same
modules under the same names. -/
theorem build_rearranged (h : Rearranged xs ys) :
    ((∃ s, build xs = .ok s) ↔ ∃ t, build ys = .ok t) ∧
      ∀ s t, build xs = .ok s → build ys = .ok t →
        s.modules.Perm t.modules ∧ ∀ name, s.module? name = t.module? name := by
  refine ⟨⟨?_, ?_⟩, ?_⟩
  · rintro ⟨s, hs⟩
    obtain ⟨t, ht, -⟩ := h.exists_build hs
    exact ⟨t, ht⟩
  · rintro ⟨t, ht⟩
    obtain ⟨s, hs, -⟩ := h.symm.exists_build ht
    exact ⟨s, hs⟩
  · intro s t hs ht
    obtain ⟨t', ht', hperm⟩ := h.exists_build hs
    have hsame : t' = t := Except.ok.inj (ht'.symm.trans ht)
    exact ⟨hsame ▸ hperm, h.module?_eq hs ht⟩

/-- Two documents of one module keep their order around one of another module. -/
theorem build_rearranged_documents :
    Rearranged Sample.documents [Sample.units, Sample.shop, Sample.items] ∧
      ∃ s t, build Sample.documents = .ok s ∧
        build [Sample.units, Sample.shop, Sample.items] = .ok t ∧ s.modules.Perm t.modules ∧
          ∀ name, s.module? name = t.module? name := by
  have h : Rearranged Sample.documents [Sample.units, Sample.shop, Sample.items] :=
    Rearranged.swap (by decide) [] [Sample.items]
  obtain ⟨hiff, hsame⟩ := build_rearranged h
  obtain ⟨s, hs⟩ : ∃ s, build Sample.documents = .ok s := exists_ok (by decide +kernel)
  obtain ⟨t, ht⟩ := hiff.mp ⟨s, hs⟩
  obtain ⟨hperm, hmodules⟩ := hsame s t hs ht
  exact ⟨h, s, t, hs, ht, hperm, hmodules⟩

end Stencil.Document
