import Mathlib.Data.List.Find
import Stencil.Proofs.Document.Spelling

/-!
# Documents that others do not know

A document is unrelated to others if none of them describes its module or imports
it.  When it is loaded with them, more is declared, though nothing that the others
name: their spellings stand for what they stood for, and their modules stay as they
are.  Only the new module can be refused.
-/

namespace Stencil.Document

open Model (DataType SymbolRef)

/-! ## More declarations -/

/-- Names are declared in a module that had none before. -/
structure Symbols.Adds (a b : Symbols) (m : String) : Prop where
  fresh : ∀ name, a m name = none
  same : ∀ module, module ≠ m → b module = a module

variable {a b : Symbols} {m : String}

theorem Symbols.Adds.mono (h : a.Adds b m) {module name : String} {d : Declared}
    (hd : a module name = some d) : b module name = some d := by
  have hmodule : module ≠ m := by
    rintro rfl
    rw [h.fresh] at hd
    cases hd
  rw [h.same module hmodule, hd]

theorem Symbols.Adds.cover (h : a.Adds b m) {t : DataType} (ht : a.Cover t) : b.Cover t := by
  induction t with
  | void | primitive => trivial
  | enum | flag | struct | interface => exact h.mono ht
  | list _ ih | model _ ih | map _ ih => exact ih ht

section Views

variable {s : Scope} (h : s.symbols.Adds b m) (hview : m ∉ s.module :: s.imports)

include h hview

theorem Scope.FindsAlone.withSymbols {r : SymbolRef} (hr : s.FindsAlone r) :
    (s.withSymbols b).FindsAlone r where
  void := hr.void
  primitive := hr.primitive
  first := by
    rw [← hr.first]
    refine List.find?_congr fun module hmem => ?_
    have hother : module ≠ m := ne_of_mem_of_not_mem hmem hview
    exact congrArg (fun names => (names r.name).isSome) (h.same module hother)

/-- A spelling stays one of the same type when more is declared elsewhere. -/
theorem Scope.Spells.withSymbols {t : DataType} {cs : List Char} (ht : s.Spells t cs) :
    (s.withSymbols b).Spells t cs := by
  obtain ⟨hcover, write, hwrites, hspaced⟩ := ht
  refine ⟨h.cover hcover, write, ?_, hspaced⟩
  intro r hr
  have hwrite := hwrites r hr
  refine ⟨hwrite.bracket, hwrite.dot, ?_⟩
  -- a name after its module is not looked for in the view, one that stands alone is
  rcases hwrite.found with hqualified | ⟨hname, halone⟩
  · exact Or.inl hqualified
  · exact Or.inr ⟨hname, halone.withSymbols h hview⟩

theorem contents_withSymbols {source : Source} {c : Contents} (hc : contents s source = .ok c) :
    contents (s.withSymbols b) source = .ok c := by
  rw [← hc]
  refine contents_congr fun spelling hspelling => ?_
  -- a spelling that stood for nothing could stand for something now, but there was none
  obtain ⟨t, ht⟩ := exists_type_of_contents hc hspelling
  rw [ht]
  rw [type_eq, mapError_eq_ok] at ht ⊢
  exact resolveList_eq_ok.mpr ((resolveList_eq_ok.mp ht).withSymbols h hview)

end Views

/-- A module that does not import the new one is put together as before. -/
theorem assemble_adds (h : a.Adds b m) {name : String} (hname : name ≠ m) {sources : List Source}
    (himports : m ∉ importsOf sources) {x : Model.Module}
    (hx : assemble a name sources = .ok x) : assemble b name sources = .ok x := by
  obtain ⟨version, parts, hversion, hparts, hmodule⟩ := assemble_eq_ok.mp hx
  refine assemble_eq_ok.mpr ⟨version, parts, hversion, ?_, hmodule⟩
  have hview : m ∉ name :: importsOf sources :=
    List.not_mem_cons_of_ne_of_not_mem hname.symm himports
  rw [mapM_eq_ok_iff] at hparts ⊢
  refine hparts.imp fun source c hc => ?_
  exact contents_withSymbols (s := scopeOf a name sources) h hview hc

/-! ## One more document -/

/-- The module of a document is neither described nor imported by others. -/
structure Unrelated (d : Source) (others : List Source) : Prop where
  module : ∀ x ∈ others, x.document.module ≠ d.document.module
  imports : ∀ x ∈ others, d.document.module ∉ x.document.imports

variable {d : Source} {xs ys : List Source}

theorem group_insert_of_ne {name : String} (hname : name ≠ d.document.module) :
    group (xs ++ d :: ys) name = group (xs ++ ys) name := by
  unfold group
  rw [List.filter_append, List.filter_cons_of_neg (by simpa using hname.symm), ← List.filter_append]

namespace Unrelated

theorem group_eq_nil (h : Unrelated d (xs ++ ys)) : group (xs ++ ys) d.document.module = [] :=
  List.filter_eq_nil_iff.mpr fun x hx => by simpa using h.module x hx

theorem group_insert (h : Unrelated d (xs ++ ys)) :
    group (xs ++ d :: ys) d.document.module = [d] := by
  have hnone := h.group_eq_nil
  unfold group at hnone ⊢
  rw [List.filter_append, List.append_eq_nil_iff] at hnone
  rw [List.filter_append, List.filter_cons_of_pos (by simp), hnone.1, hnone.2, List.nil_append]

theorem adds (h : Unrelated d (xs ++ ys)) :
    (symbols ((xs ++ ys).map (·.document))).Adds (symbols ((xs ++ d :: ys).map (·.document)))
      d.document.module where
  fresh := by
    intro name
    rw [symbols_eq, h.group_eq_nil]
    rfl
  same := by
    intro module hmodule
    funext name
    rw [symbols_eq, symbols_eq, group_insert_of_ne hmodule]

theorem names_insert (h : Unrelated d (xs ++ ys)) :
    (moduleNames (xs ++ d :: ys)).filter (· ≠ d.document.module) = moduleNames (xs ++ ys) := by
  unfold moduleNames
  rw [filter_distinct, List.filter_map, List.filter_append, List.filter_cons_of_neg (by simp),
    ← List.filter_append, List.filter_eq_self.mpr]
  intro x hx
  simpa using h.module x hx

theorem not_mem_importsOf (h : Unrelated d (xs ++ ys)) (name : String) :
    d.document.module ∉ importsOf (group (xs ++ ys) name) := by
  unfold importsOf
  rw [mem_distinct, List.mem_flatMap]
  rintro ⟨doc, hdoc, himport⟩
  obtain ⟨x, hx, rfl⟩ := List.mem_map.mp hdoc
  exact h.imports x (List.mem_filter.mp hx).1 himport

/-- The modules that were there before are put together as before. -/
theorem assemble_insert (h : Unrelated d (xs ++ ys)) {s : Model.System}
    (hs : build (xs ++ ys) = .ok s) {name : String} (hname : name ∈ moduleNames (xs ++ ys)) :
    ∃ x, assemble (symbols ((xs ++ ys).map (·.document))) name (group (xs ++ ys) name) = .ok x ∧
      assemble (symbols ((xs ++ d :: ys).map (·.document))) name (group (xs ++ d :: ys) name) =
        .ok x := by
  have hother : name ≠ d.document.module := by
    rintro rfl
    obtain ⟨x, hx, heq⟩ := List.mem_map.mp (mem_distinct.mp hname)
    exact h.module x hx heq
  obtain ⟨x, -, hx⟩ := exists_of_mem_steps (build_eq_ok.mp hs) hname
  refine ⟨x, hx, ?_⟩
  rw [group_insert_of_ne hother]
  exact assemble_adds h.adds hother (h.not_mem_importsOf name) hx

end Unrelated

/-- What the module of a single document is refused for. -/
theorem refusal_of_assemble {table : Symbols} {name : String} {e : Error}
    (h : assemble table name [d] = .error e) :
    d.version? = .error e ∨ ∃ spelling ∈ spellings d.document,
      Reading.type ⟨scopeOf table name [d], d.origin⟩ spelling = .error e := by
  rw [assemble_eq] at h
  cases hversion : d.version? with
  | error e' =>
      have hfirst : versionOf name none [d] = .error e' := by simp only [versionOf, hversion]
      rw [hfirst] at h
      cases h
      exact Or.inl rfl
  | ok declared =>
      have hfirst : versionOf name none [d] = .ok declared := by
        cases declared <;> simp only [versionOf, hversion]
      rw [hfirst] at h
      have hparts : failure? ([d].mapM (contents (scopeOf table name [d]))) = some e :=
        (failure?_bind_pure _ _).symm.trans (failure?_eq_some.mpr h)
      rw [failure?_mapM, List.findSome?_singleton, failure?_contents] at hparts
      obtain ⟨spelling, hspelling, hfails⟩ := List.exists_of_findSome?_eq_some hparts
      exact Or.inr ⟨spelling, hspelling, failure?_eq_some.mp hfails⟩

/-- A document that is unrelated to others that give a system may be loaded at any place among
them: either all modules but its own stay the same, in the same order, or it is refused for its
own version or for a type in it. -/
theorem build_unrelated (h : Unrelated d (xs ++ ys)) {s : Model.System}
    (hs : build (xs ++ ys) = .ok s) :
    (∃ t, build (xs ++ d :: ys) = .ok t ∧
      t.modules.filter (·.name ≠ d.document.module) = s.modules) ∨
    ∃ e, build (xs ++ d :: ys) = .error e ∧
      (d.version? = .error e ∨ ∃ spelling ∈ spellings d.document,
        Reading.type ⟨scopeOf (symbols ((xs ++ d :: ys).map (·.document))) d.document.module [d],
          d.origin⟩ spelling = .error e) := by
  cases hbuild : build (xs ++ d :: ys) with
  | ok t =>
      refine Or.inl ⟨t, rfl, ?_⟩
      have hname : ∀ name x, assemble (symbols ((xs ++ d :: ys).map (·.document))) name
          (group (xs ++ d :: ys) name) = .ok x →
            decide (x.name ≠ d.document.module) = decide (name ≠ d.document.module) := by
        intro name x hx
        obtain ⟨version, parts, -, -, rfl⟩ := assemble_eq_ok.mp hx
        rfl
      have hothers := filter_of_mapM hname (build_eq_ok.mp hbuild)
      rw [h.names_insert] at hothers
      have hsame : (moduleNames (xs ++ ys)).mapM (fun name =>
            assemble (symbols ((xs ++ d :: ys).map (·.document))) name
              (group (xs ++ d :: ys) name)) = .ok s.modules := by
        rw [← build_eq_ok.mp hs]
        refine mapM_congr fun name hmem => ?_
        obtain ⟨x, hold, hnew⟩ := h.assemble_insert hs hmem
        rw [hold, hnew]
      exact Except.ok.inj (hothers.symm.trans hsame)
  | error e =>
      refine Or.inr ⟨e, rfl, ?_⟩
      have hfails := failure?_eq_some.mpr hbuild
      rw [build_eq] at hfails
      have hmodule := (failure?_bind_pure _ _).symm.trans hfails
      rw [failure?_mapM] at hmodule
      obtain ⟨name, hmem, hname⟩ := List.exists_of_findSome?_eq_some hmodule
      have hown : name = d.document.module := by
        refine Decidable.not_not.mp fun hother => ?_
        have hold : name ∈ moduleNames (xs ++ ys) := by
          rw [← h.names_insert]
          exact List.mem_filter.mpr ⟨hmem, decide_eq_true hother⟩
        obtain ⟨x, -, hnew⟩ := h.assemble_insert hs hold
        rw [hnew] at hname
        cases hname
      subst hown
      rw [h.group_insert] at hname
      exact refusal_of_assemble (failure?_eq_some.mp hname)

namespace Sample

/-- A document of a module of its own, which names others and declares a name of theirs. -/
def news : Source :=
  ⟨⟨"news.yaml", ""⟩,
    { (default : Document) with
      module := "news"
      imports := ["units"]
      structs := [{ (default : Struct) with
        name := "Item"
        fields :=
          [{ (default : Field) with name := "unit", type := "Unit" },
            { (default : Field) with name := "about", type := "list<shop.Item>" }] }] }⟩

end Sample

theorem build_unrelated_news :
    Unrelated Sample.news Sample.documents ∧
      ∃ s t, build Sample.documents = .ok s ∧
        build [Sample.shop, Sample.news, Sample.units, Sample.items] = .ok t ∧
          t.modules.filter (·.name ≠ "news") = s.modules := by
  have hunrelated : Unrelated Sample.news ([Sample.shop] ++ [Sample.units, Sample.items]) :=
    ⟨by decide, by decide⟩
  obtain ⟨s, hs⟩ : ∃ s, build Sample.documents = .ok s := exists_ok (by decide +kernel)
  obtain ⟨t, ht⟩ : ∃ t, build [Sample.shop, Sample.news, Sample.units, Sample.items] = .ok t :=
    exists_ok (by decide +kernel)
  rcases build_unrelated hunrelated hs with ⟨t', ht', hsame⟩ | ⟨e, he, -⟩
  · cases Except.ok.inj (ht.symm.trans ht')
    exact ⟨hunrelated, s, t, hs, ht, hsame⟩
  · cases ht.symm.trans he

end Stencil.Document
