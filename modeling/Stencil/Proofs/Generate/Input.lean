import Stencil.Generate.Session
import Stencil.Proofs.Document.Repetition

/-!
# The documents of a request

The model of a request comes from its imported documents and its sources together.
A document that is reached through both is loaded twice: directories of imports often
contain the sources.
-/

namespace Stencil.Generate

open Files Document

/-- The model of a request is what its imported documents and its sources describe. -/
theorem load_of_input {r : Request} {t : Tree} {i : Input} (h : r.input t = .ok i) :
    load t (Request.expand t (r.imports ++ r.sources)) = .ok i.system := by
  obtain ⟨source, -, h⟩ := bind_eq_ok.mp h
  obtain ⟨template, -, h⟩ := bind_eq_ok.mp h
  obtain ⟨modules, -, h⟩ := bind_eq_ok.mp h
  obtain ⟨system, hsystem, heq⟩ := bind_eq_ok.mp h
  cases heq
  have hloaded := mapError_eq_ok.mp hsystem
  exact mapError_eq_ok.mp (mapError_eq_ok.mp hloaded)

/-- The documents of a request give the same as without their repetitions exactly if these are not
seen: the documents that are reached again declare nothing, and merging their annotations again
changes none.  In every case a module lists what its documents declare as often as they are
reached. -/
theorem load_requested_documents (t : Tree) (r : Request) :
    (load t (Request.expand t (r.imports ++ r.sources)) =
        load t (distinct (Request.expand t (r.imports ++ r.sources))) ↔
      ∀ sources system,
        (Request.expand t (r.imports ++ r.sources)).mapM (readSource t) = .ok sources →
          build sources = .ok system → Unseen sources) ∧
    ∀ i, r.input t = .ok i →
      ∃ sources, (Request.expand t (r.imports ++ r.sources)).mapM (readSource t) = .ok sources ∧
        ∀ m ∈ i.system.modules, Lists m ((group sources m.name).map (·.document)) := by
  constructor
  · exact load_eq_load_distinct_iff t _
  · intro i hi
    obtain ⟨sources, hsources, hbuild⟩ := bind_eq_ok.mp (load_of_input hi)
    refine ⟨sources, hsources, ?_⟩
    intro m hm
    exact lists_of_assemble (assemble_of_mem_modules hbuild hm)

/-- A tree with one document. -/
def Sample.models : Tree :=
  ⟨[(["w", "models", "a.yaml"], .file (.text "module: m\ninterfaces:\n  - name: Echo\n")),
    (["w", "models"], .directory), (["w"], .directory)], ["w"]⟩

/-- A request whose imports are the directory of its source. -/
def Sample.overlapping : Request where
  sources := ["models/a.yaml"]
  destination := "out"
  template := "text"
  imports := ["models"]

/-- A source in a directory of imports is declared twice in its module. -/
theorem not_load_eq_load_distinct :
    ¬ ∀ (t : Tree) (r : Request),
      (∃ path ∈ Request.expand t r.imports, path ∈ Request.expand t r.sources) →
      load t (Request.expand t (r.imports ++ r.sources)) =
        load t (distinct (Request.expand t (r.imports ++ r.sources))) := by
  intro hall
  have hsame := hall Sample.models Sample.overlapping
    ⟨"models/a.yaml", by decide +kernel, by decide +kernel⟩
  exact absurd hsame (by decide +kernel)

end Stencil.Generate
