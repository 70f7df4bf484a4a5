import Stencil.Document.System
import Stencil.Proofs.Distinct

/-!
# How a module is put together

A built module has the parts of its documents one after another, and everything
that one of its documents declares is among its declarations.  The symbols know a
name exactly if a document of the module declares it.
-/

namespace Stencil.Document

open Model (Module SymbolRef)

variable {scope : Scope} {table : Symbols} {sources : List Source}

/-! ## The parts of a module -/

/-- The imports of a module: those of its documents, each once. -/
def importsOf (sources : List Source) : List String :=
  distinct ((sources.map (·.document)).flatMap (·.imports))

/-- The view of a module on the declared names. -/
def scopeOf (table : Symbols) (name : String) (sources : List Source) : Scope :=
  ⟨table, name, importsOf sources⟩

/-- The module that has a version and the contents of its documents. -/
def moduleOf (name : String) (sources : List Source) (version : Option Model.Version)
    (parts : List Contents) : Module where
  name := name
  version := version.getD ⟨1, 0⟩
  imports := importsOf sources
  comment := (((sources.map (·.document)).map (·.comment)).find? (!·.isEmpty)).getD ""
  interfaces := parts.flatMap (·.interfaces)
  structs := parts.flatMap (·.structs)
  enums := parts.flatMap (·.enums)
  tags := moduleTags (sources.map (·.document))
  source := sources.head?.map (·.origin.file)

theorem assemble_eq (table : Symbols) (name : String) (sources : List Source) :
    assemble table name sources =
      versionOf name none sources >>= fun version =>
        sources.mapM (contents (scopeOf table name sources)) >>= fun parts =>
          .ok (moduleOf name sources version parts) := rfl

theorem assemble_eq_ok {name : String} {m : Module} :
    assemble table name sources = .ok m ↔
      ∃ version parts, versionOf name none sources = .ok version ∧
        sources.mapM (contents (scopeOf table name sources)) = .ok parts ∧
          moduleOf name sources version parts = m := by
  rw [assemble_eq]
  simp only [bind_eq_ok, Except.ok.injEq]
  constructor
  · rintro ⟨version, hversion, parts, hparts, rfl⟩
    exact ⟨version, parts, hversion, hparts, rfl⟩
  · rintro ⟨version, parts, hversion, hparts, rfl⟩
    exact ⟨version, hversion, parts, hparts, rfl⟩

theorem contents_eq_ok {s : Source} {c : Contents} :
    contents scope s = .ok c ↔
      s.document.interfaces.mapM (Reading.interface ⟨scope, s.origin⟩) = .ok c.interfaces ∧
      s.document.structs.mapM (Reading.struct ⟨scope, s.origin⟩) = .ok c.structs ∧
      s.document.enums.map Enum.resolve = c.enums := by
  unfold contents
  simp only [bind_eq_ok, pure, Except.pure, Except.ok.injEq]
  constructor
  · rintro ⟨interfaces, hinterfaces, structs, hstructs, rfl⟩
    exact ⟨hinterfaces, hstructs, rfl⟩
  · rintro ⟨hinterfaces, hstructs, henums⟩
    exact ⟨c.interfaces, hinterfaces, c.structs, hstructs, by rw [henums]⟩

/-- The documents of one module. -/
def group (sources : List Source) (name : String) : List Source :=
  sources.filter (·.document.module = name)

/-- What is known in a module depends on its own documents. -/
theorem symbols_eq (sources : List Source) (module name : String) :
    symbols (sources.map (·.document)) module name =
      ((group sources module).flatMap fun s => declarations s.document).reverse.lookup name := by
  unfold symbols group
  rw [List.filter_map, List.flatMap_map]
  rfl

/-- A system is built from the modules of its documents, those of one name together. -/
theorem build_eq (sources : List Source) :
    build sources =
      (moduleNames sources).mapM (fun name =>
        assemble (symbols (sources.map (·.document))) name (group sources name)) >>= fun modules =>
          .ok ⟨modules⟩ := rfl

theorem build_eq_ok {s : Model.System} :
    build sources = .ok s ↔
      (moduleNames sources).mapM (fun name =>
        assemble (symbols (sources.map (·.document))) name (group sources name)) =
          .ok s.modules := by
  rw [build_eq]
  simp only [bind_eq_ok, Except.ok.injEq]
  constructor
  · rintro ⟨modules, hmodules, rfl⟩
    exact hmodules
  · intro hmodules
    exact ⟨s.modules, hmodules, rfl⟩

/-! ## Declarations -/

theorem name_of_interface {r : Reading} {written : Interface} {i : Model.Interface}
    (h : r.interface written = .ok i) : i.name = written.name := by
  obtain ⟨properties, -, h⟩ := bind_eq_ok.mp h
  obtain ⟨operations, -, h⟩ := bind_eq_ok.mp h
  obtain ⟨signals, -, heq⟩ := bind_eq_ok.mp h
  cases heq
  rfl

theorem name_of_struct {r : Reading} {written : Struct} {s : Model.Struct}
    (h : r.struct written = .ok s) : s.name = written.name := by
  obtain ⟨fields, -, heq⟩ := bind_eq_ok.mp h
  cases heq
  rfl

/-- The declarations of a module are those of some documents, one document after another. -/
structure Lists (m : Module) (docs : List Document) : Prop where
  interfaces : m.interfaces.map (·.name) = docs.flatMap (·.interfaces.map (·.name))
  structs : m.structs.map (·.name) = docs.flatMap (·.structs.map (·.name))
  enums : m.enums.map (·.name) = docs.flatMap (·.enums.map (·.name))

theorem lists_of_assemble {name : String} {m : Module}
    (h : assemble table name sources = .ok m) : Lists m (sources.map (·.document)) := by
  obtain ⟨version, parts, -, hparts, rfl⟩ := assemble_eq_ok.mp h
  refine ⟨?_, ?_, ?_⟩
  · rw [moduleOf, List.map_flatMap, List.flatMap_map]
    refine flatMap_of_mapM ?_ hparts
    intro s c hc
    exact map_of_mapM (fun _ _ => name_of_interface) (contents_eq_ok.mp hc).1
  · rw [moduleOf, List.map_flatMap, List.flatMap_map]
    refine flatMap_of_mapM ?_ hparts
    intro s c hc
    exact map_of_mapM (fun _ _ => name_of_struct) (contents_eq_ok.mp hc).2.1
  · rw [moduleOf, List.map_flatMap, List.flatMap_map]
    refine flatMap_of_mapM ?_ hparts
    intro s c hc
    rw [← (contents_eq_ok.mp hc).2.2, List.map_map]
    rfl

/-- The module has a declaration of this kind and name. -/
def Declared.StandsIn (m : Module) (name : String) : Declared → Prop
  | .enum _ => (m.enum? name).isSome
  | .struct => (m.struct? name).isSome
  | .interface => (m.interface? name).isSome

/-- The first element of a name is found if the name is among those of all. -/
theorem isSome_find?_name {α : Type} {nameOf : α → String} {xs : List α} {name : String}
    (h : name ∈ xs.map nameOf) : (xs.find? (nameOf · = name)).isSome := by
  obtain ⟨x, hx, hname⟩ := List.mem_map.mp h
  exact List.find?_isSome.mpr ⟨x, hx, decide_eq_true hname⟩

/-- What a document declares stands in the module, whatever else is declared there. -/
theorem Lists.standsIn {m : Module} {docs : List Document} (h : Lists m docs) {doc : Document}
    (hdoc : doc ∈ docs) {name : String} {d : Declared} (hd : (name, d) ∈ declarations doc) :
    d.StandsIn m name := by
  rcases List.mem_append.mp hd with hd | hd
  · rcases List.mem_append.mp hd with hd | hd
    · obtain ⟨e, he, heq⟩ := List.mem_map.mp hd
      cases heq
      refine isSome_find?_name ?_
      rw [h.enums]
      exact List.mem_flatMap.mpr ⟨doc, hdoc, List.mem_map_of_mem he⟩
    · obtain ⟨s, hs, heq⟩ := List.mem_map.mp hd
      cases heq
      refine isSome_find?_name ?_
      rw [h.structs]
      exact List.mem_flatMap.mpr ⟨doc, hdoc, List.mem_map_of_mem hs⟩
  · obtain ⟨i, hi, heq⟩ := List.mem_map.mp hd
    cases heq
    refine isSome_find?_name ?_
    rw [h.interfaces]
    exact List.mem_flatMap.mpr ⟨doc, hdoc, List.mem_map_of_mem hi⟩

/-- Of what the symbols know, some document of the module declares it so. -/
theorem exists_declaration_of_symbols {docs : List Document} {module name : String} {d : Declared}
    (h : symbols docs module name = some d) :
    ∃ doc ∈ docs, doc.module = module ∧ (name, d) ∈ declarations doc := by
  -- the list is searched from its end, where the later declarations of a name stand
  obtain ⟨before, after, hsplit, -⟩ := List.lookup_eq_some_iff.mp h
  have hmem : (name, d) ∈
      ((docs.filter (·.module = module)).flatMap declarations).reverse := by
    rw [hsplit]
    exact List.mem_append_right before List.mem_cons_self
  obtain ⟨doc, hdoc, hdeclared⟩ := List.mem_flatMap.mp (List.mem_reverse.mp hmem)
  obtain ⟨hin, hmodule⟩ := List.mem_filter.mp hdoc
  exact ⟨doc, hin, of_decide_eq_true hmodule, hdeclared⟩

/-! ## The modules of a system -/

/-- Every module of a built system is put together from the documents of its name. -/
theorem assemble_of_mem_modules {s : Model.System} (h : build sources = .ok s) {m : Module}
    (hm : m ∈ s.modules) :
    assemble (symbols (sources.map (·.document))) m.name (group sources m.name) = .ok m := by
  obtain ⟨name, -, hname⟩ := exists_of_mem_values (build_eq_ok.mp h) hm
  obtain ⟨version, parts, -, -, hmodule⟩ := assemble_eq_ok.mp hname
  have hsame : m.name = name := by
    rw [← hmodule]
    rfl
  rw [hsame]
  exact hname

/-- A built system has a module for every document. -/
theorem exists_module_of_document {s : Model.System} (h : build sources = .ok s) {source : Source}
    (hsource : source ∈ sources) : ∃ m, s.module? source.document.module = some m := by
  have hname : source.document.module ∈ moduleNames sources :=
    mem_distinct.mpr (List.mem_map_of_mem hsource)
  obtain ⟨m, hm, hassemble⟩ := exists_of_mem_steps (build_eq_ok.mp h) hname
  obtain ⟨version, parts, -, -, rfl⟩ := assemble_eq_ok.mp hassemble
  exact Option.isSome_iff_exists.mp (List.find?_isSome.mpr ⟨_, hm, decide_eq_true rfl⟩)

theorem mem_of_module? {s : Model.System} {name : String} {m : Module}
    (h : s.module? name = some m) : m ∈ s.modules ∧ m.name = name := by
  unfold Model.System.module? at h
  exact ⟨List.mem_of_find?_eq_some h, by simpa using List.find?_some h⟩

/-- The module of a name is put together from the documents of that name, if there are any. -/
theorem module?_eq_some_iff {s : Model.System} (h : build sources = .ok s) {name : String}
    {m : Module} :
    s.module? name = some m ↔
      name ∈ moduleNames sources ∧
        assemble (symbols (sources.map (·.document))) name (group sources name) = .ok m := by
  constructor
  · intro hm
    obtain ⟨hmem, rfl⟩ := mem_of_module? hm
    obtain ⟨name, hname, hassemble⟩ := exists_of_mem_values (build_eq_ok.mp h) hmem
    obtain ⟨version, parts, -, -, rfl⟩ := assemble_eq_ok.mp hassemble
    exact ⟨hname, hassemble⟩
  · rintro ⟨hname, hassemble⟩
    obtain ⟨source, hsource, rfl⟩ := List.mem_map.mp (mem_distinct.mp hname)
    obtain ⟨found, hfound⟩ := exists_module_of_document h hsource
    obtain ⟨hmem, hsame⟩ := mem_of_module? hfound
    have hagain := assemble_of_mem_modules h hmem
    rw [hsame, hassemble] at hagain
    rw [hfound, Except.ok.inj hagain]

/-- What the symbols know stands in the module of the built system. -/
theorem standsIn_of_symbols {s : Model.System} (h : build sources = .ok s)
    {module name : String} {d : Declared}
    (hd : symbols (sources.map (·.document)) module name = some d) :
    ∃ m, s.module? module = some m ∧ d.StandsIn m name := by
  obtain ⟨doc, hdoc, hmodule, hdeclared⟩ := exists_declaration_of_symbols hd
  obtain ⟨source, hsource, rfl⟩ := List.mem_map.mp hdoc
  obtain ⟨m, hm⟩ := exists_module_of_document h hsource
  rw [hmodule] at hm
  refine ⟨m, hm, ?_⟩
  obtain ⟨hmem, hname⟩ := mem_of_module? hm
  have hlists := lists_of_assemble (assemble_of_mem_modules h hmem)
  refine hlists.standsIn (List.mem_map_of_mem (List.mem_filter.mpr ⟨hsource, ?_⟩)) hdeclared
  exact decide_eq_true (hmodule.trans hname.symm)

end Stencil.Document
