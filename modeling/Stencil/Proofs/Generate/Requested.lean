import Stencil.Proofs.Document.ModuleNames
import Stencil.Proofs.Generate.Input
import Stencil.Proofs.Generate.Tour
import Stencil.Proofs.Prepare.Kept

/-!
# The requested modules

A request reads its source documents twice: for the names of their modules alone, and
together with the imported documents for the model.  The names choose the modules of
the model that rules are applied to.  A module that only imported documents describe
is there for its declarations and gets no files.
-/

namespace Stencil.Generate

open Document (Source)
open Files Template

/-! ## What a generation comes to -/

/-- What the rules of a request are applied to. -/
def Session.scope (s : Session) (r : Request) (i : Input) (system : Model.System) : Scope where
  system
  modules := i.modules
  features := s.builtin.features
  force := r.force
  destination := r.destination
  bindings := s.bindings i.source

/-- The filter set of the template's name, if there is one, which is loaded before all rules. -/
def Session.ownFilters (s : Session) (i : Input) : Plan :=
  let name := (Path.fileName? i.template).getD ""
  if s.registry.contains name then [.load name] else []

theorem Session.writesOf_ownFilters (s : Session) (i : Input) : writesOf (s.ownFilters i) = [] := by
  unfold Session.ownFilters
  dsimp only
  split <;> rfl

theorem Session.plan_eq (s : Session) (r : Request) (i : Input) (system : Model.System)
    (rules : Rules.RuleSet) :
    s.plan r i system rules = s.ownFilters i ++ Generate.plan (s.scope r i system) rules := rfl

/-- The model of a request before it is prepared. -/
def Input.draft (i : Input) : Prepare.Draft :=
  let source := (Path.fileName? i.source).getD ""
  { system := i.system, source, reporter := { source } }

/-- A generation that comes to its rules: its documents are read, its model is prepared, and the
rules of its template are loaded. -/
structure Session.Reaches (s : Session) (t : Tree) (r : Request) (i : Input)
    (draft : Prepare.Draft) (rules : Rules.RuleSet) : Prop where
  input : r.input t = .ok i
  prepared : Prepare.runPhases t r.phases i.draft = (none, draft)
  rules : Rules.RuleSet.load t (Rules.rulesPath i.template) = .ok rules
  runs : s.generate t r = s.run t r i draft

theorem Session.generate_of_input {s : Session} {t : Tree} {r : Request} {i : Input}
    (h : r.input t = .ok i) :
    s.generate t r = match Prepare.runPhases t r.phases i.draft with
      | (some a, draft) => ⟨.error a, t, draft.reporter.log⟩
      | (none, draft) => s.run t r i draft := by
  unfold Session.generate
  rw [h]
  rfl

/-- A generation either comes to its rules, or fails before that and leaves the files as they
were. -/
theorem Session.reaches_or_fails (s : Session) (t : Tree) (r : Request) :
    (∃ i draft rules, s.Reaches t r i draft rules) ∨
      ∃ a log, s.generate t r = ⟨.error a, t, log⟩ := by
  cases hinput : r.input t with
  | error a =>
      refine Or.inr ⟨a, [], ?_⟩
      unfold Session.generate
      rw [hinput]
  | ok i =>
      have hgenerate := Session.generate_of_input (s := s) hinput
      rcases hprepared : Prepare.runPhases t r.phases i.draft with ⟨a?, draft⟩
      rw [hprepared] at hgenerate
      cases a? with
      | some a => exact Or.inr ⟨a, draft.reporter.log, hgenerate⟩
      | none =>
          cases hrules : Rules.RuleSet.load t (Rules.rulesPath i.template) with
          | ok rules => exact Or.inl ⟨i, draft, rules, hinput, hprepared, hrules, hgenerate⟩
          | error f =>
              refine Or.inr ⟨⟨f, []⟩, draft.reporter.log, hgenerate.trans ?_⟩
              unfold Session.run
              rw [hrules]

/-- A generation that succeeds comes to its rules, and performs their plan to the end. -/
theorem Session.exists_perform_of_generate {s : Session} {t : Tree} {r : Request}
    {record : Record} (h : (s.generate t r).record = .ok record) :
    ∃ i draft rules, s.Reaches t r i draft rules ∧
      ∃ (setting : Setting) (start : Bench),
        (start.perform setting (s.plan r i draft.system rules)).1 = none := by
  rcases s.reaches_or_fails t r with ⟨i, draft, rules, hreaches⟩ | ⟨a, log, hfails⟩
  · let setting : Setting := ⟨draft.system, s.registry, r.destination⟩
    let start : Bench :=
      { desk := ⟨t, draft.reporter, Engine.new (templatePath i.template r.searchPath) s.registry⟩ }
    refine ⟨i, draft, rules, hreaches, setting, start, ?_⟩
    rw [hreaches.runs] at h
    unfold Session.run at h
    rw [hreaches.rules] at h
    dsimp only at h
    cases hperform : (start.perform setting (s.plan r i draft.system rules)).1 with
    | none => rfl
    | some f =>
        rw [hperform] at h
        cases h
  · rw [hfails] at h
    cases h

/-! ## The chosen modules -/

theorem modules_of_input {r : Request} {t : Tree} {i : Input} (h : r.input t = .ok i) :
    Document.loadModuleNames t (Request.expand t r.sources) = .ok i.modules := by
  obtain ⟨source, -, h⟩ := bind_eq_ok.mp h
  obtain ⟨template, -, h⟩ := bind_eq_ok.mp h
  obtain ⟨modules, hmodules, h⟩ := bind_eq_ok.mp h
  obtain ⟨system, -, heq⟩ := bind_eq_ok.mp h
  cases heq
  exact mapError_eq_ok.mp (mapError_eq_ok.mp (mapError_eq_ok.mp hmodules))

theorem expand_append (t : Tree) (paths others : List String) :
    Request.expand t (paths ++ others) = Request.expand t paths ++ Request.expand t others :=
  List.flatMap_append

/-- The sources of a request whose model can be loaded have been read, and each of them describes
a module of that model. -/
theorem exists_sources_of_load {t : Tree} {r : Request} {system : Model.System}
    (h : Document.load t (Request.expand t (r.imports ++ r.sources)) = .ok system) :
    ∃ sources, (Request.expand t r.sources).mapM (Document.readSource t) = .ok sources ∧
      ∀ name ∈ Document.moduleNames sources, ∃ m ∈ system.modules, m.name = name := by
  obtain ⟨all, hall, hbuild⟩ := bind_eq_ok.mp h
  rw [expand_append, List.mapM_append] at hall
  obtain ⟨imported, -, hall⟩ := bind_eq_ok.mp hall
  obtain ⟨sources, hsources, heq⟩ := bind_eq_ok.mp hall
  cases heq
  refine ⟨sources, hsources, fun name hname => ?_⟩
  obtain ⟨source, hsource, rfl⟩ := List.mem_map.mp (mem_distinct.mp hname)
  obtain ⟨m, hm⟩ := Document.exists_module_of_document hbuild
    (List.mem_append_right imported hsource)
  exact ⟨m, Document.mem_of_module? hm⟩

/-- A plan that is performed to its end is a tour over the nodes of the requested modules. -/
theorem Session.plan_eq_tour {s : Session} {r : Request} {i : Input} {system : Model.System}
    {rules : Rules.RuleSet} {setting : Setting} {start : Bench}
    (h : (start.perform setting (s.plan r i system rules)).1 = none) :
    s.plan r i system rules = s.ownFilters i ++ tour (s.scope r i system) rules := by
  have hstop : ∀ f, Step.stop f ∉ Generate.plan (s.scope r i system) rules := by
    intro f hf
    rw [Session.plan_eq] at h
    exact Bench.not_stop_of_perform h (List.mem_append_right _ hf)
  rw [Session.plan_eq, Generate.plan_eq_tour hstop]

/-- A node that is visited belongs to a requested module. -/
theorem name_of_mem_visits {scope : Scope} {v : Visit} (hv : v ∈ scope.visits) {n : Model.Node}
    (hn : v.node.node? scope.system = some n) : n.home.name ∈ scope.modules := by
  rcases mem_visits.mp hv with rfl | ⟨level, a, node, -, rfl, hnode, hname⟩
  · cases hn
  · have hsame : node = n := Option.some.inj (hnode.symm.trans hn)
    rwa [← hsame]

/-- The modules that a request asks for are those that its source documents describe, in order of
first appearance; a model that is built from these alone has them as its modules.  In a generation
that succeeds the rules are applied to the nodes of exactly these modules, each node once for
every document that applies or once for legacy rules, and so never to a module that only imported
documents describe.  The files are those that the rules declare for these nodes. -/
theorem rules_visit_requested_modules (s : Session) (t : Tree) (r : Request) :
    (∀ alone, Document.load t (Request.expand t r.sources) = .ok alone →
      Document.loadModuleNames t (Request.expand t r.sources) = .ok alone.names) ∧
    ∀ names system,
      Document.loadModuleNames t (Request.expand t r.sources) = .ok names →
      Document.load t (Request.expand t (r.imports ++ r.sources)) = .ok system →
      ∃ sources, (Request.expand t r.sources).mapM (Document.readSource t) = .ok sources ∧
        names = distinct (sources.map (·.document.module)) ∧
        (∀ name ∈ names, ∃ m ∈ system.modules, m.name = name) ∧
        ∀ record, (s.generate t r).record = .ok record →
          ∃ i draft rules, s.Reaches t r i draft rules ∧
            i.modules = names ∧ i.system = system ∧ draft.system.names = system.names ∧
            s.plan r i draft.system rules =
              s.ownFilters i ++ tour (s.scope r i draft.system) rules ∧
            writesOf (s.plan r i draft.system rules) =
              (s.scope r i draft.system).declared rules ∧
            (s.scope r i draft.system).visits.Nodup ∧
            (∀ v, v ∈ (s.scope r i draft.system).visits ↔ v = systemVisit ∨
              ∃ level a n, levelOf? a = some level ∧ v = ⟨level, .node a⟩ ∧
                draft.system.node? a = some n ∧ n.home.name ∈ names) ∧
            ∀ v ∈ (s.scope r i draft.system).visits, ∀ n,
              v.node.node? draft.system = some n →
                ∃ source ∈ sources, source.document.module = n.home.name := by
  refine ⟨fun alone => Document.loadModuleNames_of_load, ?_⟩
  intro names system hnames hsystem
  obtain ⟨sources, hsources, hmodules⟩ := exists_sources_of_load hsystem
  have hdistinct : names = Document.moduleNames sources := by
    rw [Document.loadModuleNames_of_read hsources] at hnames
    exact (Except.ok.inj hnames).symm
  refine ⟨sources, hsources, hdistinct, ?_, ?_⟩
  · rw [hdistinct]
    exact hmodules
  · intro record hrecord
    obtain ⟨i, draft, rules, hreaches, setting, start, hperform⟩ :=
      Session.exists_perform_of_generate hrecord
    have hchosen : i.modules = names :=
      Except.ok.inj ((modules_of_input hreaches.input).symm.trans hnames)
    have hloaded : i.system = system :=
      Except.ok.inj ((load_of_input hreaches.input).symm.trans hsystem)
    have hprepared : draft.system.names = system.names := by
      have hkept := Prepare.names_runPhases t r.phases i.draft
      rw [hreaches.prepared] at hkept
      rw [← hloaded]
      exact hkept
    have htour := Session.plan_eq_tour hperform
    refine ⟨i, draft, rules, hreaches, hchosen, hloaded, hprepared, htour, ?_,
      nodup_visits _, ?_, ?_⟩
    · rw [htour, writesOf_append, Session.writesOf_ownFilters, List.nil_append, writesOf_tour]
    · intro v
      rw [← hchosen]
      exact mem_visits
    · intro v hv n hn
      have hname : n.home.name ∈ i.modules := name_of_mem_visits hv hn
      rw [hchosen, hdistinct] at hname
      exact List.mem_map.mp (mem_distinct.mp hname)

/-- A tree with a document, another one that it imports, and a template. -/
def Sample.library : Tree :=
  ⟨[(["w", "a.yaml"], .file (.text
      "module: a\nimports: [b]\ninterfaces:\n  - name: Cart\n")),
    (["w", "lib", "b.yaml"], .file (.text "module: b\ninterfaces:\n  - name: Item\n")),
    (["w", "tpl", "text.yaml"], .file (.text
      "interface:\n  documents:\n    \"\x7b\x7b interface \x7d\x7d.txt\": i.tpl\n")),
    (["w", "tpl", "text", "i.tpl"], .file (.text "generated")),
    (["w", "tpl", "text"], .directory), (["w", "tpl"], .directory), (["w", "lib"], .directory),
    (["w"], .directory)], ["w"]⟩

/-- A request for one of the documents, with the other one imported. -/
def Sample.importing : Request where
  sources := ["a.yaml"]
  destination := "out"
  template := "text"
  searchPath := ["tpl"]
  imports := ["lib"]

def Sample.session : Session where
  builtin := ⟨"1.0", []⟩

/-- The model of the request. -/
def Sample.cartAndItem : Model.System :=
  ⟨[{ name := "b", version := ⟨1, 0⟩, interfaces := [{ name := "Item" }],
      source := some "lib/b.yaml" },
    { name := "a", version := ⟨1, 0⟩, imports := ["b"], interfaces := [{ name := "Cart" }],
      source := some "a.yaml" }]⟩

theorem rules_visit_requested_modules_importing :
    (Sample.session.generate Sample.library Sample.importing).record =
        .ok { written := ["out/Cart.txt"] } ∧
      ∃ i draft rules, Sample.session.Reaches Sample.library Sample.importing i draft rules ∧
        i.modules = ["a"] ∧ draft.system.names = ["b", "a"] := by
  have hnames : Document.loadModuleNames Sample.library
      (Request.expand Sample.library Sample.importing.sources) = .ok ["a"] := by decide +kernel
  have hsystem : Document.load Sample.library
      (Request.expand Sample.library (Sample.importing.imports ++ Sample.importing.sources)) =
        .ok Sample.cartAndItem := by decide +kernel
  have hrecord : (Sample.session.generate Sample.library Sample.importing).record =
      .ok { written := ["out/Cart.txt"] } := by decide +kernel
  obtain ⟨sources, -, -, -, hruns⟩ :=
    (rules_visit_requested_modules Sample.session Sample.library Sample.importing).2 _ _ hnames
      hsystem
  obtain ⟨i, draft, rules, hreaches, hmodules, -, hkept, -⟩ := hruns _ hrecord
  exact ⟨hrecord, i, draft, rules, hreaches, hmodules, hkept⟩

end Stencil.Generate
