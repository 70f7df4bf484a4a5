import Stencil.Proofs.Generate.FilterLoading
import Stencil.Proofs.Generate.Stages
import Stencil.Proofs.Generate.Unresolved

/-!
# Requests that fail

A request that fails before its rules are applied leaves the files as they were.  One
that fails while they are applied, and not in writing a file, leaves exactly what the
writes before the failing step have made of the files, in the order of the tour.  Such
a step is a module that lacks an import, a filter set of a document that is not known,
or a file of which the directory, the name or the content cannot be rendered.

The filter sets of a document are loaded when its turn comes.  So an unknown one comes
after the writes of the documents before.
-/

namespace Stencil.Generate

open Files Report Rules Template

/-! ## The steps before a failing one -/

section Split

/-- What stands before something that has no stop is part of what comes before the first stop. -/
theorem isPrefix_of_no_stop {p before rest skipped : Plan} {f : Failure}
    (hp : ∀ g, Step.stop g ∉ p) (h : p ++ rest = before ++ .stop f :: skipped) : p <+: before := by
  rcases split_of_append h with ⟨later, rfl, -⟩ | ⟨between, rfl, -⟩
  · exact absurd (List.mem_append_right before List.mem_cons_self) (hp f)
  · exact List.prefix_append p between

/-- What a course of steps begins with, up to its first stop, is what the followed one begins
with. -/
theorem Follows.isPrefix {σ : Type} {p q : σ × Plan} {done rest : Plan} (h : Follows p q)
    (hdone : ∀ g, Step.stop g ∉ done) (hp : p.2 = done ++ rest) : done <+: q.2 := by
  rcases h with rfl | ⟨begun, f, skipped, later, hbegun, hq⟩
  · exact hp ▸ List.prefix_append done rest
  · rw [hq]
    exact (isPrefix_of_no_stop hdone (hp.symm.trans hbegun)).trans (List.prefix_append begun later)

/-- Up to its first stop a plan is a tour. -/
theorem isPrefix_tour {scope : Scope} {rules : RuleSet} {done rest : Plan}
    (hdone : ∀ g, Step.stop g ∉ done) (h : plan scope rules = done ++ rest) :
    done <+: tour scope rules := by
  cases rules with
  | modern documents => exact (follows_documents scope documents _).isPrefix hdone h
  | legacy rules =>
      exact ((follows_legacy scope rules _).prepend [.warn legacyNotice]).isPrefix hdone h

variable {σ α β : Type}

/-- What a sweep gives somewhere is given by the visit of one item, after all that the visits before
have given. -/
theorem exists_visit_of_split (visit : σ → α → σ × List β) {y : β} {q : List β} {xs : List α} :
    ∀ {s : σ} {p : List β}, (sweep visit s xs).2 = p ++ y :: q →
      ∃ before a after p' q', xs = before ++ a :: after ∧ p = (sweep visit s before).2 ++ p' ∧
        (visit (sweep visit s before).1 a).2 = p' ++ y :: q' := by
  induction xs with
  | nil =>
      intro s p h
      simp [sweep] at h
  | cons a rest ih =>
      intro s p h
      change (visit s a).2 ++ (sweep visit (visit s a).1 rest).2 = p ++ y :: q at h
      rcases split_of_append h with ⟨q', hhere, -⟩ | ⟨between, rfl, hlater⟩
      · exact ⟨[], a, rest, p, q', rfl, rfl, hhere⟩
      · obtain ⟨before, x, after, p', q', rfl, rfl, hx⟩ := ih hlater
        exact ⟨a :: before, x, after, p', q', rfl, by simp [sweep], hx⟩

end Split

/-! ## Filter sets -/

/-- A filter set that a registry has can be loaded. -/
theorem Bench.load_eq_none {registry : Registry} {name : String}
    (h : registry.contains name = true) (b : Bench) : (b.load registry name).1 = none := by
  obtain ⟨set, hset⟩ := Registry.contains_iff.mp h
  by_cases hmem : name ∈ b.loaded
  · rw [load_repeated hmem]
  · rw [load_registered hmem hset]

/-- The filter sets that a document loads itself come first among its steps. -/
theorem loads_of_visitDocument {scope : Scope} {d : RuleDocument}
    (hd : d.condition.holds scope.features = true) {c : Carry} {name : String} {before after : Plan}
    (h : (c.visitDocument scope d).2 = before ++ .load name :: after) :
    name ∈ d.extraFilters ∧ writesOf before = [] := by
  let rest : Plan := ((c.atStart d).visit scope d systemVisit).2 ++
    (sweep (Carry.visitModule scope d) ((c.atStart d).visit scope d systemVisit).1 scope.chosen).2
  have hrest : .load name ∉ rest := by
    intro hload
    rcases List.mem_append.mp hload with hsystem | hmodules
    · obtain ⟨w, hw⟩ := exists_write_of_visit hsystem
      cases hw
    · cases visiting_of_visitModules hmodules
  have hsplit : d.extraFilters.map Step.load ++ rest = before ++ .load name :: after := by
    rw [← h, visitDocument_eq hd]
    simp [rest]
  rcases split_of_append hsplit with ⟨later, hloads, -⟩ | ⟨between, -, hlater⟩
  · have hname : Step.load name ∈ d.extraFilters.map Step.load := by simp [hloads]
    obtain ⟨known, hknown, heq⟩ := List.mem_map.mp hname
    cases heq
    refine ⟨hknown, List.filterMap_eq_nil_iff.mpr fun s hs => ?_⟩
    have hmem : s ∈ d.extraFilters.map Step.load := hloads ▸ List.mem_append_left _ hs
    obtain ⟨other, -, rfl⟩ := List.mem_map.mp hmem
    rfl
  · exact absurd (hlater ▸ List.mem_append_right between List.mem_cons_self) hrest

/-- A plan loads a filter set for a rule document that asks for it, and before that makes exactly
the writes of the documents before. -/
theorem writes_before_load {scope : Scope} {rules : RuleSet} {name : String} {done later : Plan}
    (hdone : ∀ f, Step.stop f ∉ done) (h : plan scope rules = done ++ .load name :: later) :
    ∃ documents before d after, rules = .modern documents ∧
      scope.applying documents = before ++ d :: after ∧ name ∈ d.extraFilters ∧
        writesOf done = scope.declaredWrites before := by
  cases rules with
  | modern documents =>
      let start : Carry := ⟨scope.bindings.set Level.system.variable (.handle .system), "", none⟩
      have hsweep : (sweep (Carry.visitDocument scope) start (scope.applying documents)).2 =
          done ++ .load name :: later := by
        rw [← sweep_applying]
        exact h
      obtain ⟨before, d, after, part, rest, happlying, hpart, hvisit⟩ :=
        exists_visit_of_split _ hsweep
      have hd : d ∈ scope.applying documents := by simp [happlying]
      obtain ⟨hname, hnone⟩ := loads_of_visitDocument (List.mem_filter.mp hd).2 hvisit
      have hbefore : ∀ f, Step.stop f ∉ plan scope (.modern before) := by
        intro f hf
        exact hdone f (hpart ▸ List.mem_append_left part hf)
      have hwrites := writes_of_documents scope before (importFailure?_of_not_stop hbefore)
      refine ⟨documents, before, d, after, rfl, happlying, hname, ?_⟩
      rw [hpart, writesOf_append, hnone, List.append_nil]
      exact hwrites
  | legacy rules =>
      -- legacy rules load no filter sets
      have hload : .load name ∈ plan scope (.legacy rules) := by simp [h]
      rcases List.mem_cons.mp hload with hwarn | hmodules
      · cases hwarn
      · cases visiting_of_legacyModules hmodules

/-- The stops of a plan are unresolved imports. -/
theorem unresolved_of_stop {scope : Scope} {rules : RuleSet} {done later : Plan} {f : Failure}
    (hdone : ∀ g, Step.stop g ∉ done) (h : plan scope rules = done ++ .stop f :: later) :
    ∃ name module, f = .unresolvedImport name module := by
  obtain ⟨m, i, g, rest, hfirst, htour⟩ :=
    exists_firstFailing_of_stop (h ▸ List.mem_append_right done List.mem_cons_self)
  obtain ⟨-, rfl⟩ := eq_of_first_stop hdone (not_stop_of_tour _ _) (h.symm.trans htour)
  obtain ⟨name, -, rfl⟩ := Option.map_eq_some_iff.mp hfirst.failure
  exact ⟨name, m.name, rfl⟩

/-! ## Requests -/

/-- A request comes to its rules and fails while they are applied: some steps have been performed,
in the order of the tour, and what they have written is what has become of the files. -/
structure Session.FailsAt (s : Session) (t : Tree) (r : Request) (f : Failure) (i : Input)
    (draft : Prepare.Draft) (rules : RuleSet) (done : Plan) (step : Step) (deeds : List Deed) :
    Prop where
  reaches : s.Reaches t r i draft rules
  plan : ∃ later, s.plan r i draft.system rules = done ++ step :: later
  order : done <+: s.ownFilters i ++ tour (s.scope r i draft.system) rules
  cause : step.FailsWith f
  writes : deeds.map (·.write) = writesOf done
  files : Deed.Lead t deeds (s.generate t r).files

/-- What a failing step of a request is, if it is no file that could not be written. -/
inductive Session.Cause (s : Session) (r : Request) (i : Input) (draft : Prepare.Draft)
    (rules : RuleSet) (done : Plan) : Step → Failure → Prop
  /-- A module imports what is not there. -/
  | unresolved (name module : String) :
      Cause s r i draft rules done (.stop (.unresolvedImport name module))
        (.unresolvedImport name module)
  /-- The directory, the name or the content of a file cannot be rendered. -/
  | template (w : Write) (e : TemplateError) :
      Cause s r i draft rules done (.write w) (.template e)
  /-- A document asks for a filter set that is not known, once the documents before it have made
  all their writes. -/
  | filters {documents before after : List RuleDocument} {d : RuleDocument} {name : String}
      (modern : rules = .modern documents)
      (split : (s.scope r i draft.system).applying documents = before ++ d :: after)
      (asked : name ∈ d.extraFilters)
      (writes : writesOf done = (s.scope r i draft.system).declaredWrites before) :
      Cause s r i draft rules done (.load name) (.unknownFilterSet name)

section Requests

variable {s : Session} {t : Tree} {r : Request} {i : Input} {draft : Prepare.Draft}
  {rules : RuleSet}

/-- A filter set of the template's name can be loaded. -/
theorem Session.eq_none_of_mem_ownFilters {step : Step} (h : step ∈ s.ownFilters i)
    (draft : Prepare.Draft) (b : Bench) : (b.step (s.setting r draft) step).1 = none := by
  unfold Session.ownFilters at h
  dsimp only at h
  split at h
  · rename_i hcontains
    cases List.mem_singleton.mp h
    exact Bench.load_eq_none hcontains b
  · cases h

/-- A step of a request that fails comes after the filter set of the template's name. -/
theorem Session.exists_split_of_failed {done later : Plan} {step : Step} {b : Bench} {f : Failure}
    (hplan : s.plan r i draft.system rules = done ++ step :: later)
    (hstep : (b.step (s.setting r draft) step).1 = some f) :
    ∃ rest, done = s.ownFilters i ++ rest ∧
      Generate.plan (s.scope r i draft.system) rules = rest ++ step :: later := by
  have hown : step ∉ s.ownFilters i := by
    intro hmem
    rw [Session.eq_none_of_mem_ownFilters hmem] at hstep
    cases hstep
  rw [Session.plan_eq] at hplan
  rcases split_of_append hplan with ⟨more, howned, -⟩ | ⟨rest, rfl, hrest⟩
  · exact absurd (howned ▸ List.mem_append_right done List.mem_cons_self) hown
  · exact ⟨rest, rfl, hrest⟩

/-- A request that comes to its rules and fails, and not in writing a file, fails at a step. -/
theorem Session.Reaches.exists_failsAt (h : s.Reaches t r i draft rules) {a : Abort}
    (hrecord : (s.generate t r).record = .error a)
    (hwriting : ∀ path fault, a.failure ≠ .write path fault) :
    ∃ done step deeds, s.FailsAt t r a.failure i draft rules done step deeds ∧
      s.Cause r i draft rules done step a.failure := by
  obtain ⟨f, context⟩ := a
  let start := s.bench t r i draft
  have hfails : (start.perform (s.setting r draft) (s.plan r i draft.system rules)).1 = some f :=
    h.failed hrecord
  obtain ⟨done, step, middle, hbreaks⟩ := Bench.exists_breaksOff hfails
  obtain ⟨later, hplan⟩ := hbreaks.plan
  obtain ⟨rest, rfl, hrest⟩ :=
    Session.exists_split_of_failed hplan (congrArg Prod.fst hbreaks.failed)
  have hstop : ∀ g, Step.stop g ∉ rest := fun g hg =>
    hbreaks.not_stop g (List.mem_append_right _ hg)
  have hcause : step.FailsWith f := (Bench.failsWith_of_step hbreaks.failed).1
  have hlead := hbreaks.lead hwriting
  refine ⟨s.ownFilters i ++ rest, step, start.deeds (s.setting r draft)
    (s.plan r i draft.system rules), ⟨h, ⟨later, hplan⟩, ?_, hcause, hbreaks.writes, ?_⟩, ?_⟩
  · exact (List.prefix_append_right_inj _).mpr (isPrefix_tour hstop hrest)
  · rw [h.generate_eq]
    exact hlead
  · dsimp only
    cases hcause with
    | stop =>
        obtain ⟨name, module, hfailure⟩ := unresolved_of_stop hstop hrest
        rw [hfailure]
        exact .unresolved name module
    | load name =>
        obtain ⟨documents, before, d, after, hmodern, hsplit, hname, hwrites⟩ :=
          writes_before_load hstop hrest
        refine .filters hmodern hsplit hname ?_
        rw [writesOf_append, Session.writesOf_ownFilters, List.nil_append]
        exact hwrites
    | template w e => exact .template w e
    | output w path fault => exact absurd rfl (hwriting path fault)

end Requests

/-- A request that does not come to its rules fails and leaves the files as they were; it never
comes there when a module, be it an imported one, has a type that is not supported.  One that does
come to its rules and fails, and not in writing a file, has performed the steps before the one that
failed, in the order of the tour, and the deeds of these steps lead from the files before the
request to those after it.  In either case no template is active any more. -/
theorem files_of_failed_request (s : Session) (t : Tree) (r : Request) :
    ((∀ i draft rules, ¬ s.Reaches t r i draft rules) →
      (∃ a, (s.generate t r).record = .error a) ∧ (s.generate t r).files = t) ∧
    (∀ i, r.input t = .ok i →
      (Prepare.runPhases t r.phases i.draft).2.reporter.frames = [] ∧
        ((∃ m ∈ i.system.modules, ¬ m.AllTypes Prepare.Supported) →
          (∃ a, (s.generate t r).record = .error a) ∧ (s.generate t r).files = t)) ∧
    ∀ a, (s.generate t r).record = .error a → (∀ path fault, a.failure ≠ .write path fault) →
      (∀ i draft rules, ¬ s.Reaches t r i draft rules) ∨
        ∃ i draft rules done step deeds,
          s.FailsAt t r a.failure i draft rules done step deeds ∧
            s.Cause r i draft rules done step a.failure ∧
              ((s.bench t r i draft).perform (s.setting r draft)
                (s.plan r i draft.system rules)).2.desk.reporter.frames = [] := by
  refine ⟨Session.files_of_not_reaches, fun i hinput => ⟨Input.frames_draft t r i, ?_⟩, ?_⟩
  · rintro ⟨m, hm, hunsupported⟩
    refine Session.files_of_not_reaches fun i' draft rules hreaches => ?_
    have hi : i = i' := Except.ok.inj (hinput.symm.trans hreaches.input)
    exact hunsupported (hreaches.supported m (hi ▸ hm))
  · intro a hrecord hwriting
    by_cases hreaches : ∃ i draft rules, s.Reaches t r i draft rules
    · obtain ⟨i, draft, rules, hreaches⟩ := hreaches
      obtain ⟨done, step, deeds, hfails, hcause⟩ := hreaches.exists_failsAt hrecord hwriting
      exact Or.inr
        ⟨i, draft, rules, done, step, deeds, hfails, hcause, hreaches.frames _⟩
    · exact Or.inl fun i draft rules h => hreaches ⟨i, draft, rules, h⟩

namespace Sample

/-- A tree with a template whose second rule document asks for a filter set. -/
def demanding : Tree :=
  ⟨[(["w", "a.yaml"], .file (.text "module: a\ninterfaces:\n  - name: Cart\n")),
    (["w", "tpl", "text.yaml"], .file (.text
      "first:\n  interface:\n    documents:\n      cart.txt: i.tpl\nsecond:\n  extra_filters: [gone]\n")),
    (["w", "tpl", "text", "i.tpl"], .file (.text "generated")),
    (["w", "tpl", "text"], .directory), (["w", "tpl"], .directory), (["w"], .directory)], ["w"]⟩

def plainRequest : Request where
  sources := ["a.yaml"]
  destination := "out"
  template := "text"
  searchPath := ["tpl"]

theorem demanding_fails : (session.generate demanding plainRequest).record =
    .error ⟨.unknownFilterSet "gone", []⟩ := by
  decide +kernel

/-- The files of the first document are there. -/
theorem demanding_files : (session.generate demanding plainRequest).files.get?
    ["w", "out", "cart.txt"] = some (.file (.text "generated")) := by
  decide +kernel

end Sample

theorem files_of_failed_request_demanding :
    (Sample.session.generate Sample.demanding Sample.plainRequest).record =
        .error ⟨.unknownFilterSet "gone", []⟩ ∧
      ∃ i draft rules done step deeds,
        Sample.session.FailsAt Sample.demanding Sample.plainRequest (.unknownFilterSet "gone")
          i draft rules done step deeds := by
  refine ⟨Sample.demanding_fails, ?_⟩
  obtain ⟨hnever, -, hfails⟩ :=
    files_of_failed_request Sample.session Sample.demanding Sample.plainRequest
  rcases hfails _ Sample.demanding_fails (by simp) with hearly |
    ⟨i, draft, rules, done, step, deeds, hat, -⟩
  · -- a request that does not come to its rules would not have written the file
    have hfiles := Sample.demanding_files
    rw [(hnever hearly).2] at hfiles
    exact absurd hfiles (by decide +kernel)
  · exact ⟨i, draft, rules, done, step, deeds, hat⟩

/-- A document that asks for an unknown filter set leaves the files of the documents before it. -/
theorem not_files_eq_of_unknown_filters :
    ¬ ∀ (s : Session) (t : Tree) (r : Request) (name : String) (context : List String),
      (s.generate t r).record = .error ⟨.unknownFilterSet name, context⟩ →
        (s.generate t r).files = t := by
  intro hclaim
  have hsame := hclaim Sample.session Sample.demanding Sample.plainRequest "gone" []
    Sample.demanding_fails
  have hfiles := Sample.demanding_files
  rw [hsame] at hfiles
  exact absurd hfiles (by decide +kernel)

end Stencil.Generate
