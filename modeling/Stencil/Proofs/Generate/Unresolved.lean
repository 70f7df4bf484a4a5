import Stencil.Proofs.Generate.Failed
import Stencil.Proofs.Generate.Tour

/-!
# Unresolved imports

The imports of a module are checked when its turn comes.  So a run that ends with
an unresolved import names the first requested module, in declaration order, that
imports what is not there, and it has done what its first document that applies does
for the system and for the modules before.  Legacy rules have done what they do for
the modules before.  Nothing is written for that module, for a later one or by a
later document.
-/

namespace Stencil.Generate

open Model (Module)
open Report Rules Template

/-! ## The first module that lacks an import -/

/-- The scope whose system ends before a module. -/
def Scope.upTo (scope : Scope) (i : Nat) : Scope :=
  { scope with system := ⟨scope.system.modules.take i⟩ }

/-- The rules with which a run begins: the first document that applies, or the legacy rules. -/
def Scope.opening (scope : Scope) : RuleSet → RuleSet
  | .modern documents => .modern ((scope.applying documents).take 1)
  | .legacy rules => .legacy rules

/-- A module is requested and lacks an import, and no requested module before it does. -/
structure Scope.FirstFailing (scope : Scope) (m : Module) (i : Nat) (f : Failure) : Prop where
  chosen : (m, i) ∈ scope.chosen
  failure : scope.importFailure? m = some f
  before : ∀ earlier ∈ (scope.upTo i).chosen, scope.importFailure? earlier.1 = none

/-- The requested modules are those before a failing one, that one, and later ones. -/
theorem Scope.FirstFailing.exists_later {scope : Scope} {m : Module} {i : Nat} {f : Failure}
    (h : scope.FirstFailing m i f) :
    ∃ later, scope.chosen = (scope.upTo i).chosen ++ (m, i) :: later := by
  obtain ⟨hm, hname⟩ := mem_chosen.mp h.chosen
  obtain ⟨hi, hat⟩ := List.getElem?_eq_some_iff.mp hm
  have hsplit : scope.system.modules =
      scope.system.modules.take i ++ m :: scope.system.modules.drop (i + 1) := by
    rw [← hat, List.getElem_cons_drop, List.take_append_drop]
  have hcontains : scope.modules.contains m.name = true := by simpa using hname
  have hlength : (scope.system.modules.take i).length = i := List.length_take_of_le hi.le
  refine ⟨((scope.system.modules.drop (i + 1)).zipIdx (i + 1)).filter
    fun later => scope.modules.contains later.1.name, ?_⟩
  unfold Scope.chosen Scope.upTo
  conv_lhs => rw [hsplit]
  rw [List.zipIdx_append, List.filter_append, hlength, List.zipIdx_cons, List.filter_cons,
    if_pos (by simpa using hcontains)]
  simp

theorem mem_chosen_upTo {scope : Scope} {i j : Nat} {m : Module} :
    (m, j) ∈ (scope.upTo i).chosen ↔ j < i ∧ (m, j) ∈ scope.chosen := by
  rw [mem_chosen, mem_chosen, Scope.upTo, List.getElem?_take]
  by_cases hj : j < i <;> simp [hj]

/-- If a requested module lacks an import, then one of them is the first. -/
theorem Scope.exists_firstFailing {scope : Scope} (i : Nat) :
    ∀ (m : Module) (f : Failure), (m, i) ∈ scope.chosen → scope.importFailure? m = some f →
      ∃ first j g, scope.FirstFailing first j g := by
  induction i using Nat.strong_induction_on with
  | h i ih =>
      intro m f hm hf
      by_cases hbefore : ∀ earlier ∈ (scope.upTo i).chosen, scope.importFailure? earlier.1 = none
      · exact ⟨m, i, f, hm, hf, hbefore⟩
      · obtain ⟨⟨earlier, j⟩, hmem, hsome⟩ := not_forall₂.mp hbefore
        obtain ⟨hj, hchosen⟩ := mem_chosen_upTo.mp hmem
        obtain ⟨g, hg⟩ := Option.ne_none_iff_exists'.mp hsome
        exact ih j hj earlier g hchosen hg

/-! ## Plans with a stop -/

section Sweep

variable {σ α β : Type}

/-- What a sweep gives is given by one of its visits. -/
theorem exists_visit_of_mem_sweep (visit : σ → α → σ × List β) {y : β} {xs : List α} :
    ∀ {s : σ}, y ∈ (sweep visit s xs).2 → ∃ a ∈ xs, ∃ here, y ∈ (visit here a).2 := by
  induction xs with
  | nil =>
      intro s h
      cases h
  | cons a rest ih =>
      intro s h
      rcases List.mem_append.mp h with h | h
      · exact ⟨a, List.mem_cons_self, s, h⟩
      · obtain ⟨x, hx, hvisit⟩ := ih h
        exact ⟨x, List.mem_cons_of_mem a hx, hvisit⟩

/-- A sweep gives first what it gives for the items before one, and then what that one gives. -/
theorem sweep_through (visit : σ → α → σ × List β) (before : List α) (a : α) (after : List α)
    (s : σ) : ∃ rest, (sweep visit s (before ++ a :: after)).2 =
      (sweep visit s before).2 ++ (visit (sweep visit s before).1 a).2 ++ rest := by
  rw [sweep_append]
  exact ⟨(sweep visit (visit (sweep visit s before).1 a).1 after).2, by simp [sweep]⟩

end Sweep

/-- All that a visit of a node gives are writes. -/
theorem exists_write_of_visit {scope : Scope} {d : RuleDocument} {c : Carry} {v : Visit} {s : Step}
    (h : s ∈ (c.visit scope d v).2) : ∃ w, s = .write w := by
  have hwrites : ∀ c preserve targets, s ∈ Carry.writes scope c preserve targets →
      ∃ w, s = .write w := by
    intro c preserve targets hs
    obtain ⟨target, -, rfl⟩ := List.mem_map.mp hs
    exact ⟨_, rfl⟩
  rw [visit_eq] at h
  cases hfiring : scope.firing? d v with
  | none =>
      rw [hfiring] at h
      cases h
  | some firing =>
      rw [hfiring] at h
      rcases List.mem_append.mp h with h | h
      · exact hwrites _ _ _ h
      · exact hwrites _ _ _ h

/-- All that a visit of a node by legacy rules gives are writes. -/
theorem exists_write_of_legacyVisit {scope : Scope} {rules : LegacyRules} {bindings : Variables}
    {v : Visit} {s : Step} (h : s ∈ (legacyVisit scope rules bindings v).2) :
    ∃ w, s = .write w := by
  have hwrites : ∀ bindings rules, s ∈ legacyWrites bindings rules → ∃ w, s = .write w := by
    intro bindings rules hs
    obtain ⟨rule, -, rfl⟩ := List.mem_map.mp hs
    exact ⟨_, rfl⟩
  unfold legacyVisit at h
  split at h
  · exact hwrites _ _ h
  · exact hwrites _ _ h
  · exact hwrites _ _ h
  · cases h

/-- A step for the requested modules of a scope: a write, or the failure of a module that lacks an
import. -/
inductive Scope.Visiting (scope : Scope) : Step → Prop
  | write (w : Write) : Visiting scope (.write w)
  | stop {m : Module} {i : Nat} {f : Failure} (chosen : (m, i) ∈ scope.chosen)
      (failure : scope.importFailure? m = some f) : Visiting scope (.stop f)

theorem visiting_of_visitModules {scope : Scope} {d : RuleDocument} {c : Carry} {s : Step}
    (h : s ∈ (sweep (Carry.visitModule scope d) c scope.chosen).2) : scope.Visiting s := by
  obtain ⟨⟨m, i⟩, hm, here, hmodule⟩ := exists_visit_of_mem_sweep _ h
  unfold Carry.visitModule at hmodule
  cases hfailure : scope.importFailure? m with
  | none =>
      rw [hfailure] at hmodule
      obtain ⟨v, -, inner, hv⟩ := exists_visit_of_mem_sweep _ hmodule
      obtain ⟨w, rfl⟩ := exists_write_of_visit hv
      exact .write w
  | some f =>
      rw [hfailure] at hmodule
      cases List.mem_singleton.mp hmodule
      exact .stop hm hfailure

theorem visiting_of_legacyModules {scope : Scope} {rules : LegacyRules} {bindings : Variables}
    {s : Step} (h : s ∈ (sweep (legacyModule scope rules) bindings scope.chosen).2) :
    scope.Visiting s := by
  obtain ⟨⟨m, i⟩, hm, here, hmodule⟩ := exists_visit_of_mem_sweep _ h
  cases hfailure : scope.importFailure? m with
  | none =>
      rw [legacyModule_eq hfailure] at hmodule
      obtain ⟨v, -, inner, hv⟩ := exists_visit_of_mem_sweep _ hmodule
      obtain ⟨w, rfl⟩ := exists_write_of_legacyVisit hv
      exact .write w
  | some f =>
      unfold legacyModule at hmodule
      rw [hfailure] at hmodule
      cases List.mem_singleton.mp hmodule
      exact .stop hm hfailure

/-- A tour has no stop. -/
theorem not_stop_of_tour (scope : Scope) (rules : RuleSet) (f : Failure) :
    .stop f ∉ tour scope rules := by
  intro h
  cases rules with
  | modern documents =>
      obtain ⟨d, -, c, hd⟩ := exists_visit_of_mem_sweep _ h
      rcases List.mem_append.mp hd with hload | hvisits
      · obtain ⟨name, -, hstep⟩ := List.mem_map.mp hload
        cases hstep
      · have hsweep : .stop f ∈ (sweep (Carry.visit scope d) (c.atStart d) scope.visits).2 := hvisits
        obtain ⟨v, -, here, hv⟩ := exists_visit_of_mem_sweep _ hsweep
        obtain ⟨w, hw⟩ := exists_write_of_visit hv
        cases hw
  | legacy rules =>
      rcases List.mem_cons.mp h with hwarn | hvisits
      · cases hwarn
      · obtain ⟨v, -, here, hv⟩ := exists_visit_of_mem_sweep _ hvisits
        obtain ⟨w, hw⟩ := exists_write_of_legacyVisit hv
        cases hw

/-- Two courses of steps up to the first stop of a plan are the same. -/
theorem eq_of_first_stop {p q rest later : Plan} {f g : Failure}
    (hp : ∀ h, Step.stop h ∉ p) (hq : ∀ h, Step.stop h ∉ q)
    (h : p ++ .stop f :: rest = q ++ .stop g :: later) : p = q ∧ f = g := by
  induction p generalizing q with
  | nil =>
      cases q with
      | nil =>
          cases h
          exact ⟨rfl, rfl⟩
      | cons s q =>
          cases h
          exact absurd List.mem_cons_self (hq f)
  | cons s p ih =>
      cases q with
      | nil =>
          cases h
          exact absurd List.mem_cons_self (hp g)
      | cons s' q =>
          rw [List.cons_append, List.cons_append, List.cons.injEq] at h
          obtain ⟨rfl, h⟩ := h
          obtain ⟨rfl, hfg⟩ := ih (fun h hh => hp h (List.mem_cons_of_mem s hh))
            (fun h hh => hq h (List.mem_cons_of_mem s hh)) h
          exact ⟨rfl, hfg⟩

/-! ## The first stop of a plan -/

section FirstStop

variable {scope : Scope} {m : Module} {i : Nat} {f : Failure}

/-- A document that applies tours the modules before the first one that lacks an import, and stops
there. -/
theorem visitDocument_of_firstFailing (h : scope.FirstFailing m i f) {d : RuleDocument}
    (hd : d.condition.holds scope.features = true) (c : Carry) :
    ∃ rest, (c.visitDocument scope d).2 =
      (c.tourDocument (scope.upTo i) d).2 ++ .stop f :: rest := by
  obtain ⟨later, hchosen⟩ := h.exists_later
  have hbefore : ∀ s : Carry, sweep (Carry.visitModule scope d) s (scope.upTo i).chosen =
      sweep (fun c m => sweep (Carry.visit scope d) c (moduleVisits m.1 m.2)) s
        (scope.upTo i).chosen := by
    refine sweep_congr fun earlier hearlier s => ?_
    unfold Carry.visitModule
    rw [h.before earlier hearlier]
  have hstop : ∀ s : Carry, s.visitModule scope d (m, i) = (s, [.stop f]) := by
    intro s
    unfold Carry.visitModule
    rw [h.failure]
  -- a visit looks at the settings of the scope and not at its system
  have hvisit : Carry.visit (scope.upTo i) d = Carry.visit scope d := rfl
  obtain ⟨rest, hrest⟩ := sweep_through (Carry.visitModule scope d) (scope.upTo i).chosen (m, i)
    later ((c.atStart d).visit scope d systemVisit).1
  rw [visitDocument_eq hd, tourDocument_eq_modules, hchosen, hvisit]
  dsimp only
  rw [hrest, hbefore, hstop]
  exact ⟨rest, by simp⟩

/-- Rule documents tour the modules before the first one that lacks an import once, for the first
document that applies. -/
theorem documentsPlan_of_firstFailing (h : scope.FirstFailing m i f)
    {documents : List RuleDocument} (hdocuments : scope.applying documents ≠ []) :
    ∃ rest, plan scope (.modern documents) =
      tour (scope.upTo i) (scope.opening (.modern documents)) ++ .stop f :: rest := by
  obtain ⟨d, others, happlying⟩ := List.exists_cons_of_ne_nil hdocuments
  have hmem : d ∈ scope.applying documents := happlying ▸ List.mem_cons_self
  have hd : d.condition.holds scope.features = true := (List.mem_filter.mp hmem).2
  have hfirst : (scope.upTo i).applying [d] = [d] :=
    List.filter_eq_self.mpr fun e he => List.mem_singleton.mp he ▸ hd
  let start : Carry := ⟨scope.bindings.set Level.system.variable (.handle .system), "", none⟩
  obtain ⟨rest, hrest⟩ := visitDocument_of_firstFailing h hd start
  refine ⟨rest ++ (sweep (Carry.visitDocument scope) (start.visitDocument scope d).1 others).2, ?_⟩
  have htour : tour (scope.upTo i) (.modern [d]) = (start.tourDocument (scope.upTo i) d).2 := by
    unfold tour documentsTour
    dsimp only
    rw [hfirst]
    simp [sweep, start]
    rfl
  have hopening : scope.opening (.modern documents) = .modern [d] := by
    rw [Scope.opening, happlying]
    rfl
  have hplan : plan scope (.modern documents) =
      (start.visitDocument scope d).2 ++
        (sweep (Carry.visitDocument scope) (start.visitDocument scope d).1 others).2 := by
    unfold plan documentsPlan
    dsimp only
    rw [sweep_applying, happlying]
    rfl
  rw [hplan, hopening, htour, hrest]
  simp

/-- Legacy rules tour the modules before the first one that lacks an import. -/
theorem legacyPlan_of_firstFailing (h : scope.FirstFailing m i f) (rules : LegacyRules) :
    ∃ rest, plan scope (.legacy rules) =
      tour (scope.upTo i) (scope.opening (.legacy rules)) ++ .stop f :: rest := by
  obtain ⟨later, hchosen⟩ := h.exists_later
  let start := (scope.bindings.set Level.system.variable (.handle .system)).set "dst"
    (.ofText scope.destination)
  have hbefore : sweep (legacyModule scope rules) start (scope.upTo i).chosen =
      sweep (legacyVisit (scope.upTo i) rules) start (scope.upTo i).visits := by
    rw [sweep_legacyVisit]
    exact sweep_congr (fun earlier hearlier s =>
      legacyModule_eq (h.before earlier hearlier) rules s) start
  obtain ⟨rest, hrest⟩ := sweep_through (legacyModule scope rules) (scope.upTo i).chosen (m, i)
    later start
  have hstop : ∀ s : Variables, legacyModule scope rules s (m, i) = (s, [.stop f]) := by
    intro s
    unfold legacyModule
    rw [h.failure]
  refine ⟨rest, ?_⟩
  change .warn legacyNotice :: (sweep (legacyModule scope rules) start scope.chosen).2 =
    (.warn legacyNotice ::
      (sweep (legacyVisit (scope.upTo i) rules) start (scope.upTo i).visits).2) ++ .stop f :: rest
  rw [hchosen, hrest, hbefore, hstop]
  simp

end FirstStop

/-- A plan that stops tours, with its first rules, the modules before the first requested one that
lacks an import. -/
theorem exists_firstFailing_of_stop {scope : Scope} {rules : RuleSet} {g : Failure}
    (h : .stop g ∈ plan scope rules) :
    ∃ m i f rest, scope.FirstFailing m i f ∧
      plan scope rules = tour (scope.upTo i) (scope.opening rules) ++ .stop f :: rest := by
  cases rules with
  | modern documents =>
      have hsweep : .stop g ∈ (sweep (Carry.visitDocument scope)
          ⟨scope.bindings.set Level.system.variable (.handle .system), "", none⟩
          (scope.applying documents)).2 := by
        rw [← sweep_applying]
        exact h
      obtain ⟨d, hd, c, hdocument⟩ := exists_visit_of_mem_sweep _ hsweep
      rw [visitDocument_eq (List.mem_filter.mp hd).2] at hdocument
      rcases List.mem_append.mp hdocument with hstart | hmodules
      · rcases List.mem_append.mp hstart with hload | hsystem
        · obtain ⟨name, -, hstep⟩ := List.mem_map.mp hload
          cases hstep
        · obtain ⟨w, hw⟩ := exists_write_of_visit hsystem
          cases hw
      · obtain _ | ⟨hm, hfailure⟩ := visiting_of_visitModules hmodules
        obtain ⟨first, j, e, hfirst⟩ := Scope.exists_firstFailing _ _ g hm hfailure
        obtain ⟨rest, hrest⟩ := documentsPlan_of_firstFailing hfirst (List.ne_nil_of_mem hd)
        exact ⟨first, j, e, rest, hfirst, hrest⟩
  | legacy rules =>
      rcases List.mem_cons.mp h with hwarn | hmodules
      · cases hwarn
      · obtain _ | ⟨hm, hfailure⟩ := visiting_of_legacyModules hmodules
        obtain ⟨first, j, e, hfirst⟩ := Scope.exists_firstFailing _ _ g hm hfailure
        obtain ⟨rest, hrest⟩ := legacyPlan_of_firstFailing hfirst rules
        exact ⟨first, j, e, rest, hfirst, hrest⟩

/-! ## Runs -/

/-- A run that ends with an unresolved import names the first requested module, in declaration
order, that imports what is not there, and its first such import.  It has made exactly the writes
of the first document that applies, or of the legacy rules, for the system and the requested
modules before that one, and they lead from the files before the run to those after it. -/
theorem writes_of_unresolved (scope : Scope) (rules : RuleSet) (setting : Setting) (b : Bench)
    (name module : String)
    (h : (b.perform setting (plan scope rules)).1 = some (.unresolvedImport name module)) :
    ∃ m i, (m, i) ∈ scope.chosen ∧ m.name = module ∧
      (scope.system.unresolvedImports m).head? = some name ∧
      (∀ earlier ∈ (scope.upTo i).chosen, scope.system.unresolvedImports earlier.1 = []) ∧
      (b.deeds setting (plan scope rules)).map (·.write) =
        writesOf (tour (scope.upTo i) (scope.opening rules)) ∧
      Deed.Lead b.desk.files (b.deeds setting (plan scope rules))
        (b.perform setting (plan scope rules)).2.desk.files := by
  obtain ⟨done, s, middle, hbreaks⟩ := Bench.exists_breaksOff h
  have hs : s = .stop (.unresolvedImport name module) := by
    cases (Bench.failsWith_of_step hbreaks.failed).1
    rfl
  subst hs
  obtain ⟨later, hplan⟩ := hbreaks.plan
  obtain ⟨m, i, f, rest, hfirst, htour⟩ :=
    exists_firstFailing_of_stop (hplan ▸ List.mem_append_right done List.mem_cons_self)
  obtain ⟨hdone, hf⟩ := eq_of_first_stop hbreaks.not_stop (not_stop_of_tour _ _)
    (hplan.symm.trans htour)
  subst hf
  have hfailure := hfirst.failure
  unfold Scope.importFailure? at hfailure
  obtain ⟨import_, himport, heq⟩ := Option.map_eq_some_iff.mp hfailure
  cases heq
  refine ⟨m, i, hfirst.chosen, rfl, himport, ?_, ?_, ?_⟩
  · intro earlier hearlier
    have hnone := hfirst.before earlier hearlier
    unfold Scope.importFailure? at hnone
    rwa [Option.map_eq_none_iff, List.head?_eq_none_iff] at hnone
  · rw [hbreaks.writes, hdone]
    rfl
  · exact hbreaks.lead (by simp)

namespace Sample

/-- A scope with a module that has all its imports, and after it one that has not. -/
def torn : Scope :=
  { scope with
    system := ⟨system.modules ++ [{ name := "bank", version := ⟨1, 0⟩, imports := ["gone"] }]⟩
    modules := ["shop", "bank"] }

/-- A document with a file for the system and one for a module. -/
def everywhere : RuleDocument where
  system := some { documents := [("all.txt", "text.tpl")] }
  module := some { documents := [("one.txt", "text.tpl")] }

theorem torn_fails : (bench.perform setting (plan torn (.modern [everywhere]))).1 =
    some (.unresolvedImport "gone" "bank") := by
  decide +kernel

end Sample

theorem writes_of_unresolved_torn :
    (Sample.bench.perform Sample.setting (plan Sample.torn (.modern [Sample.everywhere]))).1 =
        some (.unresolvedImport "gone" "bank") ∧
      ∃ m i, (m, i) ∈ Sample.torn.chosen ∧ m.name = "bank" ∧
        (Sample.bench.deeds Sample.setting
            (plan Sample.torn (.modern [Sample.everywhere]))).map (·.write) =
          writesOf (tour (Sample.torn.upTo i) (Sample.torn.opening (.modern [Sample.everywhere]))) := by
  obtain ⟨m, i, hchosen, hname, -, -, hwrites, -⟩ :=
    writes_of_unresolved Sample.torn (.modern [Sample.everywhere]) Sample.setting Sample.bench
      "gone" "bank" Sample.torn_fails
  exact ⟨Sample.torn_fails, m, i, hchosen, hname, hwrites⟩

/-- What the rules have written for the system and for an earlier module stays when a later one
lacks an import. -/
theorem not_files_eq_of_unresolved :
    ¬ ∀ (scope : Scope) (rules : RuleSet) (setting : Setting) (b : Bench) (name module : String),
      (b.perform setting (plan scope rules)).1 = some (.unresolvedImport name module) →
        ∀ l, (b.perform setting (plan scope rules)).2.desk.files.get? l = b.desk.files.get? l := by
  intro hclaim
  have hsame := hclaim Sample.torn (.modern [Sample.everywhere]) Sample.setting Sample.bench
    "gone" "bank" Sample.torn_fails ["w", "out", "all.txt"]
  exact absurd hsame (by decide +kernel)

end Stencil.Generate
