import Mathlib.Data.List.Infix
import Stencil.Proofs.Generate.Deed

/-!
# The order of a traversal

The writes of rule documents as a flat list.  A rule fires at a node if the
document has a rule for the level of the node and its condition holds.  What a
fired rule writes depends on the rules that fired before it in two ways: the
directory and the source are the last ones that were given in the same document,
and the variables are those of the whole run so far.

A run of rule documents that succeeds makes exactly these writes.
-/

namespace Stencil.Generate

open Rules Template

/-! ## The declared order -/

/-- Each element of a list with those before it. -/
def withPast {α : Type} (xs : List α) : List (List α × α) := xs.inits.zip xs

/-- A rule that applies to a node. -/
structure Firing where
  visit : Visit
  rule : Rule

namespace Scope

/-- The nodes of a run: the system, and then for each requested module, in declaration order, the
module, its interfaces, its structs and its enums. -/
def visits (scope : Scope) : List Visit :=
  ⟨.system, .system⟩ ::
    (scope.system.modules.zipIdx.filter fun (m, _) => m.name ∈ scope.modules).flatMap fun (m, i) =>
      [⟨.module, .node (.module i)⟩]
        ++ (List.range m.interfaces.length).map (fun k => ⟨.interface, .node (.interface i k)⟩)
        ++ (List.range m.structs.length).map (fun k => ⟨.struct, .node (.struct i k)⟩)
        ++ (List.range m.enums.length).map (fun k => ⟨.enum, .node (.enum i k)⟩)

/-- The rule of a document that fires at a node. -/
def firing? (scope : Scope) (d : RuleDocument) (v : Visit) : Option Firing :=
  ((ruleAt d v.level).filter fun r => r.condition.holds scope.features).map (⟨v, ·⟩)

/-- The rules of a document that fire, in order. -/
def firings (scope : Scope) (d : RuleDocument) : List Firing :=
  scope.visits.filterMap (scope.firing? d)

/-- The documents that apply, in order. -/
def applying (scope : Scope) (documents : List RuleDocument) : List RuleDocument :=
  documents.filter fun d => d.condition.holds scope.features

end Scope

/-- The members of a mapping as variables. -/
def variablesOf (ms : Members) : Variables := ms.map fun (name, v) => (name, .ofJson v)

/-- The variables that a document sets itself and through fired rules, in order. -/
def settings (d : RuleDocument) (fired : List Firing) : Variables :=
  variablesOf d.context ++ fired.flatMap fun f =>
    (f.visit.level.variable, .handle f.visit.node) :: variablesOf f.rule.context

/-- Variables with others set in order; later values of a name take the place of earlier ones. -/
def assign (settings : Variables) (vs : Variables) : Variables :=
  settings.foldl (fun vs (name, v) => vs.set name v) vs

/-- The last setting that is there and not empty. -/
def lastGiven (settings : List (Option String)) : Option String :=
  (settings.filterMap fun s => s.filter (!·.isEmpty)).getLast?

/-- The files of a rule that have a name and a template. -/
def wanted (targets : Targets) : Targets :=
  targets.filter fun (name, template) => name ≠ "" ∧ template ≠ ""

namespace Scope

/-- A write of the last of some fired rules, after documents that were applied before. -/
def declaredWrite (scope : Scope) (earlier : List RuleDocument) (d : RuleDocument)
    (fired : List Firing) (preserve : Bool) (target : String × String) : Write where
  bindings := assign
    (("system", .handle .system) :: earlier.flatMap (fun e => settings e (scope.firings e))
      ++ settings d fired) scope.bindings
  directory := (lastGiven (fired.map (·.rule.path))).getD (d.path.getD "")
  name := target.1
  template := templateName (lastGiven (fired.map (·.rule.source)) <|> d.source) target.2
  preserve := preserve
  force := scope.force

/-- The writes of rule documents in their declared order. -/
def declaredWrites (scope : Scope) (documents : List RuleDocument) : List Write :=
  (withPast (scope.applying documents)).flatMap fun (earlier, d) =>
    (withPast (scope.firings d)).flatMap fun (before, f) =>
      let write := scope.declaredWrite earlier d (before ++ [f])
      (wanted f.rule.documents).map (write false) ++ (wanted f.rule.preserve).map (write true)

end Scope

/-! ## Sweeps -/

section Sweep

variable {σ α β γ : Type}

/-- An item of two lists in a row stands in the first one or in the second one. -/
theorem split_of_append {p q before after : List α} {x : α} (h : p ++ q = before ++ x :: after) :
    (∃ rest, p = before ++ x :: rest ∧ after = rest ++ q) ∨
      ∃ rest, before = p ++ rest ∧ q = rest ++ x :: after := by
  rcases List.append_eq_append_iff.mp h with ⟨rest, hbefore, hq⟩ | ⟨between, hp, hq⟩
  · exact Or.inr ⟨rest, hbefore, hq⟩
  · cases between with
    | nil =>
        rw [List.append_nil] at hp
        exact Or.inr ⟨[], by rw [hp, List.append_nil], hq.symm⟩
    | cons y rest =>
        obtain ⟨rfl, hafter⟩ := List.cons.inj hq
        exact Or.inl ⟨rest, hp, hafter⟩

theorem withPast_cons (a : α) (xs : List α) :
    withPast (a :: xs) = ([], a) :: (withPast xs).map fun (past, x) => (a :: past, x) := by
  simp [withPast, List.zip_map_left]

/-- A sweep carries what its visits make of the value, and joins what each gives for the value that
those before it have made. -/
theorem sweep_eq (next : σ → α → σ) (give : σ → α → List β) (xs : List α) :
    ∀ s : σ, sweep (fun s a => (next s a, give s a)) s xs =
      (xs.foldl next s, (withPast xs).flatMap fun (past, a) => give (past.foldl next s) a) := by
  induction xs with
  | nil =>
      intro s
      rfl
  | cons a rest ih =>
      intro s
      simp only [sweep, ih, withPast_cons, List.foldl_cons, List.flatMap_cons, List.flatMap_map,
        List.foldl_nil]

theorem sweep_append (visit : σ → α → σ × List β) (xs ys : List α) :
    ∀ s : σ, sweep visit s (xs ++ ys) =
      ((sweep visit (sweep visit s xs).1 ys).1,
        (sweep visit s xs).2 ++ (sweep visit (sweep visit s xs).1 ys).2) := by
  induction xs with
  | nil =>
      intro s
      rfl
  | cons a rest ih =>
      intro s
      simp [sweep, ih, List.append_assoc]

/-- A sweep of sweeps is one sweep over all items. -/
theorem sweep_flatMap (visit : σ → α → σ × List β) (items : γ → List α) (xs : List γ) :
    ∀ s : σ, sweep (fun s x => sweep visit s (items x)) s xs =
      sweep visit s (xs.flatMap items) := by
  induction xs with
  | nil =>
      intro s
      rfl
  | cons x rest ih =>
      intro s
      simp [sweep, ih, sweep_append]

/-- A sweep passes over items that change and give nothing. -/
theorem sweep_filterMap {visit : σ → α → σ × List β} {fire : σ → γ → σ × List β}
    {pick : α → Option γ}
    (h : ∀ s a, visit s a = (pick a).elim (s, []) (fire s)) (xs : List α) :
    ∀ s : σ, sweep visit s xs = sweep fire s (xs.filterMap pick) := by
  induction xs with
  | nil =>
      intro s
      rfl
  | cons a rest ih =>
      intro s
      cases hpick : pick a with
      | none => simp [sweep, h, hpick, ih]
      | some c => simp [sweep, h, hpick, ih]

theorem sweep_congr {visit other : σ → α → σ × List β} {xs : List α}
    (h : ∀ a ∈ xs, ∀ s, visit s a = other s a) : ∀ s : σ, sweep visit s xs = sweep other s xs := by
  induction xs with
  | nil =>
      intro s
      rfl
  | cons a rest ih =>
      intro s
      simp only [sweep, h a List.mem_cons_self s,
        ih (fun x hx => h x (List.mem_cons_of_mem a hx))]

/-- Whatever a visit of an item gives for some carried value is among what the sweep gives. -/
theorem subset_sweep (visit : σ → α → σ × List β) {a : α} {xs : List α} (ha : a ∈ xs) :
    ∀ s : σ, ∃ here : σ, (visit here a).2 ⊆ (sweep visit s xs).2 := by
  induction xs with
  | nil => cases ha
  | cons x rest ih =>
      intro s
      rcases List.mem_cons.mp ha with rfl | hrest
      · exact ⟨s, by simp [sweep]⟩
      · obtain ⟨here, hsub⟩ := ih hrest (visit s x).1
        exact ⟨here, fun b hb => by simp [sweep, hsub hb]⟩

end Sweep

/-! ## Settings in effect -/

theorem assign_append (xs ys : Variables) (vs : Variables) :
    assign (xs ++ ys) vs = assign ys (assign xs vs) := by
  simp [assign, List.foldl_append]

theorem setAll_eq (ms : Members) (vs : Variables) :
    Variables.setAll ms vs = assign (variablesOf ms) vs := by
  simp [Variables.setAll, assign, variablesOf, List.foldl_map]

theorem lastGiven_cons (s : Option String) (rest : List (Option String)) :
    lastGiven (s :: rest) = (lastGiven rest <|> Carry.given? s) := by
  unfold lastGiven Carry.given?
  rw [List.filterMap_cons]
  cases s.filter (!·.isEmpty) with
  | none => simp
  | some t =>
      cases h : (rest.filterMap fun s => s.filter (!·.isEmpty)).getLast? with
      | none => simp [List.getLast?_cons, h]
      | some u => simp [List.getLast?_cons, h]

/-- What is in effect after fired rules, told without the steps between. -/
theorem foldl_enter (fired : List Firing) :
    ∀ c : Carry, fired.foldl (fun c f => c.enter f.visit f.rule) c =
      { bindings := assign (fired.flatMap fun f =>
          (f.visit.level.variable, .handle f.visit.node) :: variablesOf f.rule.context) c.bindings
        directory := (lastGiven (fired.map (·.rule.path))).getD c.directory
        source := lastGiven (fired.map (·.rule.source)) <|> c.source } := by
  induction fired with
  | nil =>
      intro c
      rfl
  | cons f rest ih =>
      intro c
      rw [List.foldl_cons, ih]
      simp only [Carry.enter, List.map_cons, lastGiven_cons, setAll_eq, List.flatMap_cons,
        assign_append, Carry.mk.injEq]
      refine ⟨rfl, ?_, ?_⟩
      · cases lastGiven (rest.map (·.rule.path)) <;> rfl
      · cases lastGiven (rest.map (·.rule.source)) <;> rfl

/-! ## Rules -/

/-- The writes among steps. -/
def writesOf (p : Plan) : List Write := p.filterMap Step.write?

theorem writesOf_append (p q : Plan) : writesOf (p ++ q) = writesOf p ++ writesOf q :=
  List.filterMap_append

/-- What a fired rule makes of the settings, and the steps that it gives. -/
def Carry.fire (scope : Scope) (c : Carry) (f : Firing) : Carry × Plan :=
  (c.enter f.visit f.rule,
    (c.enter f.visit f.rule).writes scope false f.rule.documents
      ++ (c.enter f.visit f.rule).writes scope true f.rule.preserve)

/-- A node where no rule fires changes nothing and gives nothing. -/
theorem visit_eq (scope : Scope) (d : RuleDocument) (c : Carry) (v : Visit) :
    c.visit scope d v = (scope.firing? d v).elim (c, []) (c.fire scope) := by
  unfold Carry.visit Scope.firing?
  cases ruleAt d v.level with
  | none => rfl
  | some r =>
      cases hr : r.condition.holds scope.features <;> simp [hr, Carry.fire, Option.filter]

theorem writesOf_writes (scope : Scope) (c : Carry) (preserve : Bool) (targets : Targets) :
    writesOf (c.writes scope preserve targets) =
      (wanted targets).map fun target =>
        { bindings := c.bindings, directory := c.directory, name := target.1,
          template := templateName c.source target.2, preserve, force := scope.force } := by
  have hwanted : (targets.filter fun (name, template) => !name.isEmpty && !template.isEmpty) =
      wanted targets := by
    unfold wanted
    congr 1
    funext target
    rw [Bool.eq_iff_iff]
    simp
  unfold Carry.writes writesOf
  rw [hwanted, List.filterMap_map]
  exact congrFun List.filterMap_eq_map' (wanted targets)

/-! ## Documents -/

theorem visits_eq (scope : Scope) :
    scope.visits = systemVisit :: scope.chosen.flatMap fun m => moduleVisits m.1 m.2 := by
  simp [Scope.visits, Scope.chosen, systemVisit, moduleVisits]

/-- What is in effect when a document starts. -/
def Carry.atStart (c : Carry) (d : RuleDocument) : Carry :=
  ⟨c.bindings.setAll d.context, d.path.getD "", d.source⟩

/-- Applies a document that applies to all nodes of a run, whatever the modules import. -/
def Carry.tourDocument (scope : Scope) (c : Carry) (d : RuleDocument) : Carry × Plan :=
  let (last, steps) := sweep (Carry.visit scope d) (c.atStart d) scope.visits
  (last, d.extraFilters.map .load ++ steps)

/-- The plan of rule documents that visits all nodes, whatever the modules import. -/
def documentsTour (scope : Scope) (documents : List RuleDocument) : Plan :=
  let start : Carry := ⟨scope.bindings.set Level.system.variable (.handle .system), "", none⟩
  (sweep (Carry.tourDocument scope) start (scope.applying documents)).2

/-- On its tour a document fires its rules one after the other. -/
theorem tourDocument_eq (scope : Scope) (c : Carry) (d : RuleDocument) :
    c.tourDocument scope d =
      ((sweep (Carry.fire scope) (c.atStart d) (scope.firings d)).1,
        d.extraFilters.map .load
          ++ (sweep (Carry.fire scope) (c.atStart d) (scope.firings d)).2) := by
  have hfirings := sweep_filterMap (visit_eq scope d) scope.visits (c.atStart d)
  unfold Carry.tourDocument
  rw [hfirings]
  rfl

/-- A document visits the system, and then the modules one after the other. -/
theorem visitDocument_eq {scope : Scope} {d : RuleDocument}
    (hd : d.condition.holds scope.features = true) (c : Carry) :
    c.visitDocument scope d =
      let (first, steps) := (c.atStart d).visit scope d systemVisit
      let (last, modules) := sweep (Carry.visitModule scope d) first scope.chosen
      (last, d.extraFilters.map .load ++ steps ++ modules) := by
  unfold Carry.visitDocument
  rw [if_pos hd]
  rfl

/-- On its tour a document visits the system, and then the nodes of each module. -/
theorem tourDocument_eq_modules (scope : Scope) (c : Carry) (d : RuleDocument) :
    c.tourDocument scope d =
      let (first, steps) := (c.atStart d).visit scope d systemVisit
      let (last, modules) :=
        sweep (fun c m => sweep (Carry.visit scope d) c (moduleVisits m.1 m.2)) first scope.chosen
      (last, d.extraFilters.map .load ++ steps ++ modules) := by
  unfold Carry.tourDocument
  rw [visits_eq]
  simp only [sweep, sweep_flatMap, List.append_assoc]

/-- A document that does not apply is passed over. -/
theorem sweep_applying (scope : Scope) (documents : List RuleDocument) (start : Carry) :
    sweep (Carry.visitDocument scope) start documents =
      sweep (Carry.visitDocument scope) start (scope.applying documents) := by
  have hskip : ∀ (c : Carry) (d : RuleDocument), c.visitDocument scope d =
      (Option.guard (fun d : RuleDocument => d.condition.holds scope.features) d).elim (c, [])
        (c.visitDocument scope) := by
    intro c d
    cases hholds : d.condition.holds scope.features with
    | true => simp [Option.guard, hholds]
    | false => simp [Carry.visitDocument, Option.guard, hholds]
  have happlying : documents.filterMap
      (Option.guard fun d : RuleDocument => d.condition.holds scope.features) =
        scope.applying documents :=
    congrFun List.filterMap_eq_filter documents
  rw [sweep_filterMap hskip, happlying]

/-- A document adds its variables and those of its fired rules to the ones before. -/
theorem bindings_after_document (scope : Scope) (d : RuleDocument) (c : Carry) :
    (sweep (Carry.fire scope) (c.atStart d) (scope.firings d)).1.bindings =
      assign (settings d (scope.firings d)) c.bindings := by
  have hsweep := sweep_eq (fun (c : Carry) (f : Firing) => c.enter f.visit f.rule)
    (fun c f => (c.fire scope f).2) (scope.firings d) (c.atStart d)
  change (sweep (fun c f => (c.enter f.visit f.rule, (c.fire scope f).2)) (c.atStart d)
    (scope.firings d)).1.bindings = _
  rw [hsweep, foldl_enter, settings, assign_append, Carry.atStart, setAll_eq]

/-- The writes of a document that starts with the variables of earlier ones. -/
theorem writes_of_document (scope : Scope) (earlier : List RuleDocument) (d : RuleDocument)
    {c : Carry}
    (hc : c.bindings = assign (("system", .handle .system) ::
      earlier.flatMap fun e => settings e (scope.firings e)) scope.bindings) :
    writesOf (sweep (Carry.fire scope) (c.atStart d) (scope.firings d)).2 =
      (withPast (scope.firings d)).flatMap fun (before, f) =>
        (wanted f.rule.documents).map (scope.declaredWrite earlier d (before ++ [f]) false)
          ++ (wanted f.rule.preserve).map
            (scope.declaredWrite earlier d (before ++ [f]) true) := by
  have hsweep := sweep_eq (fun (c : Carry) (f : Firing) => c.enter f.visit f.rule)
    (fun c f => (c.fire scope f).2) (scope.firings d) (c.atStart d)
  change writesOf (sweep (fun c f => (c.enter f.visit f.rule, (c.fire scope f).2)) (c.atStart d)
    (scope.firings d)).2 = _
  rw [hsweep]
  unfold writesOf
  rw [List.filterMap_flatMap]
  congr 1
  funext ⟨before, f⟩
  -- the settings with which `f` writes are those after all fired rules up to `f`
  have hfired :
      (before.foldl (fun c f => c.enter f.visit f.rule) (c.atStart d)).enter f.visit f.rule =
        (before ++ [f]).foldl (fun c f => c.enter f.visit f.rule) (c.atStart d) := by
    rw [List.foldl_append]
    rfl
  rw [foldl_enter (before ++ [f])] at hfired
  have hbindings : assign (("system", .handle .system) ::
        earlier.flatMap (fun e => settings e (scope.firings e)) ++ settings d (before ++ [f]))
        scope.bindings =
      assign ((before ++ [f]).flatMap fun f =>
        (f.visit.level.variable, .handle f.visit.node) :: variablesOf f.rule.context)
        (c.atStart d).bindings := by
    rw [assign_append, ← hc, settings, assign_append, Carry.atStart, setAll_eq]
  change writesOf _ = _
  simp only [Carry.fire, hfired, writesOf_append, writesOf_writes]
  unfold Scope.declaredWrite
  rw [hbindings]
  rfl

/-- The variables after documents are those that the documents set, in order. -/
theorem bindings_after_documents (scope : Scope) (earlier : List RuleDocument) :
    ∀ c : Carry, (earlier.foldl (fun c d =>
        (sweep (Carry.fire scope) (c.atStart d) (scope.firings d)).1) c).bindings =
      assign (earlier.flatMap fun e => settings e (scope.firings e)) c.bindings := by
  induction earlier with
  | nil =>
      intro c
      rfl
  | cons d rest ih =>
      intro c
      rw [List.foldl_cons, ih, bindings_after_document, List.flatMap_cons, assign_append]

/-- The writes of a tour, in their declared order. -/
theorem writes_of_tour (scope : Scope) (documents : List RuleDocument) :
    writesOf (documentsTour scope documents) = scope.declaredWrites documents := by
  let start : Carry := ⟨scope.bindings.set Level.system.variable (.handle .system), "", none⟩
  let next (c : Carry) (d : RuleDocument) : Carry :=
    (sweep (Carry.fire scope) (c.atStart d) (scope.firings d)).1
  let give (c : Carry) (d : RuleDocument) : Plan :=
    d.extraFilters.map .load ++ (sweep (Carry.fire scope) (c.atStart d) (scope.firings d)).2
  have htour : Carry.tourDocument scope = fun c d => (next c d, give c d) := by
    funext c d
    exact tourDocument_eq scope c d
  -- over the documents that apply, the sweep gives what its steps give after all earlier ones
  unfold documentsTour Scope.declaredWrites
  dsimp only
  rw [htour, sweep_eq]
  unfold writesOf
  rw [List.filterMap_flatMap]
  congr 1
  funext ⟨earlier, d⟩
  change writesOf (give _ d) = _
  have hloads : writesOf (d.extraFilters.map .load) = [] := by
    simp [writesOf, Step.write?]
  rw [writesOf_append, hloads, List.nil_append]
  exact writes_of_document scope earlier d (bindings_after_documents scope earlier start)

/-- The writes of rule documents when no module lacks an import. -/
theorem writes_of_documents (scope : Scope) (documents : List RuleDocument)
    (himports : ∀ d ∈ scope.applying documents, ∀ m ∈ scope.chosen,
      scope.importFailure? m.1 = none) :
    writesOf (documentsPlan scope documents) = scope.declaredWrites documents := by
  have htour : ∀ d ∈ scope.applying documents, ∀ c : Carry,
      c.visitDocument scope d = c.tourDocument scope d := by
    intro d hd c
    have hmodules : ∀ s : Carry, sweep (Carry.visitModule scope d) s scope.chosen =
        sweep (fun c m => sweep (Carry.visit scope d) c (moduleVisits m.1 m.2)) s
          scope.chosen := by
      -- no chosen module lacks an import, so that visiting it is visiting its nodes
      refine sweep_congr fun m hm s => ?_
      unfold Carry.visitModule
      rw [himports d hd m hm]
    rw [visitDocument_eq (List.mem_filter.mp hd).2, tourDocument_eq_modules]
    dsimp only
    rw [hmodules]
  unfold documentsPlan
  dsimp only
  rw [sweep_applying, sweep_congr htour]
  exact writes_of_tour scope documents

/-! ## Runs -/

/-- If a plan has no stop, then no module lacks an import once a document applies. -/
theorem importFailure?_of_not_stop {scope : Scope} {documents : List RuleDocument}
    (h : ∀ f, Step.stop f ∉ plan scope (.modern documents)) :
    ∀ d ∈ scope.applying documents, ∀ m ∈ scope.chosen, scope.importFailure? m.1 = none := by
  intro d hd m hm
  obtain ⟨hmem, hholds⟩ := List.mem_filter.mp hd
  cases hfailure : scope.importFailure? m.1 with
  | none => rfl
  | some f =>
      let start : Carry := ⟨scope.bindings.set Level.system.variable (.handle .system), "", none⟩
      obtain ⟨c, hdocument⟩ := subset_sweep (Carry.visitDocument scope) hmem start
      obtain ⟨e, hmodule⟩ := subset_sweep (Carry.visitModule scope d) hm
        ((c.atStart d).visit scope d systemVisit).1
      have hstop : Step.stop f ∈ (e.visitModule scope d m).2 := by
        simp [Carry.visitModule, hfailure]
      have hgiven : Step.stop f ∈ (c.visitDocument scope d).2 := by
        unfold Carry.visitDocument
        rw [if_pos hholds]
        exact List.mem_append_right _ (hmodule hstop)
      exact absurd (hdocument hgiven) (h f)

/-- In a run that succeeds no module lacks an import, once a document applies. -/
theorem importFailure?_of_perform {scope : Scope} {documents : List RuleDocument}
    {setting : Setting} {b : Bench}
    (h : (b.perform setting (plan scope (.modern documents))).1 = none) :
    ∀ d ∈ scope.applying documents, ∀ m ∈ scope.chosen, scope.importFailure? m.1 = none :=
  importFailure?_of_not_stop fun _ => Bench.not_stop_of_perform h

/-- A run of rule documents that succeeds makes their writes in the declared order, and a node
where no rule fires changes nothing and gives nothing. -/
theorem writes_in_declared_order (scope : Scope) (documents : List RuleDocument)
    (setting : Setting) (b : Bench)
    (h : (b.perform setting (plan scope (.modern documents))).1 = none) :
    (b.deeds setting (plan scope (.modern documents))).map (·.write) =
        scope.declaredWrites documents ∧
      ∀ d ∈ documents, ∀ v, scope.firing? d v = none →
        ∀ c : Carry, c.visit scope d v = (c, []) := by
  constructor
  · rw [Bench.writes_of_perform h]
    exact writes_of_documents scope documents (importFailure?_of_perform h)
  · intro d _ v hv c
    rw [visit_eq, hv]
    rfl

/-- A document whose module rule leaves its directory to the interface rule. -/
def Sample.sticky : RuleDocument where
  path := some "base"
  system := some { documents := [("a.txt", "text.tpl")] }
  module := some { path := some "sub", preserve := [("b.txt", "text.tpl")] }
  interface := some { documents := [("c.txt", "text.tpl"), ("", "text.tpl")] }

theorem Sample.sticky_succeeds : (Sample.bench.perform Sample.setting
    (plan Sample.scope (.modern [Sample.sticky]))).1 = none :=
  Option.isNone_iff_eq_none.mp (by decide +kernel)

theorem writes_in_declared_order_sticky :
    (Sample.bench.perform Sample.setting
        (plan Sample.scope (.modern [Sample.sticky]))).1 = none ∧
      (Sample.bench.deeds Sample.setting
          (plan Sample.scope (.modern [Sample.sticky]))).map (·.write) =
        Sample.scope.declaredWrites [Sample.sticky] :=
  ⟨Sample.sticky_succeeds, (writes_in_declared_order Sample.scope [Sample.sticky] Sample.setting
    Sample.bench Sample.sticky_succeeds).1⟩

example : (Sample.scope.declaredWrites [Sample.sticky]).map
      (fun w => (w.directory, w.name, w.preserve)) =
    [("base", "a.txt", false), ("sub", "b.txt", true), ("sub", "c.txt", false)] := by
  decide +kernel

end Stencil.Generate
