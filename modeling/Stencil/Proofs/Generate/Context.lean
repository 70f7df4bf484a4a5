import Stencil.Proofs.Generate.Tour

/-!
# The module that a template sees

The variables of a run accumulate.  A rule for modules sets the variable of the
module, and later rules see it, those of other documents too.  A document with a rule
for modules that fires shows to each interface, struct and enum the module that
declares it.  Any other document shows what the last such document before it has left
behind, which is the last of the requested modules.
-/

namespace Stencil.Generate

open Rules Template

/-! ## What is rendered -/

namespace Bench

/-- The writes that a run begins, whether or not they succeed: their patterns and templates are
rendered with their variables. -/
def begun (setting : Setting) : Plan → Bench → List Write
  | [], _ => []
  | s :: rest, b =>
      s.write?.toList ++
        match b.step setting s with
        | (none, after) => begun setting rest after
        | (some _, _) => []

variable {setting : Setting}

/-- A run begins the writes of its plan in order, up to some point. -/
theorem begun_prefix_writes (p : Plan) : ∀ b : Bench, b.begun setting p <+: writesOf p := by
  induction p with
  | nil =>
      intro b
      exact List.nil_prefix
  | cons s rest ih =>
      intro b
      have hcons : writesOf (s :: rest) = s.write?.toList ++ writesOf rest := by
        unfold writesOf
        cases s <;> rfl
      rw [hcons, Bench.begun]
      refine (List.prefix_append_right_inj _).mpr ?_
      rcases b.step setting s with ⟨f?, after⟩
      cases f? with
      | none => exact ih after
      | some f => exact List.nil_prefix

/-- A run begins nothing after a stop. -/
theorem begun_append_stop (p skipped : Plan) (f : Report.Failure) :
    ∀ b : Bench, b.begun setting (p ++ .stop f :: skipped) = b.begun setting p := by
  induction p with
  | nil =>
      intro b
      rfl
  | cons s rest ih =>
      intro b
      rw [List.cons_append, Bench.begun, Bench.begun]
      congr 1
      rcases b.step setting s with ⟨f?, after⟩
      cases f? with
      | none => exact ih after
      | some f => rfl

/-- Steps that follow a course begin no other writes than it has. -/
theorem begun_prefix_of_follows {σ : Type} {p q : σ × Plan} (h : Follows p q) (b : Bench) :
    b.begun setting p.2 <+: writesOf q.2 := by
  rcases h with rfl | ⟨begun, f, skipped, rest, hp, hq⟩
  · exact begun_prefix_writes p.2 b
  · rw [hp, hq, begun_append_stop, writesOf_append]
    exact (begun_prefix_writes begun b).trans (List.prefix_append _ _)

end Bench

/-- A write with the node that it is for, its document, and those that were applied before. -/
structure Rendering where
  earlier : List RuleDocument
  document : RuleDocument
  visit : Visit
  write : Write

namespace Scope

/-- What rule documents have rendered, in their declared order. -/
def renderings (scope : Scope) (documents : List RuleDocument) : List Rendering :=
  (withPast (scope.applying documents)).flatMap fun (earlier, d) =>
    (withPast (scope.firings d)).flatMap fun (before, f) =>
      let write := scope.declaredWrite earlier d (before ++ [f])
      ((wanted f.rule.documents).map (write false) ++ (wanted f.rule.preserve).map (write true)).map
        (⟨earlier, d, f.visit, ·⟩)

/-- Whether a document has a rule for a level whose condition holds. -/
def fires (scope : Scope) (d : RuleDocument) (level : Level) : Bool :=
  (ruleAt d level).any fun r => r.condition.holds scope.features

theorem writes_of_renderings (scope : Scope) (documents : List RuleDocument) :
    (scope.renderings documents).map (·.write) = scope.declaredWrites documents := by
  simp [renderings, declaredWrites, List.map_flatMap, Function.comp_def]

end Scope

/-- Every run of rule documents, also one that fails, renders in their declared order. -/
theorem begun_prefix_renderings (scope : Scope) (documents : List RuleDocument)
    (setting : Setting) (b : Bench) :
    b.begun setting (plan scope (.modern documents)) <+:
      (scope.renderings documents).map (·.write) := by
  rw [Scope.writes_of_renderings, ← writes_of_tour]
  exact Bench.begun_prefix_of_follows (follows_documents scope documents _) b

/-! ## The last setting of a variable -/

/-- The last value that settings give a variable. -/
def lastSet (name : String) (settings : Variables) : Option Value :=
  settings.reverse.lookup name

theorem lookup_cons_eq (name other : String) (v : Value) (rest : Variables) :
    List.lookup name ((other, v) :: rest) =
      if name = other then some v else rest.lookup name := by
  rw [List.lookup_cons]
  by_cases h : name = other
  · simp [h]
  · rw [beq_false_of_ne h, if_neg h]

theorem lookup_set (name other : String) (v : Value) (vs : Variables) :
    (Variables.set other v vs).lookup name = if name = other then some v else vs.lookup name := by
  unfold Variables.set
  induction vs with
  | nil => exact lookup_cons_eq name other v []
  | cons p rest ih =>
      obtain ⟨k, w⟩ := p
      rw [Run.setNamed, lookup_cons_eq]
      by_cases hk : k = other
      · rw [if_pos hk, lookup_cons_eq]
        subst hk
        by_cases hname : name = k <;> simp [hname]
      · rw [if_neg hk, lookup_cons_eq, ih]
        by_cases hname : name = k
        · subst hname
          simp [hk]
        · simp [hname]

theorem lastSet_append (name : String) (xs ys : Variables) :
    lastSet name (xs ++ ys) = (lastSet name ys).or (lastSet name xs) := by
  unfold lastSet
  rw [List.reverse_append, List.lookup_append]

theorem lastSet_cons (name other : String) (v : Value) (rest : Variables) :
    lastSet name ((other, v) :: rest) =
      (lastSet name rest).or (if name = other then some v else none) := by
  have hone : lastSet name [(other, v)] = if name = other then some v else none :=
    lookup_cons_eq name other v []
  rw [← List.singleton_append, lastSet_append, hone]

/-- After settings a variable has the last value that they give it, or else the one from before. -/
theorem lookup_assign (name : String) (settings : Variables) :
    ∀ vs : Variables, (assign settings vs).lookup name =
      (lastSet name settings).or (vs.lookup name) := by
  induction settings with
  | nil =>
      intro vs
      rfl
  | cons p rest ih =>
      intro vs
      obtain ⟨other, v⟩ := p
      have hstep : assign ((other, v) :: rest) vs = assign rest (vs.set other v) := rfl
      rw [hstep, ih, lookup_set, lastSet_cons]
      by_cases hname : name = other <;> simp [hname]

theorem lastSet_variablesOf {name : String} {ms : Members} (h : Members.get? name ms = none) :
    lastSet name (variablesOf ms) = none := by
  induction ms with
  | nil => rfl
  | cons p rest ih =>
      obtain ⟨key, v⟩ := p
      rw [Members.get?] at h
      have hother : name ≠ key := by
        rintro rfl
        simp at h
      have hrest : Members.get? name rest = none := by
        rwa [if_neg (Ne.symm hother)] at h
      have hcons : variablesOf ((key, v) :: rest) = (key, .ofJson v) :: variablesOf rest := rfl
      rw [hcons, lastSet_cons, ih hrest, if_neg hother]
      rfl

/-! ## The last module of a tour -/

/-- The last module among some visits. -/
def lastModule (vs : List Visit) : Option Handle :=
  ((vs.filter (·.level = .module)).getLast?).map (·.node)

theorem lastModule_append (vs others : List Visit) :
    lastModule (vs ++ others) = (lastModule others).or (lastModule vs) := by
  unfold lastModule
  rw [List.filter_append, List.getLast?_append, Option.map_or]

theorem lastModule_cons (v : Visit) (rest : List Visit) :
    lastModule (v :: rest) =
      (lastModule rest).or (if v.level = .module then some v.node else none) := by
  rw [← List.singleton_append, lastModule_append]
  by_cases hv : v.level = .module <;> simp [lastModule, hv]

theorem lastModule_eq_none {vs : List Visit} (h : ∀ v ∈ vs, v.level ≠ .module) :
    lastModule vs = none := by
  have hnone : vs.filter (·.level = .module) = [] := by
    simpa using h
  rw [lastModule, hnone]
  rfl

/-- The nodes of a module begin with the module itself, and it is the only module among them. -/
theorem moduleVisits_eq_cons (m : Model.Module) (i : Nat) :
    ∃ rest, moduleVisits m i = ⟨.module, .node (.module i)⟩ :: rest ∧
      ∀ v ∈ rest, v.level ≠ .module := by
  refine ⟨_, rfl, ?_⟩
  intro v hv
  simp only [List.append_eq, List.mem_append, List.mem_map] at hv
  obtain (⟨k, -, rfl⟩ | ⟨k, -, rfl⟩) | ⟨k, -, rfl⟩ := hv <;> simp

theorem lastModule_moduleVisits (m : Model.Module) (i : Nat) :
    lastModule (moduleVisits m i) = some (.node (.module i)) := by
  obtain ⟨rest, heq, hrest⟩ := moduleVisits_eq_cons m i
  rw [heq, lastModule_cons, lastModule_eq_none hrest]
  rfl

/-- Before every other node of a module its last module is the one that it belongs to. -/
theorem lastModule_of_moduleVisits {m : Model.Module} {i : Nat} {past after : List Visit}
    {v : Visit} (h : moduleVisits m i = past ++ v :: after) (hv : v.level ≠ .module) :
    lastModule past = some (.node (.module i)) := by
  obtain ⟨rest, heq, hrest⟩ := moduleVisits_eq_cons m i
  rw [heq] at h
  cases past with
  | nil =>
      obtain ⟨rfl, -⟩ := List.cons.inj h
      exact absurd rfl hv
  | cons first past =>
      obtain ⟨rfl, rfl⟩ := List.cons.inj h
      have hpast : ∀ u ∈ past, u.level ≠ .module :=
        fun u hu => hrest u (List.mem_append_left _ hu)
      rw [lastModule_cons, lastModule_eq_none hpast]
      rfl

/-- Before every node of a tour below the modules the last module is the one that declares it. -/
theorem lastModule_of_flatMap {ms : List (Model.Module × Nat)} {v : Visit} {a : Model.Address}
    (hv : v.level ≠ .module) (hnode : v.node = .node a) :
    ∀ {past after : List Visit},
      (ms.flatMap fun m => moduleVisits m.1 m.2) = past ++ v :: after →
        lastModule past = some (.node (.module a.moduleIndex)) := by
  induction ms with
  | nil =>
      intro past after h
      simp at h
  | cons m rest ih =>
      intro past after h
      rw [List.flatMap_cons] at h
      rcases split_of_append h with ⟨here, hmodule, -⟩ | ⟨later, hpast, hrest⟩
      · have hmem : v ∈ moduleVisits m.1 m.2 := by
          rw [hmodule]
          exact List.mem_append_right past List.mem_cons_self
        obtain ⟨level, address, n, -, rfl, hindex, -⟩ := mem_moduleVisits.mp hmem
        cases hnode
        rw [hindex]
        exact lastModule_of_moduleVisits hmodule hv
      · -- the node belongs to a later module
        rw [hpast, lastModule_append, ih hrest]
        rfl

theorem lastModule_of_visits {scope : Scope} {v : Visit} {a : Model.Address}
    (hv : v.level ≠ .module) (hnode : v.node = .node a) {past after : List Visit}
    (h : scope.visits = past ++ v :: after) :
    lastModule past = some (.node (.module a.moduleIndex)) := by
  rw [visits_eq] at h
  cases past with
  | nil =>
      obtain ⟨rfl, -⟩ := List.cons.inj h
      cases hnode
  | cons first past =>
      obtain ⟨rfl, hrest⟩ := List.cons.inj h
      rw [lastModule_cons, lastModule_of_flatMap hv hnode hrest]
      rfl

/-- The last module of a whole tour is the last one that is requested. -/
theorem lastModule_visits (scope : Scope) :
    lastModule scope.visits = scope.chosen.getLast?.map fun m => .node (.module m.2) := by
  have hmodules : ∀ ms : List (Model.Module × Nat),
      lastModule (ms.flatMap fun m => moduleVisits m.1 m.2) =
        ms.getLast?.map fun m => .node (.module m.2) := by
    intro ms
    induction ms with
    | nil => rfl
    | cons m rest ih =>
        rw [List.flatMap_cons, lastModule_append, ih, lastModule_moduleVisits, List.getLast?_cons]
        cases rest.getLast? <;> rfl
  rw [visits_eq, lastModule_cons, hmodules]
  cases scope.chosen.getLast? <;> rfl

/-! ## Fired rules -/

/-- A document that sets no variable of the module's name, neither itself nor in its rules. -/
def SetsNoModule (d : RuleDocument) : Prop :=
  Members.get? "module" d.context = none ∧
    ∀ level r, ruleAt d level = some r → Members.get? "module" r.context = none

theorem firing?_eq_some {scope : Scope} {d : RuleDocument} {v : Visit} {f : Firing}
    (h : scope.firing? d v = some f) :
    f.visit = v ∧ ruleAt d v.level = some f.rule ∧ scope.fires d v.level = true := by
  obtain ⟨r, hr, rfl⟩ := Option.map_eq_some_iff.mp h
  obtain ⟨hrule, hholds⟩ := Option.filter_eq_some_iff.mp hr
  refine ⟨rfl, hrule, ?_⟩
  rw [Scope.fires, hrule]
  exact hholds

theorem firing?_eq_none {scope : Scope} {d : RuleDocument} {v : Visit}
    (h : scope.firing? d v = none) : scope.fires d v.level = false := by
  unfold Scope.fires
  cases hrule : ruleAt d v.level with
  | none => rfl
  | some r =>
      simp only [Scope.firing?, hrule, Option.map_eq_none_iff, Option.filter_eq_none_iff] at h
      simpa using h

theorem ruleAt_of_fired {scope : Scope} {d : RuleDocument} {vs : List Visit} {f : Firing}
    (hf : f ∈ vs.filterMap (scope.firing? d)) : ruleAt d f.visit.level = some f.rule := by
  obtain ⟨v, -, hv⟩ := List.mem_filterMap.mp hf
  obtain ⟨rfl, hrule, -⟩ := firing?_eq_some hv
  exact hrule

/-- The rules of a document fire at the nodes of those levels where it fires. -/
theorem visits_of_firings (scope : Scope) (d : RuleDocument) (vs : List Visit) :
    (vs.filterMap (scope.firing? d)).map (·.visit) = vs.filter fun v => scope.fires d v.level := by
  induction vs with
  | nil => rfl
  | cons v rest ih =>
      cases hf : scope.firing? d v with
      | none =>
          have hfires := firing?_eq_none hf
          simp [hf, hfires, ih]
      | some f =>
          obtain ⟨hvisit, -, hfires⟩ := firing?_eq_some hf
          simp [hf, hfires, hvisit, ih]

/-- The last module at which a document fires. -/
theorem lastModule_filter (scope : Scope) (d : RuleDocument) (vs : List Visit) :
    lastModule (vs.filter fun v => scope.fires d v.level) =
      if scope.fires d .module then lastModule vs else none := by
  induction vs with
  | nil => simp [lastModule]
  | cons v rest ih =>
      rw [List.filter_cons, lastModule_cons]
      by_cases hv : v.level = .module
      · cases hfires : scope.fires d .module <;> simp [hv, hfires, lastModule_cons, ih]
      · cases hlevel : scope.fires d v.level <;> simp [hv, lastModule_cons, ih]

/-- The variable of the module that a document with fired rules leaves behind. -/
theorem lastSet_settings {d : RuleDocument} (hd : SetsNoModule d) {fired : List Firing}
    (hfired : ∀ f ∈ fired, ruleAt d f.visit.level = some f.rule) :
    lastSet "module" (settings d fired) =
      (lastModule (fired.map (·.visit))).map .handle := by
  have hrules : lastSet "module" (fired.flatMap fun f =>
      (f.visit.level.variable, .handle f.visit.node) :: variablesOf f.rule.context) =
        (lastModule (fired.map (·.visit))).map .handle := by
    induction fired with
    | nil => rfl
    | cons f rest ih =>
        obtain ⟨hf, hrest⟩ := List.forall_mem_cons.mp hfired
        have hcontext := lastSet_variablesOf (hd.2 _ _ hf)
        have hvariable : "module" = f.visit.level.variable ↔ f.visit.level = .module := by
          cases f.visit.level <;> simp [Level.variable]
        rw [List.flatMap_cons, lastSet_append, ih hrest, lastSet_cons, hcontext, List.map_cons,
          lastModule_cons, Option.map_or]
        simp only [hvariable]
        by_cases hlevel : f.visit.level = .module <;> simp [hlevel]
  rw [settings, lastSet_append, hrules, lastSet_variablesOf hd.1, Option.or_none]

theorem exists_after_of_withPast {α : Type} {a : α} {xs : List α} :
    ∀ {past : List α}, (past, a) ∈ withPast xs → ∃ after, xs = past ++ a :: after := by
  induction xs with
  | nil =>
      intro past h
      cases h
  | cons x rest ih =>
      intro past h
      rw [withPast_cons] at h
      rcases List.mem_cons.mp h with heq | hrest
      · cases heq
        exact ⟨rest, rfl⟩
      · obtain ⟨⟨before, y⟩, hy, heq⟩ := List.mem_map.mp hrest
        cases heq
        obtain ⟨after, rfl⟩ := ih hy
        exact ⟨after, rfl⟩

/-- The rules that fired before one of a document are those at the nodes before it. -/
theorem exists_past_of_firings {scope : Scope} {d : RuleDocument} {before : List Firing}
    {f : Firing} (h : (before, f) ∈ withPast (scope.firings d)) :
    scope.firing? d f.visit = some f ∧ ∃ past after, scope.visits = past ++ f.visit :: after ∧
      before = past.filterMap (scope.firing? d) := by
  obtain ⟨later, hfirings⟩ := exists_after_of_withPast h
  obtain ⟨past, others, hvisits, hbefore, hothers⟩ := List.filterMap_eq_append_iff.mp hfirings
  obtain ⟨silent, v, after, rfl, hsilent, hv, -⟩ := List.filterMap_eq_cons_iff.mp hothers
  obtain ⟨hvisit, -, -⟩ := firing?_eq_some hv
  subst hvisit
  refine ⟨hv, past ++ silent, after, ?_, ?_⟩
  · rw [hvisits, List.append_assoc]
  · have hnone : silent.filterMap (scope.firing? d) = [] :=
      List.filterMap_eq_nil_iff.mpr hsilent
    rw [List.filterMap_append, hbefore, hnone, List.append_nil]

/-! ## The variable of the module -/

/-- What documents leave behind in the variable of the module. -/
theorem lastSet_earlier {scope : Scope} {earlier : List RuleDocument}
    (h : ∀ e ∈ earlier, SetsNoModule e) :
    lastSet "module" (earlier.flatMap fun e => settings e (scope.firings e)) =
      if earlier.any (scope.fires · .module) then (lastModule scope.visits).map .handle
      else none := by
  induction earlier with
  | nil => rfl
  | cons e rest ih =>
      obtain ⟨he, hrest⟩ := List.forall_mem_cons.mp h
      have hown : lastSet "module" (settings e (scope.firings e)) =
          if scope.fires e .module then (lastModule scope.visits).map .handle else none := by
        unfold Scope.firings
        rw [lastSet_settings he fun f hf => ruleAt_of_fired hf, visits_of_firings,
          lastModule_filter]
        split <;> rfl
      rw [List.flatMap_cons, lastSet_append, ih hrest, hown, List.any_cons]
      cases scope.fires e .module <;> cases rest.any (scope.fires · .module) <;> simp

theorem exists_firing_of_rendering {scope : Scope} {documents : List RuleDocument} {x : Rendering}
    (h : x ∈ scope.renderings documents) :
    (x.earlier, x.document) ∈ withPast (scope.applying documents) ∧
      ∃ before f, (before, f) ∈ withPast (scope.firings x.document) ∧ x.visit = f.visit ∧
        ∃ preserve target, x.write =
          scope.declaredWrite x.earlier x.document (before ++ [f]) preserve target := by
  obtain ⟨⟨earlier, d⟩, hd, hx⟩ := List.mem_flatMap.mp h
  obtain ⟨⟨before, f⟩, hf, hx⟩ := List.mem_flatMap.mp hx
  obtain ⟨w, hw, rfl⟩ := List.mem_map.mp hx
  rcases List.mem_append.mp hw with hw | hw
  · obtain ⟨target, -, rfl⟩ := List.mem_map.mp hw
    exact ⟨hd, before, f, hf, rfl, false, target, rfl⟩
  · obtain ⟨target, -, rfl⟩ := List.mem_map.mp hw
    exact ⟨hd, before, f, hf, rfl, true, target, rfl⟩

/-- The variable of the module as the writes of a fired rule below the modules see it. -/
theorem lookup_module_of_firing {scope : Scope} {earlier : List RuleDocument} {d : RuleDocument}
    (hearlier : ∀ e ∈ earlier, SetsNoModule e) (hd : SetsNoModule d) {before : List Firing}
    {f : Firing} (hf : (before, f) ∈ withPast (scope.firings d)) {a : Model.Address}
    (hlevel : f.visit.level ≠ .module) (hnode : f.visit.node = .node a) (preserve : Bool)
    (target : String × String) :
    (scope.declaredWrite earlier d (before ++ [f]) preserve target).bindings.lookup "module" =
      if scope.fires d .module then some (.handle (.node (.module a.moduleIndex)))
      else if earlier.any (scope.fires · .module) then
        scope.chosen.getLast?.map fun m => .handle (.node (.module m.2))
      else scope.bindings.lookup "module" := by
  obtain ⟨hfiring, past, after, hvisits, rfl⟩ := exists_past_of_firings hf
  have hdeclaring := lastModule_of_visits hlevel hnode hvisits
  have hrules : ∀ g ∈ past.filterMap (scope.firing? d) ++ [f],
      ruleAt d g.visit.level = some g.rule := by
    intro g hg
    rcases List.mem_append.mp hg with hg | hg
    · exact ruleAt_of_fired hg
    · obtain rfl := List.mem_singleton.mp hg
      exact (firing?_eq_some hfiring).2.1
  have hown : lastSet "module" (settings d (past.filterMap (scope.firing? d) ++ [f])) =
      if scope.fires d .module then some (.handle (.node (.module a.moduleIndex))) else none := by
    rw [lastSet_settings hd hrules, List.map_append, lastModule_append, visits_of_firings,
      lastModule_filter, hdeclaring]
    have hone : lastModule [f.visit] = none :=
      lastModule_eq_none fun v hv => by rwa [List.mem_singleton.mp hv]
    rw [List.map_singleton, hone]
    split <;> rfl
  -- some module is requested, as the node belongs to one
  have hchosen : (lastModule scope.visits).isSome := by
    rw [hvisits, lastModule_append, hdeclaring, Option.isSome_or]
    exact Bool.or_true _
  rw [lastModule_visits, Option.isSome_map] at hchosen
  obtain ⟨last, hlast⟩ := Option.isSome_iff_exists.mp hchosen
  -- the settings of the document come last, before them those of earlier ones, then the given ones
  unfold Scope.declaredWrite
  dsimp only
  rw [lookup_assign, lastSet_append, hown, lastSet_cons, lastSet_earlier hearlier,
    lastModule_visits, hlast]
  cases scope.fires d .module with
  | true => rfl
  | false => cases earlier.any (scope.fires · .module) <;> simp

/-- The levels below the modules. -/
def Level.below : List Level := [.interface, .struct, .enum]

theorem ne_module_of_below {level : Level} (h : level ∈ Level.below) : level ≠ .module := by
  rintro rfl
  simp [Level.below] at h

/-- A visit below the modules is at a declaration, whose module is that of its address. -/
theorem exists_node_of_below {scope : Scope} {v : Visit} (hv : v ∈ scope.visits)
    (hbelow : v.level ∈ Level.below) :
    ∃ a n, v.node = .node a ∧ levelOf? a = some v.level ∧ scope.system.node? a = some n ∧
      scope.system.node? (.module a.moduleIndex) = some (.module n.home) := by
  rcases mem_visits.mp hv with rfl | ⟨level, a, n, hlevel, rfl, hn, -⟩
  · simp [Level.below, systemVisit] at hbelow
  · obtain ⟨m, hm, hmn⟩ := Option.bind_eq_some_iff.mp hn
    have hhome : scope.system.node? (.module a.moduleIndex) = some (.module n.home) := by
      rw [home_of_node? hmn]
      exact Option.bind_eq_some_iff.mpr ⟨m, hm, rfl⟩
    exact ⟨a, n, rfl, hlevel, hn, hhome⟩

/-- What every run of rule documents renders for an interface, a struct or an enum sees as its
module the one that declares the node if the document has a rule for modules that fires.
Otherwise it sees the last of the requested modules if an earlier document had such a rule, and
else what the run was given. -/
theorem module_of_renderings (scope : Scope) (documents : List RuleDocument)
    (hdocuments : ∀ d ∈ documents, SetsNoModule d) :
    (∀ (setting : Setting) (b : Bench), b.begun setting (plan scope (.modern documents)) <+:
      (scope.renderings documents).map (·.write)) ∧
    ∀ x ∈ scope.renderings documents, x.visit.level ∈ Level.below →
      ∃ a n, x.visit.node = .node a ∧ levelOf? a = some x.visit.level ∧
        scope.system.node? a = some n ∧
        scope.system.node? (.module a.moduleIndex) = some (.module n.home) ∧
        x.write.bindings.lookup "module" =
          if scope.fires x.document .module then some (.handle (.node (.module a.moduleIndex)))
          else if x.earlier.any (scope.fires · .module) then
            scope.chosen.getLast?.map fun m => .handle (.node (.module m.2))
          else scope.bindings.lookup "module" := by
  refine ⟨begun_prefix_renderings scope documents, ?_⟩
  intro x hx hbelow
  obtain ⟨hd, before, f, hf, hvisit, preserve, target, hwrite⟩ := exists_firing_of_rendering hx
  obtain ⟨later, happlying⟩ := exists_after_of_withPast hd
  have hfree : ∀ e ∈ scope.applying documents, SetsNoModule e :=
    fun e he => hdocuments e (List.mem_filter.mp he).1
  rw [happlying] at hfree
  obtain ⟨-, past, after, hvisits, -⟩ := exists_past_of_firings hf
  have hmem : f.visit ∈ scope.visits := by
    rw [hvisits]
    exact List.mem_append_right past List.mem_cons_self
  rw [hvisit] at hbelow ⊢
  obtain ⟨a, n, hnode, hlevel, hn, hhome⟩ := exists_node_of_below hmem hbelow
  refine ⟨a, n, hnode, hlevel, hn, hhome, ?_⟩
  rw [hwrite]
  exact lookup_module_of_firing (fun e he => hfree e (List.mem_append_left _ he))
    (hfree x.document (List.mem_append_right _ List.mem_cons_self)) hf
    (ne_module_of_below hbelow) hnode preserve target

/-- Two modules with an interface each. -/
def Sample.shops : Model.System :=
  ⟨[{ name := "a", version := ⟨1, 0⟩, interfaces := [{ name := "A" }] },
    { name := "b", version := ⟨1, 0⟩, interfaces := [{ name := "B" }] }]⟩

/-- A scope that asks for both modules. -/
def Sample.both : Scope := { Sample.scope with system := Sample.shops, modules := ["a", "b"] }

/-- A document for modules. -/
def Sample.modulesOnly : RuleDocument where
  module := some { documents := [("m.txt", "text.tpl")] }

/-- A document for interfaces. -/
def Sample.interfacesOnly : RuleDocument where
  interface := some { documents := [("i.txt", "text.tpl")] }

theorem Sample.setsNoModule :
    ∀ d ∈ [Sample.modulesOnly, Sample.interfacesOnly], SetsNoModule d := by
  have hmodules : SetsNoModule Sample.modulesOnly := by
    refine ⟨rfl, fun level r hr => ?_⟩
    cases level <;> cases hr
    rfl
  have hinterfaces : SetsNoModule Sample.interfacesOnly := by
    refine ⟨rfl, fun level r hr => ?_⟩
    cases level <;> cases hr
    rfl
  simp [hmodules, hinterfaces]

/-- What the second document renders for the interface of the first module. -/
theorem Sample.exists_rendering :
    ∃ x ∈ Sample.both.renderings [Sample.modulesOnly, Sample.interfacesOnly],
      x.earlier = [Sample.modulesOnly] ∧ x.document = Sample.interfacesOnly ∧
        x.visit = ⟨.interface, .node (.interface 0 0)⟩ ∧
          x.write.bindings.lookup "module" = some (.handle (.node (.module 1))) := by
  let all := Sample.both.renderings [Sample.modulesOnly, Sample.interfacesOnly]
  have hlength : 2 < all.length := by decide +kernel
  exact ⟨all[2], List.getElem_mem hlength, rfl, rfl, rfl, rfl⟩

theorem module_of_renderings_interfaces :
    (∀ d ∈ [Sample.modulesOnly, Sample.interfacesOnly], SetsNoModule d) ∧
      ∃ x ∈ Sample.both.renderings [Sample.modulesOnly, Sample.interfacesOnly],
        x.visit.level ∈ Level.below ∧ x.write.bindings.lookup "module" =
          Sample.both.chosen.getLast?.map fun m => .handle (.node (.module m.2)) := by
  obtain ⟨x, hx, hearlier, hdocument, hvisit, -⟩ := Sample.exists_rendering
  have hbelow : x.visit.level ∈ Level.below := by
    rw [hvisit]
    decide
  obtain ⟨a, n, -, -, -, -, hvalue⟩ :=
    (module_of_renderings Sample.both _ Sample.setsNoModule).2 x hx hbelow
  rw [hdocument, hearlier] at hvalue
  exact ⟨Sample.setsNoModule, x, hx, hbelow, hvalue⟩

/-- A document for interfaces can show to one module another one, which an earlier document has
left behind. -/
theorem not_module_of_renderings :
    ¬ ∀ (scope : Scope) (documents : List RuleDocument),
      (∀ d ∈ documents, SetsNoModule d) →
      ∀ (setting : Setting) (b : Bench), ∀ x ∈ scope.renderings documents,
        x.write ∈ b.begun setting (plan scope (.modern documents)) →
        x.visit.level ∈ Level.below → ∀ a, x.visit.node = .node a →
        ∀ value, x.write.bindings.lookup "module" = some value →
          value = .handle (.node (.module a.moduleIndex)) := by
  intro hall
  obtain ⟨x, hx, -, -, hvisit, hvalue⟩ := Sample.exists_rendering
  let documents := [Sample.modulesOnly, Sample.interfacesOnly]
  let setting : Setting := ⟨Sample.shops, {}, "out"⟩
  -- the run renders everything, so that it begins this write
  have hlength : (Sample.bench.begun setting (plan Sample.both (.modern documents))).length =
      ((Sample.both.renderings documents).map (·.write)).length := by
    decide +kernel
  have hbegun :=
    (begun_prefix_renderings Sample.both documents setting Sample.bench).eq_of_length hlength
  have hmem : x.write ∈ Sample.bench.begun setting (plan Sample.both (.modern documents)) := by
    rw [hbegun]
    exact List.mem_map_of_mem hx
  have hbelow : x.visit.level ∈ Level.below := by
    rw [hvisit]
    decide
  have hsame := hall Sample.both documents Sample.setsNoModule setting Sample.bench x hx hmem
    hbelow _ (congrArg Visit.node hvisit) _ hvalue
  simp [Model.Address.moduleIndex] at hsame

end Stencil.Generate
