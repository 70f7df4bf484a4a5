import Mathlib.Data.List.Nodup
import Stencil.Proofs.Generate.Traversal

/-!
# Tours

A tour visits the system and all nodes of the requested modules, each of them once.
A plan makes this tour for every document that applies, and for legacy rules makes
it once, up to the first module that imports what is not there.  Its writes are those
that the rules declare, told as a flat list in both dialects.
-/

namespace Stencil.Generate

open Model Rules Template

/-! ## The nodes of a tour -/

/-- The level of the rules that apply at an address. -/
def levelOf? : Address → Option Level
  | .module _ => some .module
  | .interface .. => some .interface
  | .struct .. => some .struct
  | .enum .. => some .enum
  | _ => none

theorem home_of_node? {m : Module} {a : Address} {n : Node} (h : m.node? a = some n) :
    n.home = m := by
  cases a with
  | module => cases h; rfl
  | interface | struct | enum =>
      obtain ⟨x, -, rfl⟩ := Option.map_eq_some_iff.mp h
      rfl
  | property | operation | signal | field | member =>
      obtain ⟨x, -, hx⟩ := Option.bind_eq_some_iff.mp h
      obtain ⟨y, -, rfl⟩ := Option.map_eq_some_iff.mp hx
      rfl
  | operationParameter | signalParameter =>
      obtain ⟨x, -, hx⟩ := Option.bind_eq_some_iff.mp h
      obtain ⟨y, -, hy⟩ := Option.bind_eq_some_iff.mp hx
      obtain ⟨z, -, rfl⟩ := Option.map_eq_some_iff.mp hy
      rfl

theorem mem_moduleVisits {m : Module} {i : Nat} {v : Visit} :
    v ∈ moduleVisits m i ↔ ∃ level a n, levelOf? a = some level ∧ v = ⟨level, .node a⟩ ∧
      a.moduleIndex = i ∧ m.node? a = some n := by
  simp only [moduleVisits, List.mem_append, List.mem_cons, List.mem_map, List.mem_range]
  constructor
  · rintro (((rfl | ⟨k, hk, rfl⟩) | ⟨k, hk, rfl⟩) | ⟨k, hk, rfl⟩)
    · exact ⟨_, _, _, rfl, rfl, rfl, rfl⟩
    · exact ⟨_, _, _, rfl, rfl, rfl, congrArg (Option.map _) (List.getElem?_eq_getElem hk)⟩
    · exact ⟨_, _, _, rfl, rfl, rfl, congrArg (Option.map _) (List.getElem?_eq_getElem hk)⟩
    · exact ⟨_, _, _, rfl, rfl, rfl, congrArg (Option.map _) (List.getElem?_eq_getElem hk)⟩
  · rintro ⟨level, a, n, hlevel, rfl, rfl, hn⟩
    cases a with
    | module => cases hlevel; simp [Address.moduleIndex]
    | interface _ k | struct _ k | enum _ k =>
        cases hlevel
        obtain ⟨x, hx, -⟩ := Option.map_eq_some_iff.mp hn
        obtain ⟨hk, -⟩ := List.getElem?_eq_some_iff.mp hx
        simp [Address.moduleIndex, hk]
    | _ => cases hlevel

theorem mem_chosen {scope : Scope} {m : Module} {i : Nat} :
    (m, i) ∈ scope.chosen ↔ scope.system.modules[i]? = some m ∧ m.name ∈ scope.modules := by
  simp [Scope.chosen, List.mem_zipIdx_iff_getElem?]

/-- A tour visits the system and exactly the modules, interfaces, structs and enums of the
requested modules. -/
theorem mem_visits {scope : Scope} {v : Visit} :
    v ∈ scope.visits ↔ v = systemVisit ∨ ∃ level a n, levelOf? a = some level ∧
      v = ⟨level, .node a⟩ ∧ scope.system.node? a = some n ∧ n.home.name ∈ scope.modules := by
  rw [visits_eq, List.mem_cons, List.mem_flatMap]
  refine or_congr_right ?_
  constructor
  · rintro ⟨⟨m, i⟩, hm, hv⟩
    obtain ⟨hi, hname⟩ := mem_chosen.mp hm
    obtain ⟨level, a, n, hlevel, rfl, rfl, hn⟩ := mem_moduleVisits.mp hv
    refine ⟨level, a, n, hlevel, rfl, Option.bind_eq_some_iff.mpr ⟨m, hi, hn⟩, ?_⟩
    rwa [home_of_node? hn]
  · rintro ⟨level, a, n, hlevel, rfl, hnode, hname⟩
    obtain ⟨m, hm, hn⟩ := Option.bind_eq_some_iff.mp hnode
    rw [home_of_node? hn] at hname
    exact ⟨(m, a.moduleIndex), mem_chosen.mpr ⟨hm, hname⟩,
      mem_moduleVisits.mpr ⟨level, a, n, hlevel, rfl, rfl, hn⟩⟩

section OneLevel

variable {level : Level} {at_ : Nat → Address} {count : Nat}

theorem nodup_level (hat : at_.Injective) :
    ((List.range count).map fun k => (⟨level, .node (at_ k)⟩ : Visit)).Nodup := by
  refine List.Nodup.map (fun j k hjk => hat ?_) List.nodup_range
  simpa using hjk

theorem level_of_mem {v : Visit}
    (hv : v ∈ (List.range count).map fun k => (⟨level, .node (at_ k)⟩ : Visit)) :
    v.level = level := by
  obtain ⟨k, -, rfl⟩ := List.mem_map.mp hv
  rfl

end OneLevel

theorem nodup_moduleVisits (m : Module) (i : Nat) : (moduleVisits m i).Nodup := by
  have hinterfaces : (Address.interface i).Injective := fun j k h => by simpa using h
  have hstructs : (Address.struct i).Injective := fun j k h => by simpa using h
  have henums : (Address.enum i).Injective := fun j k h => by simpa using h
  unfold moduleVisits
  -- nodes of one kind differ in their indexes, others in their levels
  refine List.nodup_append.mpr ⟨List.nodup_append.mpr
    ⟨List.nodup_cons.mpr ⟨fun h => ?_, nodup_level hinterfaces⟩, nodup_level hstructs, ?_⟩,
    nodup_level henums, ?_⟩
  · cases level_of_mem h
  · rintro v hv other hother rfl
    rcases List.mem_cons.mp hv with rfl | hv
    · cases level_of_mem hother
    · cases (level_of_mem hv).symm.trans (level_of_mem hother)
  · rintro v hv other hother rfl
    rcases List.mem_append.mp hv with hv | hv
    · rcases List.mem_cons.mp hv with rfl | hv
      · cases level_of_mem hother
      · cases (level_of_mem hv).symm.trans (level_of_mem hother)
    · cases (level_of_mem hv).symm.trans (level_of_mem hother)

theorem pairwise_chosen (scope : Scope) :
    scope.chosen.Pairwise fun m other => m.2 ≠ other.2 := by
  have hindices : (scope.system.modules.zipIdx.map Prod.snd).Nodup := by
    rw [List.zipIdx_map_snd]
    exact List.nodup_range'
  exact (List.pairwise_map.mp hindices).filter _

/-- A tour visits no node twice. -/
theorem nodup_visits (scope : Scope) : scope.visits.Nodup := by
  rw [visits_eq, List.nodup_cons, List.nodup_flatMap]
  refine ⟨?_, fun m _ => nodup_moduleVisits m.1 m.2, (pairwise_chosen scope).imp ?_⟩
  · intro hsystem
    obtain ⟨m, -, hv⟩ := List.mem_flatMap.mp hsystem
    obtain ⟨level, a, n, -, heq, -⟩ := mem_moduleVisits.mp hv
    cases heq
  · rintro ⟨m, i⟩ ⟨other, j⟩ hij
    refine List.disjoint_left.mpr fun v hm hother => hij ?_
    obtain ⟨level, a, n, -, rfl, rfl, -⟩ := mem_moduleVisits.mp hm
    obtain ⟨level, a, n, -, heq, hj, -⟩ := mem_moduleVisits.mp hother
    cases heq
    exact hj

/-! ## Up to the first stop -/

section Follows

variable {σ α β : Type}

/-- One course of steps is another, or agrees with it up to a stop; what comes after a stop does
not matter. -/
def Follows (p q : σ × Plan) : Prop :=
  p = q ∨ ∃ begun f skipped rest, p.2 = begun ++ .stop f :: skipped ∧ q.2 = begun ++ rest

theorem Follows.prepend {p q : σ × Plan} (h : Follows p q) (before : Plan) :
    Follows (p.1, before ++ p.2) (q.1, before ++ q.2) := by
  rcases h with rfl | ⟨begun, f, skipped, rest, hp, hq⟩
  · exact Or.inl rfl
  · exact Or.inr ⟨before ++ begun, f, skipped, rest, by simp [hp], by simp [hq]⟩

/-- Steps without a stop are those of the course that they follow. -/
theorem Follows.eq_of_not_stop {p q : σ × Plan} (h : Follows p q)
    (hp : ∀ f, Step.stop f ∉ p.2) : p.2 = q.2 := by
  rcases h with rfl | ⟨begun, f, skipped, rest, hstop, -⟩
  · rfl
  · exact absurd (by simp [hstop]) (hp f)

theorem follows_sweep {visit other : σ → α → σ × Plan} {xs : List α}
    (h : ∀ a ∈ xs, ∀ s, Follows (visit s a) (other s a)) :
    ∀ s : σ, Follows (sweep visit s xs) (sweep other s xs) := by
  induction xs with
  | nil =>
      intro s
      exact Or.inl rfl
  | cons a rest ih =>
      intro s
      have hrest := ih fun x hx => h x (List.mem_cons_of_mem a hx)
      rcases h a List.mem_cons_self s with heq | ⟨begun, f, skipped, later, hvisit, hother⟩
      · -- the first visits agree, so that both courses go on with the same value
        simp only [sweep, heq]
        exact (hrest (other s a).1).prepend (other s a).2
      · refine Or.inr ⟨begun, f, skipped ++ (sweep visit (visit s a).1 rest).2,
          later ++ (sweep other (other s a).1 rest).2, ?_, ?_⟩
        · simp [sweep, hvisit]
        · simp [sweep, hother]

theorem sweep_map (visit : σ → α → σ × List β) {γ : Type} (item : γ → α) (xs : List γ) :
    ∀ s : σ, sweep visit s (xs.map item) = sweep (fun s x => visit s (item x)) s xs := by
  induction xs with
  | nil =>
      intro s
      rfl
  | cons x rest ih =>
      intro s
      simp only [List.map_cons, sweep, ih]

/-- A sweep that carries nothing on joins what its visits give. -/
theorem sweep_still (s : σ) (give : α → List β) (xs : List α) :
    sweep (fun s a => (s, give a)) s xs = (s, xs.flatMap give) := by
  induction xs with
  | nil => rfl
  | cons a rest ih => simp only [sweep, ih, List.flatMap_cons]

end Follows

/-! ## Rule documents -/

/-- A document that applies follows its tour until a module imports what is not there. -/
theorem follows_tourDocument {scope : Scope} {d : RuleDocument}
    (hd : d.condition.holds scope.features = true) (c : Carry) :
    Follows (c.visitDocument scope d) (c.tourDocument scope d) := by
  have hmodule : ∀ m ∈ scope.chosen, ∀ c : Carry, Follows (c.visitModule scope d m)
      (sweep (Carry.visit scope d) c (moduleVisits m.1 m.2)) := by
    intro m _ c
    unfold Carry.visitModule
    cases scope.importFailure? m.1 with
    | none => exact Or.inl rfl
    | some f => exact Or.inr ⟨[], f, [], _, rfl, rfl⟩
  rw [visitDocument_eq hd, tourDocument_eq_modules]
  exact (follows_sweep hmodule _).prepend _

theorem follows_documents (scope : Scope) (documents : List RuleDocument) (start : Carry) :
    Follows (sweep (Carry.visitDocument scope) start documents)
      (sweep (Carry.tourDocument scope) start (scope.applying documents)) := by
  rw [sweep_applying]
  refine follows_sweep (fun d hd c => ?_) start
  exact follows_tourDocument (List.mem_filter.mp hd).2 c

/-! ## Legacy rules -/

/-- Applies legacy rules to a node.  The variables of a module and of an interface stay; a struct
sees its module and nothing that was set before. -/
def legacyVisit (scope : Scope) (rules : LegacyRules) (bindings : Variables) (v : Visit) :
    Variables × Plan :=
  match v.level, v.node with
  | .module, _ => (withNode bindings v, legacyWrites (withNode bindings v) rules.moduleRules)
  | .interface, _ =>
      (withNode bindings v, legacyWrites (withNode bindings v) rules.interfaceRules)
  | .struct, .node a =>
      let bound := withNode (withNode scope.bindings ⟨.module, .node (.module a.moduleIndex)⟩) v
      (bindings, legacyWrites bound (rules.structRules.getD []))
  | _, _ => (bindings, [])

/-- A module with all its imports is visited node by node. -/
theorem legacyModule_eq {scope : Scope} {m : Module × Nat}
    (hm : scope.importFailure? m.1 = none) (rules : LegacyRules) (bindings : Variables) :
    legacyModule scope rules bindings m =
      sweep (legacyVisit scope rules) bindings (moduleVisits m.1 m.2) := by
  unfold legacyModule moduleVisits
  rw [hm]
  simp only [sweep_append, sweep_map, List.cons_append, sweep, legacyVisit, sweep_still,
    Address.moduleIndex]
  simp

/-- Legacy rules tour the nodes of one module after the other; there are none for the system. -/
theorem sweep_legacyVisit (scope : Scope) (rules : LegacyRules) (start : Variables) :
    sweep (legacyVisit scope rules) start scope.visits =
      sweep (fun bindings m => sweep (legacyVisit scope rules) bindings (moduleVisits m.1 m.2))
        start scope.chosen := by
  rw [visits_eq, sweep_flatMap]
  rfl

/-- Legacy rules follow one tour over all nodes until a module imports what is not there. -/
theorem follows_legacy (scope : Scope) (rules : LegacyRules) (start : Variables) :
    Follows (sweep (legacyModule scope rules) start scope.chosen)
      (sweep (legacyVisit scope rules) start scope.visits) := by
  have hmodule : ∀ m ∈ scope.chosen, ∀ bindings : Variables,
      Follows (legacyModule scope rules bindings m)
        (sweep (legacyVisit scope rules) bindings (moduleVisits m.1 m.2)) := by
    intro m _ bindings
    cases hm : scope.importFailure? m.1 with
    | none => exact Or.inl (legacyModule_eq hm rules bindings)
    | some f =>
        unfold legacyModule
        rw [hm]
        exact Or.inr ⟨[], f, [], _, rfl, rfl⟩
  rw [sweep_legacyVisit]
  exact follows_sweep hmodule start

/-! ## Plans -/

/-- The plan of a rules file that visits all nodes of the requested modules, whatever these
import: once for each document that applies, and once for legacy rules. -/
def tour (scope : Scope) : RuleSet → Plan
  | .modern documents => documentsTour scope documents
  | .legacy rules =>
      let start := (scope.bindings.set Level.system.variable (.handle .system)).set "dst"
        (.ofText scope.destination)
      .warn legacyNotice :: (sweep (legacyVisit scope rules) start scope.visits).2

/-! ## Declared writes -/

/-- The legacy rules for a level. -/
def legacyRulesAt (rules : LegacyRules) : Level → List LegacyRule
  | .module => rules.moduleRules
  | .interface => rules.interfaceRules
  | .struct => rules.structRules.getD []
  | .system | .enum => []

/-- The variable of a node, with the node. -/
def Visit.setting (v : Visit) : String × Value := (v.level.variable, .handle v.node)

namespace Scope

/-- The variables that legacy rules set for a node: a struct is shown with its module alone, any
other node with the modules and interfaces before it. -/
def legacySettings (scope : Scope) (past : List Visit) (v : Visit) : Variables :=
  match v.level, v.node with
  | .struct, .node a => [Visit.setting ⟨.module, .node (.module a.moduleIndex)⟩, v.setting]
  | _, _ =>
      [systemVisit.setting, ("dst", .ofText scope.destination)]
        ++ ((past ++ [v]).filter fun u => u.level = .module ∨ u.level = .interface).map
          Visit.setting

/-- A write of legacy rules at a node, after others. -/
def declaredLegacyWrite (scope : Scope) (past : List Visit) (v : Visit) (r : LegacyRule) :
    Write where
  bindings := assign (scope.legacySettings past v) scope.bindings
  name := r.destFile
  template := r.templateFile
  preserve := r.preserve
  force := true

/-- The writes that rules declare for the nodes of a scope, in order. -/
def declared (scope : Scope) : RuleSet → List Write
  | .modern documents => scope.declaredWrites documents
  | .legacy rules => (withPast scope.visits).flatMap fun (past, v) =>
      (legacyRulesAt rules v.level).map (scope.declaredLegacyWrite past v)

end Scope

theorem writesOf_legacyWrites (bindings : Variables) (rules : List LegacyRule) :
    writesOf (legacyWrites bindings rules) = rules.map fun r =>
      { bindings, name := r.destFile, template := r.templateFile, preserve := r.preserve,
        force := true } := by
  unfold writesOf legacyWrites
  rw [List.filterMap_map]
  exact congrFun List.filterMap_eq_map' rules

/-- The variables that stay in effect after a node. -/
def legacyNext (bindings : Variables) (v : Visit) : Variables :=
  if v.level = .module ∨ v.level = .interface then withNode bindings v else bindings

theorem foldl_legacyNext (past : List Visit) :
    ∀ bindings : Variables, past.foldl legacyNext bindings =
      assign ((past.filter fun u => u.level = .module ∨ u.level = .interface).map Visit.setting)
        bindings := by
  induction past with
  | nil => exact fun bindings => rfl
  | cons v rest ih =>
      intro bindings
      rw [List.foldl_cons, ih, legacyNext]
      by_cases hv : v.level = .module ∨ v.level = .interface
      · rw [if_pos hv, List.filter_cons_of_pos (by simpa using hv)]
        rfl
      · rw [if_neg hv, List.filter_cons_of_neg (by simpa using hv)]

theorem legacyVisit_fst (scope : Scope) (rules : LegacyRules) (bindings : Variables) (v : Visit) :
    (legacyVisit scope rules bindings v).1 = legacyNext bindings v := by
  obtain ⟨level, node⟩ := v
  cases level with
  | system | module | interface | enum => rfl
  | struct => cases node <;> rfl

/-- A visit after others writes what is declared for its node. -/
theorem writes_of_legacyVisit {scope : Scope} {rules : LegacyRules} {past : List Visit} {v : Visit}
    (hv : v ∈ scope.visits) :
    writesOf (legacyVisit scope rules (past.foldl legacyNext
        (assign [systemVisit.setting, ("dst", .ofText scope.destination)] scope.bindings)) v).2 =
      (legacyRulesAt rules v.level).map (scope.declaredLegacyWrite past v) := by
  have hnext : withNode (past.foldl legacyNext
        (assign [systemVisit.setting, ("dst", .ofText scope.destination)] scope.bindings)) v =
      assign ([systemVisit.setting, ("dst", .ofText scope.destination)]
        ++ ((past.filter fun u => u.level = .module ∨ u.level = .interface).map Visit.setting
          ++ [v.setting])) scope.bindings := by
    rw [foldl_legacyNext, assign_append, assign_append]
    rfl
  obtain ⟨level, node⟩ := v
  cases level with
  | system | enum => rfl
  | module | interface =>
      refine (writesOf_legacyWrites _ _).trans ?_
      rw [hnext]
      simp [legacyRulesAt, Scope.declaredLegacyWrite, Scope.legacySettings]
  | struct =>
      rcases mem_visits.mp hv with heq | ⟨level, a, n, -, heq, -⟩
      · cases heq
      · cases heq
        exact writesOf_legacyWrites _ _

/-- The writes of a tour are those that the rules declare. -/
theorem writesOf_tour (scope : Scope) (rules : RuleSet) :
    writesOf (tour scope rules) = scope.declared rules := by
  cases rules with
  | modern documents => exact writes_of_tour scope documents
  | legacy rules =>
      let start := assign [systemVisit.setting, ("dst", .ofText scope.destination)] scope.bindings
      have hvisit : legacyVisit scope rules =
          fun bindings v => (legacyNext bindings v, (legacyVisit scope rules bindings v).2) := by
        funext bindings v
        rw [← legacyVisit_fst scope rules bindings v]
      change writesOf (sweep (legacyVisit scope rules) start scope.visits).2 = _
      rw [hvisit, sweep_eq]
      unfold writesOf Scope.declared
      rw [List.filterMap_flatMap]
      refine List.flatMap_congr fun ⟨past, v⟩ hmem => ?_
      exact writes_of_legacyVisit (List.of_mem_zip hmem).2

/-- A plan that never stops is a tour. -/
theorem plan_eq_tour {scope : Scope} {rules : RuleSet}
    (h : ∀ f, Step.stop f ∉ plan scope rules) : plan scope rules = tour scope rules := by
  cases rules with
  | modern documents => exact (follows_documents scope documents _).eq_of_not_stop h
  | legacy rules =>
      refine congrArg (List.cons _) ((follows_legacy scope rules _).eq_of_not_stop fun f hf => ?_)
      exact h f (List.mem_cons_of_mem _ hf)

end Stencil.Generate
