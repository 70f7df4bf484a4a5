import Stencil.Proofs.Generate.Reports
import Stencil.Proofs.Generate.Requested

/-!
# The stages of a generation

A generation reads its documents, prepares the model, loads the rules and then
performs their plan.  Nothing is written before that last stage.
-/

namespace Stencil.Generate

open Files Report Template

/-- What the steps of a request's plan have in common. -/
def Session.setting (s : Session) (r : Request) (draft : Prepare.Draft) : Setting :=
  ⟨draft.system, s.registry, r.destination⟩

/-- The bench on which the plan of a request is performed. -/
def Session.bench (s : Session) (t : Tree) (r : Request) (i : Input) (draft : Prepare.Draft) :
    Bench :=
  { desk := ⟨t, draft.reporter, Engine.new (templatePath i.template r.searchPath) s.registry⟩ }

section Stages

variable {s : Session} {t : Tree} {r : Request} {i : Input} {draft : Prepare.Draft}
  {rules : Rules.RuleSet}

/-- What a generation comes to that performs its plan. -/
theorem Session.Reaches.generate_eq (h : s.Reaches t r i draft rules) :
    s.generate t r =
      let last := (s.bench t r i draft).perform (s.setting r draft) (s.plan r i draft.system rules)
      ⟨match last.1 with
        | some f => .error ⟨f, []⟩
        | none => .ok { last.2.record with warnings := last.2.desk.reporter.warnings },
        last.2.desk.files, last.2.desk.reporter.log⟩ := by
  rw [h.runs]
  unfold Session.run
  rw [h.rules]
  rfl

/-- A generation that comes to its rules and fails has failed in performing its plan. -/
theorem Session.Reaches.failed (h : s.Reaches t r i draft rules) {a : Abort}
    (hrecord : (s.generate t r).record = .error a) :
    ((s.bench t r i draft).perform (s.setting r draft) (s.plan r i draft.system rules)).1 =
      some a.failure := by
  rw [h.generate_eq] at hrecord
  dsimp only at hrecord
  split at hrecord
  · rename_i f hf
    cases hrecord
    exact hf
  · cases hrecord

/-- A generation that comes to its rules and succeeds has performed its plan, and what it reports is
the record of that. -/
theorem Session.Reaches.succeeded (h : s.Reaches t r i draft rules) {record : Record}
    (hrecord : (s.generate t r).record = .ok record) :
    let last := (s.bench t r i draft).perform (s.setting r draft) (s.plan r i draft.system rules)
    last.1 = none ∧
      record = { last.2.record with warnings := last.2.desk.reporter.warnings } := by
  rw [h.generate_eq] at hrecord
  dsimp only at hrecord ⊢
  split at hrecord
  · cases hrecord
  · rename_i hnone
    exact ⟨hnone, (Except.ok.inj hrecord).symm⟩

/-- There is only one way in which a generation comes to its rules. -/
theorem Session.Reaches.unique {i' : Input} {draft' : Prepare.Draft} {rules' : Rules.RuleSet}
    (h : s.Reaches t r i draft rules) (h' : s.Reaches t r i' draft' rules') :
    i' = i ∧ draft' = draft ∧ rules' = rules := by
  have hi : i' = i := Except.ok.inj (h'.input.symm.trans h.input)
  subst hi
  have hdraft := h'.prepared.symm.trans h.prepared
  have hrules := h'.rules.symm.trans h.rules
  exact ⟨rfl, (Prod.mk.inj hdraft).2, Except.ok.inj hrules⟩

/-- What a generation comes to when it performs its plan, if it does. -/
def Request.reach? (r : Request) (t : Tree) : Option (Input × Prepare.Draft × Rules.RuleSet) :=
  match r.input t with
  | .error _ => none
  | .ok i =>
      match Prepare.runPhases t r.phases i.draft with
      | (some _, _) => none
      | (none, draft) =>
          (Rules.RuleSet.load t (Rules.rulesPath i.template)).toOption.map fun rules =>
            (i, draft, rules)

theorem Session.Reaches.reach?_eq (h : s.Reaches t r i draft rules) :
    r.reach? t = some (i, draft, rules) := by
  unfold Request.reach?
  rw [h.input]
  dsimp only
  rw [h.prepared]
  dsimp only
  rw [h.rules]
  rfl

/-- A generation that does not come to its rules fails, and leaves the files as they were. -/
theorem Session.files_of_not_reaches (h : ∀ i draft rules, ¬ s.Reaches t r i draft rules) :
    (∃ a, (s.generate t r).record = .error a) ∧ (s.generate t r).files = t := by
  rcases s.reaches_or_fails t r with ⟨i, draft, rules, hreaches⟩ | ⟨a, log, hfails⟩
  · exact absurd hreaches (h i draft rules)
  · rw [hfails]
    exact ⟨⟨a, rfl⟩, rfl⟩

/-! ## Reports -/

theorem Input.frames_draft (t : Tree) (r : Request) (i : Input) :
    (Prepare.runPhases t r.phases i.draft).2.reporter.frames = [] :=
  Prepare.frames_runPhases t r.phases i.draft

/-- No template is active any more when a plan has ended, whether it has failed or not. -/
theorem Session.Reaches.frames (h : s.Reaches t r i draft rules) (p : Plan) :
    ((s.bench t r i draft).perform (s.setting r draft) p).2.desk.reporter.frames = [] := by
  have hwarned := Bench.warned_perform (s.setting r draft) p (s.bench t r i draft)
  have hdraft := Input.frames_draft t r i
  rw [h.prepared] at hdraft
  rw [hwarned.frames]
  exact hdraft

/-! ## Types -/

/-- A generation comes to its rules only if all types of its documents are supported, those of
imported documents included. -/
theorem Session.Reaches.supported (h : s.Reaches t r i draft rules) :
    ∀ m ∈ i.system.modules, m.AllTypes Prepare.Supported := by
  have hvalidate : .validate [Prepare.deprecationLint []] ∈ r.phases := by simp [Request.phases]
  exact Prepare.supported_of_runPhases hvalidate (congrArg Prod.fst h.prepared)

end Stages

end Stencil.Generate
