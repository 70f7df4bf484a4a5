import Stencil.Proofs.Generate.Regenerate

/-!
# The files of legacy rules

A legacy rule may mark its files as preserved.  The files of legacy rules are forced,
and the mark of a forced file does not count: over one and the same prepared model a run
does the same whatever is marked, and whether or not its traversal is forced.  Its record
lists each of its files as written.  A file that was there before holds the last text that
the run has made for its location.

Nothing is said of a request that is forced or not: it comes to another model, because
every module is tagged with what the request asks for, and templates can read the tags.
-/

namespace Stencil.Generate

open Files (Content Location Tree)
open Report (Failure)
open Rules (LegacyRule LegacyRules RuleSet)
open Template

/-! ## Marks that do not count -/

/-- The write without the mark of being preserved, if that does not count. -/
def Write.unmarked (w : Write) : Write := { w with preserve := w.preserve && !w.force }

/-- The step without a mark that does not count. -/
def Step.unmarked : Step → Step
  | .write w => .write w.unmarked
  | s => s

theorem Write.overwrite_unmarked (w : Write) :
    Overwrite.ofFlags w.unmarked.preserve w.unmarked.force = .ofFlags w.preserve w.force := by
  obtain ⟨_, _, _, _, preserve, force⟩ := w
  cases preserve <;> cases force <;> rfl

theorem Write.rendering_unmarked (setting : Setting) (w : Write) (d : Desk) :
    w.unmarked.rendering setting d = w.rendering setting d := by
  unfold Write.rendering Write.place
  rfl

namespace Bench

variable {setting : Setting}

/-- A mark that does not count makes no difference to a step. -/
theorem step_unmarked (s : Step) (b : Bench) : b.step setting s.unmarked = b.step setting s := by
  cases s with
  | write w =>
      change b.write setting w.unmarked = b.write setting w
      rw [write_eq, write_eq, Write.rendering_unmarked, Write.overwrite_unmarked]
  | load _ | warn _ | stop _ => rfl

/-- Marks that do not count make no difference to a run. -/
theorem perform_unmarked (p : Plan) :
    ∀ b : Bench, b.perform setting (p.map Step.unmarked) = b.perform setting p := by
  induction p with
  | nil =>
      intro b
      rfl
  | cons s rest ih =>
      intro b
      simp only [List.map_cons, perform, step_unmarked]
      rcases b.step setting s with ⟨f?, after⟩
      cases f? with
      | none => exact ih after
      | some f => rfl

end Bench

/-! ## Marks of legacy rules -/

/-- The rules without any marks. -/
def unmarkedRules (rules : List LegacyRule) : List LegacyRule :=
  rules.map fun r => { r with preserve := false }

/-- The rules of a rules file without any marks. -/
def withoutMarks (rules : LegacyRules) : LegacyRules where
  moduleRules := unmarkedRules rules.moduleRules
  interfaceRules := unmarkedRules rules.interfaceRules
  structRules := rules.structRules.map unmarkedRules

/-- A sweep whose visits give other steps for the same ones gives those for its own. -/
theorem sweep_map_steps {σ α β γ : Type} {visit : σ → α → σ × List β} {other : σ → α → σ × List γ}
    {f : β → γ} (h : ∀ s a, other s a = ((visit s a).1, (visit s a).2.map f)) (xs : List α) :
    ∀ s : σ, sweep other s xs = ((sweep visit s xs).1, (sweep visit s xs).2.map f) := by
  induction xs with
  | nil =>
      intro s
      rfl
  | cons a rest ih =>
      intro s
      simp only [sweep, h, ih, List.map_append]

theorem legacyWrites_unmarked (bindings : Variables) (rules : List LegacyRule) :
    legacyWrites bindings (unmarkedRules rules) =
      (legacyWrites bindings rules).map Step.unmarked := by
  simp [legacyWrites, unmarkedRules, Step.unmarked, Write.unmarked, Function.comp_def]

theorem structRules_withoutMarks (rules : LegacyRules) :
    (withoutMarks rules).structRules.getD [] = unmarkedRules (rules.structRules.getD []) := by
  unfold withoutMarks
  cases rules.structRules <;> rfl

theorem legacyVisit_withoutMarks (scope : Scope) (rules : LegacyRules) (bindings : Variables)
    (v : Visit) :
    legacyVisit scope (withoutMarks rules) bindings v =
      ((legacyVisit scope rules bindings v).1,
        (legacyVisit scope rules bindings v).2.map Step.unmarked) := by
  unfold legacyVisit
  rw [structRules_withoutMarks]
  split
  · exact congrArg (Prod.mk _) (legacyWrites_unmarked _ rules.moduleRules)
  · exact congrArg (Prod.mk _) (legacyWrites_unmarked _ rules.interfaceRules)
  · exact congrArg (Prod.mk _) (legacyWrites_unmarked _ _)
  · rfl

theorem legacyModule_withoutMarks (scope : Scope) (rules : LegacyRules) (bindings : Variables)
    (m : Model.Module × Nat) :
    legacyModule scope (withoutMarks rules) bindings m =
      ((legacyModule scope rules bindings m).1,
        (legacyModule scope rules bindings m).2.map Step.unmarked) := by
  cases hm : scope.importFailure? m.1 with
  | none =>
      rw [legacyModule_eq hm, legacyModule_eq hm]
      exact sweep_map_steps (legacyVisit_withoutMarks scope rules) _ bindings
  | some f =>
      unfold legacyModule
      rw [hm]
      rfl

/-- Leaving out the marks of legacy rules leaves out marks of their plan that do not count. -/
theorem plan_withoutMarks (scope : Scope) (rules : LegacyRules) :
    plan scope (.legacy (withoutMarks rules)) =
      (plan scope (.legacy rules)).map Step.unmarked := by
  simp only [plan, legacyPlan, List.map_cons,
    sweep_map_steps (legacyModule_withoutMarks scope rules)]
  rfl

theorem plan_legacy_force (scope : Scope) (rules : LegacyRules) (force : Bool) :
    plan { scope with force } (.legacy rules) = plan scope (.legacy rules) := rfl

/-- Legacy rules that differ in their marks do the same, whether or not all files are forced. -/
theorem perform_legacy_congr {scope : Scope} {rules other : LegacyRules}
    (h : withoutMarks other = withoutMarks rules) (force : Bool) (setting : Setting) (b : Bench) :
    b.perform setting (plan { scope with force } (.legacy other)) =
      b.perform setting (plan scope (.legacy rules)) := by
  rw [plan_legacy_force, ← Bench.perform_unmarked, ← plan_withoutMarks, h, plan_withoutMarks,
    Bench.perform_unmarked]

/-! ## Runs that succeed or fail -/

namespace Bench

variable {setting : Setting} {b : Bench}

/-- A step that fails records nothing and changes no file; a file that cannot be written is not
begun, but directories on the way to it may be. -/
theorem of_failing_step {s : Step} {after : Bench} {f : Failure}
    (h : b.step setting s = (some f, after)) :
    after.record = b.record ∧ Tree.Grows b.desk.files after.desk.files := by
  cases s with
  | load name =>
      obtain ⟨-, -, rfl⟩ := refused_of_load h
      exact ⟨rfl, Tree.Grows.refl _⟩
  | warn message => cases h
  | write w =>
      have hrendering := Write.rendering_files setting w b.desk
      change b.write setting w = (some f, after) at h
      rw [write_eq] at h
      rcases hresult : w.rendering setting b.desk with ⟨r, desk⟩
      rw [hresult] at h hrendering
      rw [← hrendering]
      cases r with
      | error e =>
          cases h
          exact ⟨rfl, Tree.Grows.refl _⟩
      | ok rendered =>
          dsimp only at h
          split at h
          · cases h
            exact ⟨rfl, Tree.grows_afterFailedWrite _ _⟩
          · cases h
  | stop g =>
      cases h
      exact ⟨rfl, Tree.Grows.refl _⟩

/-- The deeds of a run lead from the files before it to those after it, apart from directories that
the run may have created for a file which it could not write. -/
theorem exists_lead_of_run (p : Plan) :
    ∃ last, Deed.Lead b.desk.files (b.deeds setting p) last ∧
      Tree.Grows last (b.perform setting p).2.desk.files := by
  cases h : (b.perform setting p).1 with
  | none => exact ⟨_, lead_of_perform h, Tree.Grows.refl _⟩
  | some f =>
      obtain ⟨done, s, middle, hbreaks⟩ := exists_breaksOff h
      have hlead := lead_of_perform (congrArg Prod.fst hbreaks.performed)
      rw [hbreaks.performed] at hlead
      rw [hbreaks.deeds]
      exact ⟨_, hlead, (of_failing_step hbreaks.failed).2⟩

/-- A run has its deeds on record, whether it succeeds or fails. -/
theorem record_of_run (p : Plan) :
    (b.perform setting p).2.record = b.record.addAll (b.deeds setting p) := by
  cases h : (b.perform setting p).1 with
  | none => exact record_of_perform h
  | some f =>
      obtain ⟨done, s, middle, hbreaks⟩ := exists_breaksOff h
      have hdone := record_of_perform (congrArg Prod.fst hbreaks.performed)
      rw [hbreaks.performed] at hdone
      rw [hbreaks.deeds, ← hdone]
      exact (of_failing_step hbreaks.failed).1

/-- A run does writes of the tour in their order, up to some point. -/
theorem writes_of_run (scope : Scope) (rules : RuleSet) :
    (b.deeds setting (plan scope rules)).map (·.write) <+: writesOf (tour scope rules) := by
  cases h : (b.perform setting (plan scope rules)).1 with
  | none =>
      rw [writes_of_perform h, plan_eq_tour fun f => not_stop_of_perform h]
      exact List.prefix_rfl
  | some f =>
      obtain ⟨done, s, middle, hbreaks⟩ := exists_breaksOff h
      obtain ⟨rest, hrest⟩ := hbreaks.plan
      rw [hbreaks.writes]
      exact (isPrefix_tour hbreaks.not_stop hrest).filterMap _

end Bench

/-! ## The files of legacy rules -/

/-- Deeds that write their files are recorded as such. -/
theorem Record.addAll_of_written {deeds : List Deed} :
    ∀ {r : Record}, (∀ d ∈ deeds, d.result = .written) →
      r.addAll deeds = { r with written := r.written ++ deeds.map (·.path) } := by
  induction deeds with
  | nil => exact fun _ => by simp [Record.addAll]
  | cons d rest ih =>
      intro r h
      have hrest := ih (r := r.add d.path d.result) fun e he => h e (List.mem_cons_of_mem d he)
      rw [h d List.mem_cons_self] at hrest
      change (r.add d.path d.result).addAll rest = _
      rw [h d List.mem_cons_self, hrest]
      simp [Record.add]

namespace Deed

/-- The last of the deeds at a location. -/
def latest (deeds : List Deed) (l : Location) : Option Deed :=
  (deeds.filter fun d => decide (d.location = l)).getLast?

theorem lastAt_eq_latest {p : Deed → Bool} {deeds : List Deed} (h : ∀ d ∈ deeds, p d = true)
    (l : Location) : lastAt p deeds l = latest deeds l := by
  rw [lastAt_congr h l]
  simp [lastAt, latest]

/-- If all deeds replace what they find, a file holds the text of the last one at its location. -/
theorem get?_of_replacing {deeds : List Deed} {t last : Tree} (hlead : Lead t deeds last)
    (hall : ∀ d ∈ deeds, d.replaces = true) {l : Location} {c : Content}
    (hl : t.get? l = some (.file c)) :
    last.get? l = some (((latest deeds l).map entry).getD (.file c)) := by
  obtain ⟨c', hc', -⟩ := (overlay_of_lead hlead).file hl
  have hdirectory : last.get? l ≠ some .directory := by simp [hc']
  rw [get?_of_lead hlead hdirectory, settled, lastAt_eq_latest hall, hl]
  cases latest deeds l <;> simp

theorem overwrite_of_force {d : Deed} (h : d.write.force = true) : d.overwrite = .always := by
  simp [overwrite, Overwrite.ofFlags, h]

theorem result_of_force {d : Deed} (h : d.write.force = true) : d.result = .written := by
  rw [result, overwrite_of_force h]
  rfl

end Deed

/-- The deeds of legacy rules are forced. -/
theorem force_of_legacy_deed {scope : Scope} {rules : LegacyRules} {setting : Setting} {b : Bench}
    {d : Deed} (hd : d ∈ b.deeds setting (plan scope (.legacy rules))) : d.write.force = true :=
  force_of_legacy ((Bench.writes_of_run scope (.legacy rules)).subset (List.mem_map_of_mem hd))

/-- Over one and the same prepared model a run of legacy rules does the same whatever they mark as
preserved, and whether or not the traversal is forced.  Its record goes on with all its files as
written, and with none as unchanged or preserved.  Whether it succeeds or fails, a file that was
there before holds afterwards the last text for its location, and so stays as it was if and only if
there is no such text or the last one is what it held. -/
theorem legacy_marks_do_not_count (scope : Scope) (rules : LegacyRules) (setting : Setting)
    (b : Bench) :
    let run := b.perform setting (plan scope (.legacy rules))
    let deeds := b.deeds setting (plan scope (.legacy rules))
    (∀ force other, withoutMarks other = withoutMarks rules →
      b.perform setting (plan { scope with force } (.legacy other)) = run) ∧
    (∀ d ∈ deeds, d.overwrite = .always ∧ d.result = .written) ∧
    run.2.record = { b.record with written := b.record.written ++ deeds.map (·.path) } ∧
    ∀ l c, b.desk.files.get? l = some (.file c) →
      run.2.desk.files.get? l = some (((Deed.latest deeds l).map Deed.entry).getD (.file c)) ∧
      (run.2.desk.files.get? l = some (.file c) ↔
        ∀ d, Deed.latest deeds l = some d → c = .text d.content) := by
  intro run deeds
  have hforce : ∀ d ∈ deeds, d.write.force = true := fun d hd => force_of_legacy_deed hd
  have hwritten : ∀ d ∈ deeds, d.result = .written := fun d hd =>
    Deed.result_of_force (hforce d hd)
  refine ⟨?_, ?_, ?_, fun l c hl => ?_⟩
  · exact fun force other h => perform_legacy_congr h force setting b
  · exact fun d hd => ⟨Deed.overwrite_of_force (hforce d hd), hwritten d hd⟩
  · exact (Bench.record_of_run _).trans (Record.addAll_of_written hwritten)
  · have hreplaces : ∀ d ∈ deeds, d.replaces = true := fun d hd =>
      Deed.replaces_of_binding (by simp [Deed.binding, hforce d hd])
    obtain ⟨last, hlead, hgrows⟩ := Bench.exists_lead_of_run (plan scope (.legacy rules))
    have hlast := Deed.get?_of_replacing hlead hreplaces hl
    have hafter := hgrows.get?_of_some hlast
    refine ⟨hafter, ?_⟩
    rw [hafter]
    cases Deed.latest deeds l with
    | none => simp
    | some d => simp [Deed.entry, eq_comm]

/-! ## A file that was edited by hand -/

namespace Sample

/-- Rules that mark a file of the module as preserved. -/
def marked : LegacyRules where
  moduleRules := [⟨"kept.txt", "text.tpl", true⟩]

theorem marked_succeeds : (bench.perform setting (plan scope (.legacy marked))).1 = none :=
  Option.isNone_iff_eq_none.mp (by decide +kernel)

end Sample

/-- The mark does not keep the file. -/
theorem legacy_marks_do_not_count_kept :
    Sample.files.get? ["w", "out", "kept.txt"] = some (.file (.text "edited")) ∧
      (Sample.bench.perform Sample.setting
        (plan Sample.scope (.legacy Sample.marked))).2.desk.files.get? ["w", "out", "kept.txt"] =
          some (.file (.text "generated")) := by
  have hedited : Sample.files.get? ["w", "out", "kept.txt"] = some (.file (.text "edited")) := by
    decide +kernel
  obtain ⟨-, -, -, hafter⟩ := legacy_marks_do_not_count Sample.scope Sample.marked Sample.setting
    Sample.bench
  have hlatest : (Deed.latest (Sample.bench.deeds Sample.setting
      (plan Sample.scope (.legacy Sample.marked))) ["w", "out", "kept.txt"]).map Deed.entry =
        some (.file (.text "generated")) := by
    decide +kernel
  refine ⟨hedited, (hafter _ _ hedited).1.trans ?_⟩
  rw [hlatest]
  rfl

/-- A file that only legacy rules marked as preserved are for is overwritten, in a run that succeeds
and is not forced. -/
theorem not_kept_by_marks :
    ¬ ∀ (scope : Scope) (rules : LegacyRules) (setting : Setting) (b : Bench) (l : Location)
        (c : Content),
      scope.force = false → (b.perform setting (plan scope (.legacy rules))).1 = none →
      b.desk.files.get? l = some (.file c) →
      (∀ d ∈ b.deeds setting (plan scope (.legacy rules)), d.location = l →
        d.write.preserve = true) →
      (b.perform setting (plan scope (.legacy rules))).2.desk.files.get? l = some (.file c) := by
  intro hall
  have hkept := hall Sample.scope Sample.marked Sample.setting Sample.bench
    ["w", "out", "kept.txt"] (.text "edited") rfl Sample.marked_succeeds (by decide +kernel)
    (by decide +kernel)
  exact absurd hkept (by decide +kernel)

end Stencil.Generate
