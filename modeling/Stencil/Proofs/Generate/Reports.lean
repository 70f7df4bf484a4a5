import Stencil.Generate.Session
import Stencil.Proofs.Template.Warnings

/-!
# The reports of a run

A run adds warnings to its reports and nothing else, whether it succeeds or fails.  So
no template is active any more when a request ends.
-/

namespace Stencil.Generate

open Report (Reporter)
open Template

/-! ## Desks -/

section Desk

variable (system : Model.System) (d : Desk)

theorem warned_perform {α : Type} {act : Run α} (hact : act.OnlyWarns) :
    d.reporter.Warned (d.perform system act).2.reporter := by
  have hwarned := hact ⟨system, d.files, d.engine.searchPath, d.engine.filters, d.engine.globals⟩
    { reporter := d.reporter, cache := d.engine.cache }
  unfold Desk.perform
  dsimp only
  split
  rename_i r m hrun
  rw [hrun] at hwarned
  cases r <;> exact hwarned

/-- What is run to render a template that is given as a text. -/
def Desk.textRendering (text : String) (bindings : Variables) : Run String :=
  match Source.ofText? inlineName text with
  | .error (f, line) => throw ⟨.unreadable f, [⟨inlineName, some line⟩]⟩
  | .ok source => renderSource source bindings

theorem onlyWarns_textRendering (text : String) (bindings : Variables) :
    (Desk.textRendering text bindings).OnlyWarns := by
  unfold Desk.textRendering
  split
  · exact .throw _
  · exact .renderSource _ bindings

theorem warned_renderText (text : String) (bindings : Variables) :
    d.reporter.Warned (d.renderText system text bindings).2.reporter :=
  warned_perform system d (onlyWarns_textRendering text bindings)

/-- What is run to render a template from the search path. -/
def Desk.rendering (name : String) (bindings : Variables) : Run String := do
  match ← Run.template? name with
  | none => throw ⟨.missingTemplate name, []⟩
  | some source => renderSource source bindings

theorem onlyWarns_rendering (name : String) (bindings : Variables) :
    (Desk.rendering name bindings).OnlyWarns := by
  refine .bind (.template? name) fun found => ?_
  split
  · exact .throw _
  · exact .renderSource _ bindings

/-- The reporter names a template while it is rendered, and no longer. -/
theorem warned_render (name : String) (bindings : Variables) :
    d.reporter.Warned (d.render system name bindings).2.reporter :=
  Reporter.Warned.withFrames (warned_perform system
    { d with reporter := d.reporter.enter name } (onlyWarns_rendering name bindings))
    d.reporter.frames

theorem warned_write (o : OutputFile) (bindings : Variables) :
    d.reporter.Warned (d.write system o bindings).2.reporter := by
  unfold Desk.write
  have hname := warned_renderText system d o.fileName bindings
  generalize d.renderText system o.fileName bindings = r at hname ⊢
  obtain ⟨name, named⟩ := r
  cases name with
  | error e => exact hname
  | ok name =>
      have hcontent := warned_render system named o.template bindings
      dsimp only at hname ⊢
      generalize named.render system o.template bindings = r at hcontent ⊢
      obtain ⟨content, rendered⟩ := r
      cases content with
      | error e => exact hname.trans hcontent
      | ok content =>
          dsimp only
          split <;> exact hname.trans hcontent

end Desk

/-! ## Runs -/

namespace Bench

variable (setting : Setting)

theorem warned_directory (w : Write) (b : Bench) :
    b.desk.reporter.Warned (b.directory setting w).2.desk.reporter := by
  unfold Bench.directory
  split
  · exact .refl _
  · exact warned_renderText setting.system b.desk w.directory w.bindings

theorem warned_step (b : Bench) (s : Step) :
    b.desk.reporter.Warned (b.step setting s).2.desk.reporter := by
  cases s with
  | load name =>
      change b.desk.reporter.Warned (b.load setting.registry name).2.desk.reporter
      unfold Bench.load
      split
      · exact .refl _
      · dsimp only
        split <;> exact .refl _
  | warn message => exact Reporter.warned_warnAt _ message _
  | stop f => exact .refl _
  | write w =>
      have hdirectory := warned_directory setting w b
      change b.desk.reporter.Warned (b.write setting w).2.desk.reporter
      unfold Bench.write
      generalize b.directory setting w = r at hdirectory ⊢
      obtain ⟨directory, placed⟩ := r
      cases directory with
      | error e => exact hdirectory
      | ok directory =>
          have hwrite := warned_write setting.system placed.desk
            ⟨directory, w.name, w.template, .ofFlags w.preserve w.force⟩ w.bindings
          dsimp only at hdirectory ⊢
          split <;> rename_i hrun <;> rw [hrun] at hwrite <;> exact hdirectory.trans hwrite

/-- A run adds warnings to the reports, and nothing else. -/
theorem warned_perform (p : Plan) :
    ∀ b : Bench, b.desk.reporter.Warned (b.perform setting p).2.desk.reporter := by
  induction p with
  | nil => exact fun b => .refl _
  | cons s rest ih =>
      intro b
      have hstep := warned_step setting b s
      unfold Bench.perform
      generalize b.step setting s = r at hstep ⊢
      obtain ⟨f?, after⟩ := r
      cases f? with
      | none => exact hstep.trans (ih after)
      | some f => exact hstep

end Bench

end Stencil.Generate
