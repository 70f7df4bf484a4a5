import Stencil.Proofs.Generate.Reports

/-!
# The trail of an error

Templates are entered and left like brackets, with warnings in between.  An error names
the places that the engine has found, innermost first, and then the templates that are
active, so that each active template has one place; the innermost one is left out if the
engine has placed the error in it already.  The source file comes last.

Rendering a template is such a history by itself: it enters the template, warns, and
leaves it again, whether it succeeds or fails.  An error of it is read off the reports
as they are before the template is left.
-/

namespace Stencil.Report

/-! ## Histories -/

/-- What can happen to the reports of a run. -/
inductive Event where
  | enter (template : String)
  | leave
  | warn (place : Option String) (message : String)

namespace Event

/-- The reports after an event. -/
def step (r : Reporter) : Event → Reporter
  | enter template => r.enter template
  | leave => r.leave
  | warn place message => r.warnAt place message

/-- Histories that leave every template that they enter, and no other. -/
inductive Balanced : List Event → Prop
  | nil : Balanced []
  | warn (place : Option String) (message : String) {rest : List Event} (h : Balanced rest) :
      Balanced (.warn place message :: rest)
  | template (name : String) {inner rest : List Event} (hinner : Balanced inner)
      (h : Balanced rest) : Balanced (.enter name :: inner ++ .leave :: rest)

/-- Histories that have entered some templates without leaving them, outermost first. -/
inductive Active : List Event → List String → Prop
  | nothing {history : List Event} (h : Balanced history) : Active history []
  | enter {history inner : List Event} {active : List String} (h : Active history active)
      (name : String) (hinner : Balanced inner) :
      Active (history ++ .enter name :: inner) (active ++ [name])

end Event

namespace Reporter

/-- The reports after a history. -/
def run (r : Reporter) (history : List Event) : Reporter := history.foldl Event.step r

theorem run_cons (r : Reporter) (e : Event) (rest : List Event) :
    r.run (e :: rest) = Reporter.run (e.step r) rest := rfl

theorem run_append (r : Reporter) (first second : List Event) :
    r.run (first ++ second) = (r.run first).run second := List.foldl_append

theorem source_run (history : List Event) : ∀ r : Reporter, (r.run history).source = r.source := by
  induction history with
  | nil => exact fun _ => rfl
  | cons e rest ih =>
      intro r
      have hstep : (e.step r).source = r.source := by cases e <;> rfl
      rw [run_cons, ih, hstep]

/-- Active templates, outermost first, as the frames of reports. -/
def framesOf (active : List String) : List Frame := active.reverse.map fun name => ⟨name, none⟩

theorem framesOf_concat (active : List String) (name : String) :
    framesOf (active ++ [name]) = ⟨name, none⟩ :: framesOf active := by
  rw [framesOf, framesOf, List.reverse_concat, List.map_cons]

/-- A balanced history gives back the active templates that it has found. -/
theorem frames_of_balanced {history : List Event} (h : Event.Balanced history) :
    ∀ r : Reporter, (r.run history).frames = r.frames := by
  induction h with
  | nil => exact fun _ => rfl
  | warn place message h ih =>
      intro r
      rw [run_cons, ih]
      rfl
  | @template name inner rest hinner h ihinner ih =>
      intro r
      have hinside : ((r.enter name).run inner).frames = ⟨name, none⟩ :: r.frames :=
        ihinner (r.enter name)
      calc (r.run (.enter name :: inner ++ .leave :: rest)).frames
          = (((r.enter name).run inner).leave.run rest).frames := by
            rw [List.cons_append, run_cons, run_append, run_cons]
            rfl
        _ = ((r.enter name).run inner).frames.tail := ih _
        _ = r.frames := by rw [hinside, List.tail_cons]

/-- The frames of reports are the templates that their history has entered without leaving them. -/
theorem frames_of_active {history : List Event} {active : List String}
    (h : Event.Active history active) (r : Reporter) :
    (r.run history).frames = framesOf active ++ r.frames := by
  induction h with
  | nothing h => exact frames_of_balanced h r
  | @enter history inner active _ name hinner ih =>
      rw [run_append, run_cons, frames_of_balanced hinner]
      change ⟨name, none⟩ :: (r.run history).frames = _
      rw [ih, framesOf_concat, List.cons_append]

/-! ## Places -/

/-- The places of an error, innermost first: those that the engine has found, and the active
templates.  The innermost of these is left out if it is the outermost of the engine's places. -/
def placesOf (origin : List Frame) (active : List String) : List Frame :=
  match origin.getLast? with
  | none => framesOf active
  | some outermost =>
      if active.getLast? = some outermost.template then origin ++ framesOf active.dropLast
      else origin ++ framesOf active

theorem chain_framesOf (origin : List Frame) (active : List String) :
    chain origin (framesOf active) = placesOf origin active := by
  unfold chain placesOf
  cases horigin : origin.getLast? with
  | none =>
      obtain rfl : origin = [] := List.getLast?_eq_none_iff.mp horigin
      rfl
  | some outermost =>
      rcases List.eq_nil_or_concat active with rfl | ⟨others, innermost, rfl⟩
      · rfl
      · rw [List.concat_eq_append, framesOf_concat, List.getLast?_concat, List.dropLast_concat]
        simp only [Option.some.injEq]

/-- An error says its message at the first of its places, and names each further one and the source
file in its trail.  Without any place it is nowhere. -/
structure Tells (e : TemplateError) (message source : String) (places : List Frame) : Prop where
  message : e.message = message
  nowhere : places = [] → e.location = "unknown" ∧ e.trail = []
  somewhere : ∀ first rest, places = first :: rest → e.location = first.text ∧
    e.trail = (rest.map Frame.text ++ [source]).map (· ++ ": instantiated from here")

theorem tells_errorAt (r : Reporter) (origin : List Frame) (message : String) :
    Tells (r.errorAt origin message) message r.source (chain origin r.frames) := by
  unfold errorAt
  cases chain origin r.frames with
  | nil => exact ⟨rfl, fun _ => ⟨rfl, rfl⟩, fun _ _ h => absurd h (List.cons_ne_nil _ _).symm⟩
  | cons innermost enclosing =>
      refine ⟨rfl, fun h => absurd h (List.cons_ne_nil _ _), fun first rest h => ?_⟩
      cases h
      refine ⟨rfl, ?_⟩
      rw [List.map_append, List.map_map]
      rfl

end Reporter

end Stencil.Report

namespace Stencil.Template

open Generate (onlyWarns_rendering onlyWarns_textRendering warned_perform)
open Generate.Desk (rendering)
open Report

/-! ## Rendering -/

namespace Desk

variable (system : Model.System) (d : Desk)

/-- An error of a step is read off the reports that the step leaves behind. -/
theorem tells_of_perform {α : Type} {act : Run α} {e : TemplateError}
    (h : (d.perform system act).1 = .error e) :
    ∃ origin message, Reporter.Tells e message (d.perform system act).2.reporter.source
      (Reporter.chain origin (d.perform system act).2.reporter.frames) := by
  revert h
  unfold Desk.perform
  dsimp only
  split
  rename_i r m hrun
  cases r with
  | ok a => exact fun h => nomatch h
  | error f =>
      intro h
      cases h
      obtain ⟨hmessage, hnowhere, hsomewhere⟩ :=
        Reporter.tells_errorAt m.reporter f.places f.problem.message
      exact ⟨f.places, f.problem.message, hmessage, hnowhere, hsomewhere⟩

/-- Warnings, as events. -/
def warnings (notes : List (Option String × String)) : List Event :=
  notes.map fun note => .warn note.1 note.2

theorem balanced_warnings (notes : List (Option String × String)) :
    Event.Balanced (warnings notes) := by
  induction notes with
  | nil => exact .nil
  | cons note rest ih => exact .warn note.1 note.2 ih

theorem exists_warnings_of_warned {r s : Reporter} (h : r.Warned s) :
    ∃ notes, s = r.run (warnings notes) := by
  obtain ⟨notes, rfl⟩ := h
  refine ⟨notes, ?_⟩
  rw [Reporter.run, warnings, List.foldl_map]
  rfl

variable {d} {active : List String}

/-- A step warns, and its error names the templates that are active when it begins. -/
theorem perform_history (hactive : d.reporter.frames = Reporter.framesOf active) {α : Type}
    {act : Run α} (hact : act.OnlyWarns) :
    ∃ notes, (d.perform system act).2.reporter = d.reporter.run (warnings notes) ∧
      ∀ e, (d.perform system act).1 = .error e → ∃ origin message,
        Reporter.Tells e message d.reporter.source (Reporter.placesOf origin active) := by
  obtain ⟨notes, hafter⟩ := exists_warnings_of_warned (warned_perform system d hact)
  have hframes : (d.perform system act).2.reporter.frames = d.reporter.frames := by
    rw [hafter, Reporter.frames_of_balanced (balanced_warnings notes)]
  refine ⟨notes, hafter, fun e he => ?_⟩
  obtain ⟨origin, message, htells⟩ := tells_of_perform system d he
  refine ⟨origin, message, ?_⟩
  rw [hframes, hactive, Reporter.chain_framesOf, hafter, Reporter.source_run] at htells
  exact htells

/-- A rendering enters its template, warns, and leaves the template again. -/
theorem render_history (hactive : d.reporter.frames = Reporter.framesOf active) (name : String)
    (bindings : Variables) :
    ∃ notes, (d.render system name bindings).2.reporter =
        d.reporter.run (.enter name :: warnings notes ++ [.leave]) ∧
      ∀ e, (d.render system name bindings).1 = .error e → ∃ origin message,
        Reporter.Tells e message d.reporter.source
          (Reporter.placesOf origin (active ++ [name])) := by
  let entered : Desk := { d with reporter := d.reporter.enter name }
  have hentered : entered.reporter.frames = Reporter.framesOf (active ++ [name]) := by
    change ⟨name, none⟩ :: d.reporter.frames = _
    rw [hactive, Reporter.framesOf_concat]
  obtain ⟨notes, hinside, herror⟩ :=
    perform_history system hentered (onlyWarns_rendering name bindings)
  refine ⟨notes, ?_, herror⟩
  -- what follows the last warning is set back to the templates that were active before
  have hleft : (entered.reporter.run (warnings notes)).frames = ⟨name, none⟩ :: d.reporter.frames :=
    Reporter.frames_of_balanced (balanced_warnings notes) _
  rw [List.cons_append, Reporter.run_cons, Reporter.run_append]
  change _ = (entered.reporter.run (warnings notes)).leave
  rw [Reporter.leave, hleft, ← hinside]
  rfl

/-- A template that is given as a text has no frame of its own. -/
theorem renderText_history (hactive : d.reporter.frames = Reporter.framesOf active) (text : String)
    (bindings : Variables) :
    ∃ notes, (d.renderText system text bindings).2.reporter = d.reporter.run (warnings notes) ∧
      ∀ e, (d.renderText system text bindings).1 = .error e → ∃ origin message,
        Reporter.Tells e message d.reporter.source (Reporter.placesOf origin active) :=
  perform_history system hactive (onlyWarns_textRendering text bindings)

end Desk

/-- Reports have the templates as frames that were entered without being left, and their errors name
the engine's places, these templates and the source file, each once and the innermost first.  A
rendering does nothing to the reports but to enter its template, to warn, and to leave the template
again, so that the active templates are those from before, also where it builds an error; the error
names the template that is rendered among the active ones. -/
theorem error_trail :
    (∀ (source : String) (history : List Event) (active : List String),
      Event.Active history active →
        (Reporter.run { source } history).frames = Reporter.framesOf active ∧
        ∀ (origin : List Report.Frame) (message : String),
          Reporter.Tells ((Reporter.run { source } history).errorAt origin message) message source
            (Reporter.placesOf origin active)) ∧
    ∀ (system : Model.System) (d : Desk) (active : List String) (bindings : Variables),
      d.reporter.frames = Reporter.framesOf active →
        (∀ name, ∃ notes, (d.render system name bindings).2.reporter =
            d.reporter.run (.enter name :: Desk.warnings notes ++ [.leave]) ∧
          (d.render system name bindings).2.reporter.frames = d.reporter.frames ∧
          ∀ e, (d.render system name bindings).1 = .error e → ∃ origin message,
            Reporter.Tells e message d.reporter.source
              (Reporter.placesOf origin (active ++ [name]))) ∧
        ∀ text, ∃ notes, (d.renderText system text bindings).2.reporter =
            d.reporter.run (Desk.warnings notes) ∧
          (d.renderText system text bindings).2.reporter.frames = d.reporter.frames ∧
          ∀ e, (d.renderText system text bindings).1 = .error e → ∃ origin message,
            Reporter.Tells e message d.reporter.source (Reporter.placesOf origin active) := by
  constructor
  · intro source history active h
    have hframes : (Reporter.run { source } history).frames = Reporter.framesOf active := by
      rw [Reporter.frames_of_active h, List.append_nil]
    refine ⟨hframes, fun origin message => ?_⟩
    have htells := Reporter.tells_errorAt (Reporter.run { source } history) origin message
    rwa [hframes, Reporter.chain_framesOf, Reporter.source_run] at htells
  · intro system d active bindings hactive
    refine ⟨fun name => ?_, fun text => ?_⟩
    · obtain ⟨notes, hhistory, herror⟩ := Desk.render_history system hactive name bindings
      refine ⟨notes, hhistory, ?_, herror⟩
      rw [hhistory]
      exact Reporter.frames_of_balanced (.template name (Desk.balanced_warnings notes) .nil) _
    · obtain ⟨notes, hhistory, herror⟩ := Desk.renderText_history system hactive text bindings
      refine ⟨notes, hhistory, ?_, herror⟩
      rw [hhistory]
      exact Reporter.frames_of_balanced (Desk.balanced_warnings notes) _

namespace Sample

/-- A history that leaves one template and enters another one inside the first. -/
def nested : List Event :=
  [.enter "module.tpl", .enter "head.tpl", .warn none "old", .leave, .enter "interface.tpl"]

theorem active_nested : Event.Active nested ["module.tpl", "interface.tpl"] := by
  have hhead : Event.Balanced [.enter "head.tpl", .warn none "old", .leave] :=
    .template "head.tpl" (.warn none "old" .nil) .nil
  exact .enter (.enter (.nothing .nil) "module.tpl" hhead) "interface.tpl" .nil

/-- A desk without templates, in the middle of that history. -/
def midway : Desk where
  files := ⟨[], []⟩
  reporter := Reporter.run {} nested

end Sample

/-- The included part stands for the template that includes it, and a template that is missing is
left again. -/
theorem error_trail_nested :
    Event.Active Sample.nested ["module.tpl", "interface.tpl"] ∧
      ((Reporter.run { source := "echo.yaml" } Sample.nested).errorAt
          [⟨"part.tpl", some 3⟩, ⟨"interface.tpl", some 1⟩] "boom").trail =
        ["interface.tpl:1: instantiated from here", "module.tpl: instantiated from here",
          "echo.yaml: instantiated from here"] ∧
      Sample.midway.reporter.frames = Reporter.framesOf ["module.tpl", "interface.tpl"] ∧
        (Sample.midway.render ⟨[]⟩ "missing.tpl" []).2.reporter.frames =
          Sample.midway.reporter.frames := by
  obtain ⟨hhistories, hrenderings⟩ := error_trail
  obtain ⟨-, herrors⟩ := hhistories "echo.yaml" _ _ Sample.active_nested
  have hframes : Sample.midway.reporter.frames =
      Reporter.framesOf ["module.tpl", "interface.tpl"] :=
    (hhistories "" _ _ Sample.active_nested).1
  have htells := herrors [⟨"part.tpl", some 3⟩, ⟨"interface.tpl", some 1⟩] "boom"
  refine ⟨Sample.active_nested, (htells.somewhere _ _ rfl).2, hframes, ?_⟩
  obtain ⟨notes, -, hkept, -⟩ := (hrenderings ⟨[]⟩ Sample.midway _ [] hframes).1 "missing.tpl"
  exact hkept

end Stencil.Template
