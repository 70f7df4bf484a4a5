import Stencil.Proofs.Generate.Retrace
import Stencil.Proofs.Template.Plain

/-!
# Files of templates without tags

Templates without tags render deterministically.  So it can be checked of a run of such
templates that its files come from its templates alone.
-/

namespace Stencil.Generate

open Files Template
open Files.Path (join)

section Desks

variable (system : Model.System) (bindings : Variables) {d : Desk}

theorem perform_of_ok {α : Type} {act : Run α} {a : α} {next : Machine}
    (h : act ⟨system, d.files, d.engine.searchPath, d.engine.filters, d.engine.globals⟩
      { reporter := d.reporter, cache := d.engine.cache } = (.ok a, next)) :
    d.perform system act = (.ok a, { d with
      reporter := next.reporter, engine := { d.engine with cache := next.cache } }) := by
  unfold Desk.perform
  dsimp only
  rw [h]

/-- A text without tags is rendered without a look at the files, and no template is read for it. -/
theorem renderText_of_plain {text : String} (h : isPlain inlineName text = true) :
    ∃ s reporter, ∀ files, Desk.renderText system text bindings { d with files } =
      (.ok s, { d with files, reporter }) := by
  obtain ⟨source, hsource, hplain⟩ := exists_source_of_isPlain h
  obtain ⟨next, hcache, hrun⟩ := Run.renderSource_of_plain hplain bindings
    { reporter := d.reporter, cache := d.engine.cache }
  refine ⟨source.plainText, next.reporter, fun files => ?_⟩
  unfold Desk.renderText
  rw [hsource]
  dsimp only
  rw [perform_of_ok system (d := { d with files }) (hrun _), hcache]

/-- Whether what a desk knows as a template of a name, or else finds as one, has no tags. -/
def plainTemplate (d : Desk) (name : String) : Bool :=
  match d.engine.cache.lookup name with
  | some source => source.isPlain
  | none =>
      match sourceIn d.files d.engine.searchPath name with
      | .ok (some text) => isPlain name text
      | _ => false

/-- A template without tags is found wherever the file of its name is the same. -/
theorem exists_template_of_plain {name : String} (h : plainTemplate d name = true)
    (reporter : Report.Reporter) : ∃ source next, source.isPlain = true ∧ ∀ files,
      sourceIn files d.engine.searchPath name = sourceIn d.files d.engine.searchPath name →
        Run.template? name
          ⟨system, files, d.engine.searchPath, d.engine.filters, d.engine.globals⟩
          { reporter, cache := d.engine.cache } = (.ok (some source), next) := by
  unfold plainTemplate at h
  split at h
  · rename_i source hknown
    refine ⟨source, { reporter, cache := d.engine.cache }, h, fun files _ => ?_⟩
    rw [Run.template?_eq]
    dsimp only
    rw [hknown]
  · rename_i hunknown
    split at h
    · rename_i text htext
      obtain ⟨source, hsource, hplain⟩ := exists_source_of_isPlain h
      refine ⟨source, { reporter, cache := d.engine.cache ++ [(name, source)] }, hplain,
        fun files hfiles => ?_⟩
      have hread : Run.sourceText?
          ⟨system, files, d.engine.searchPath, d.engine.filters, d.engine.globals⟩ name =
            .ok (some text) := hfiles.trans htext
      rw [Run.template?_eq]
      dsimp only
      rw [hunknown, hread]
      dsimp only
      rw [hsource]
    · cases h

/-- A template without tags renders the same wherever the file of its name is the same. -/
theorem render_of_plain {name : String} (h : plainTemplate d name = true) :
    ∃ (s : String) (after : Desk), ∀ files,
      sourceIn files d.engine.searchPath name = sourceIn d.files d.engine.searchPath name →
        Desk.render system name bindings { d with files } = (.ok s, { after with files }) := by
  obtain ⟨source, read, hplain, htemplate⟩ :=
    exists_template_of_plain system h (d.reporter.enter name)
  obtain ⟨next, -, hrun⟩ := Run.renderSource_of_plain hplain bindings read
  refine ⟨source.plainText, { d with
    reporter := { next.reporter with frames := d.reporter.frames },
    engine := { d.engine with cache := next.cache } }, fun files hfiles => ?_⟩
  unfold Desk.render
  dsimp only
  rw [perform_of_ok system (d := { d with files, reporter := d.reporter.enter name })]
  rw [Run.bind_eq, htemplate files hfiles]
  exact hrun _

end Desks

/-! ## Writes -/

/-- Whether all templates of a write have no tags, and its file is none of some locations. -/
def Write.plainOn (locations : List Location) (search : List String) (w : Write) (d : Desk) :
    Bool :=
  decide (d.engine.searchPath = search)
    && (w.directory.isEmpty || isPlain inlineName w.directory)
    && isPlain inlineName w.name && plainTemplate d w.template
    && search.all fun dir => !locations.contains (d.files.location (join dir w.template))

/-- A directory without tags is rendered without a look at the files. -/
theorem place_of_plain (setting : Setting) {w : Write} {d : Desk}
    (h : w.directory.isEmpty = true ∨ isPlain inlineName w.directory = true) :
    ∃ directory reporter, ∀ files,
      w.place setting { d with files } = (.ok directory, { d with files, reporter }) := by
  by_cases hempty : w.directory.isEmpty = true
  · refine ⟨setting.destination, d.reporter, fun files => ?_⟩
    simp [Write.place, hempty]
  · obtain ⟨s, reporter, hrender⟩ :=
      renderText_of_plain setting.system w.bindings (d := d) (h.resolve_left hempty)
    refine ⟨join setting.destination s, reporter, fun files => ?_⟩
    unfold Write.place
    rw [if_neg hempty, hrender]
    rfl

/-- A write of templates without tags renders deterministically. -/
theorem Write.deterministic_of_plain {locations : List Location} {search : List String}
    {setting : Setting} {w : Write} {d : Desk} (h : w.plainOn locations search d = true) :
    w.Deterministic (· ∈ locations) search setting d := by
  simp only [Write.plainOn, Bool.and_eq_true, decide_eq_true_eq, Bool.or_eq_true,
    List.all_eq_true, Bool.not_eq_true', List.contains_eq_mem, decide_eq_false_iff_not] at h
  obtain ⟨⟨⟨⟨rfl, hdirectory⟩, hname⟩, htemplate⟩, hapart⟩ := h
  obtain ⟨directory, placed, hplace⟩ := place_of_plain setting (d := d) hdirectory
  obtain ⟨name, named, hnamed⟩ :=
    renderText_of_plain setting.system w.bindings (d := { d with reporter := placed }) hname
  obtain ⟨content, after, hrender⟩ :=
    render_of_plain setting.system w.bindings (d := { d with reporter := named }) htemplate
  have hrendering : ∀ files,
      sourceIn files d.engine.searchPath w.template =
        sourceIn d.files d.engine.searchPath w.template →
      w.rendering setting { d with files } =
        (.ok (join directory name, content), { after with files }) := by
    intro files hfiles
    unfold Write.rendering
    rw [hplace]
    dsimp only at hnamed hrender ⊢
    rw [hnamed]
    dsimp only
    rw [hrender files hfiles]
  intro files hfiles
  have hsame := hrendering d.files rfl
  rw [hrendering files (hfiles w.template hapart)]
  change w.rendering setting d = _ at hsame
  rw [hsame]

/-! ## Runs -/

/-- Whether all templates of a run have no tags, and none of them is at one of some locations. -/
def Bench.plainOn (locations : List Location) (search : List String) (setting : Setting) :
    Plan → Bench → Bool
  | [], _ => true
  | s :: rest, b =>
      (s.write?.all fun w => w.plainOn locations search b.desk)
        && plainOn locations search setting rest (b.step setting s).2

/-- A run of templates without tags that succeeds renders deterministically. -/
theorem Bench.deterministic_of_plain {locations : List Location} {search : List String}
    {setting : Setting} {p : Plan} {b : Bench} (hsucceeds : (b.perform setting p).1 = none)
    (hplain : b.plainOn locations search setting p = true) :
    b.Deterministic (· ∈ locations) search setting p := by
  induction p, b, hsucceeds using Bench.perform_induction with
  | nil b =>
      intro done w rest hp
      cases done <;> cases hp
  | cons s rest b after hstep hrest ih =>
      intro done w later hp
      rw [Bench.plainOn, hstep, Bool.and_eq_true] at hplain
      obtain ⟨hhere, hlater⟩ := hplain
      cases done with
      | nil =>
          cases hp
          have hwrite : w.plainOn locations search b.desk = true := by
            simpa [Step.write?] using hhere
          exact Write.deterministic_of_plain hwrite
      | cons first done =>
          cases hp
          rw [Bench.perform_of_step hstep]
          exact ih hlater done w later rfl

end Stencil.Generate
