import Stencil.Generate.Perform
import Stencil.Proofs.Files.Location

/-!
# The deeds of a run

A deed is a file that a run has rendered, with the files that were there before.
The steps of a run leave behind a list of deeds.  A run that succeeds has done
exactly the writes of its plan, and its files come from the first ones by one
output after the other.
-/

namespace Stencil.Generate

open Report Template

/-- A rendered file: what asked for it, its path, its text, and the files from before. -/
structure Deed where
  write : Write
  path : String
  content : String
  before : Files.Tree

namespace Deed

/-- How an existing file is treated. -/
def overwrite (d : Deed) : Overwrite := .ofFlags d.write.preserve d.write.force

/-- What became of the file. -/
def result (d : Deed) : WriteResult := d.before.outcome d.overwrite d.path d.content

/-- Whether deeds lead from some files to others, each output being made on the files that the
one before it left. -/
def Lead : Files.Tree → List Deed → Files.Tree → Prop
  | t, [], last => last = t
  | t, d :: rest, last =>
      d.before = t ∧ ∃ next, t.output d.overwrite d.path d.content = .ok (d.result, next) ∧
        Lead next rest last

theorem Lead.append {deeds later : List Deed} :
    ∀ {t middle last : Files.Tree}, Lead t deeds middle → Lead middle later last →
      Lead t (deeds ++ later) last := by
  induction deeds with
  | nil =>
      rintro t middle last rfl hlater
      exact hlater
  | cons d rest ih =>
      rintro t middle last ⟨hbefore, next, houtput, hrest⟩ hlater
      exact ⟨hbefore, next, houtput, ih hrest hlater⟩

end Deed

/-- The write that a step stands for, if any. -/
def Step.write? : Step → Option Write
  | .write w => some w
  | .load _ | .warn _ | .stop _ => none

theorem Step.eq_write {s : Step} {w : Write} (h : s.write? = some w) : s = .write w := by
  cases s with
  | write v => exact congrArg Step.write (Option.some.inj h)
  | load _ | warn _ | stop _ => cases h

namespace Bench

/-- What a write comes to when its directory, its name and its template can be rendered. -/
def deed? (setting : Setting) (w : Write) (b : Bench) : Option Deed :=
  match b.directory setting w with
  | (.error _, _) => none
  | (.ok directory, placed) =>
      match placed.desk.renderText setting.system w.name w.bindings with
      | (.error _, _) => none
      | (.ok name, desk) =>
          match desk.render setting.system w.template w.bindings with
          | (.error _, _) => none
          | (.ok content, _) =>
              some ⟨w, Files.Path.join directory name, content, b.desk.files⟩

/-- The deeds of steps that are performed in order until one fails. -/
def deeds (setting : Setting) : Plan → Bench → List Deed
  | [], _ => []
  | s :: rest, b =>
      match b.step setting s with
      | (none, after) => (s.write?.bind (b.deed? setting)).toList ++ deeds setting rest after
      | (some _, _) => []

end Bench

/-! ## Rendering leaves the files alone -/

theorem Desk.perform_files {α : Type} (system : Model.System) (act : Run α) (d : Desk) :
    (d.perform system act).2.files = d.files := by
  unfold Desk.perform
  dsimp only
  split
  rename_i r m hact
  cases r <;> rfl

theorem Desk.renderText_files (system : Model.System) (text : String) (bindings : Variables)
    (d : Desk) : (d.renderText system text bindings).2.files = d.files := by
  unfold Desk.renderText
  exact Desk.perform_files system _ d

theorem Desk.render_files (system : Model.System) (name : String) (bindings : Variables)
    (d : Desk) : (d.render system name bindings).2.files = d.files := by
  unfold Desk.render
  exact Desk.perform_files system _ { d with reporter := d.reporter.enter name }

/-! ## What a write renders -/

/-- The directory of a file below the destination, and the desk after it has been rendered. -/
def Write.place (setting : Setting) (w : Write) (d : Desk) : Except TemplateError String × Desk :=
  if w.directory.isEmpty then (.ok setting.destination, d)
  else
    let (r, d) := d.renderText setting.system w.directory w.bindings
    (r.map (Files.Path.join setting.destination), d)

/-- The path and the text of a file, and the desk after they have been rendered. -/
def Write.rendering (setting : Setting) (w : Write) (d : Desk) :
    Except TemplateError (String × String) × Desk :=
  match w.place setting d with
  | (.error e, d) => (.error e, d)
  | (.ok directory, d) =>
      match d.renderText setting.system w.name w.bindings with
      | (.error e, d) => (.error e, d)
      | (.ok name, d) =>
          match d.render setting.system w.template w.bindings with
          | (.error e, d) => (.error e, d)
          | (.ok content, d) => (.ok (Files.Path.join directory name, content), d)

theorem Write.place_files (setting : Setting) (w : Write) (d : Desk) :
    (w.place setting d).2.files = d.files := by
  unfold Write.place
  split
  · rfl
  · exact Desk.renderText_files setting.system w.directory w.bindings d

/-- Rendering a file leaves the files alone. -/
theorem Write.rendering_files (setting : Setting) (w : Write) (d : Desk) :
    (w.rendering setting d).2.files = d.files := by
  have hplaced := Write.place_files setting w d
  unfold Write.rendering
  rcases hdirectory : w.place setting d with ⟨directory, placed⟩
  rw [hdirectory] at hplaced
  cases directory with
  | error e => exact hplaced
  | ok directory =>
      have hnamed := Desk.renderText_files setting.system w.name w.bindings placed
      dsimp only at hplaced ⊢
      rcases hname : placed.renderText setting.system w.name w.bindings with ⟨name, named⟩
      rw [hname] at hnamed
      cases name with
      | error e => exact hnamed.trans hplaced
      | ok name =>
          have hrendered := Desk.render_files setting.system w.template w.bindings named
          dsimp only at hnamed ⊢
          rcases hcontent : named.render setting.system w.template w.bindings with ⟨content, last⟩
          rw [hcontent] at hrendered
          cases content <;> exact hrendered.trans (hnamed.trans hplaced)

namespace Bench

variable {setting : Setting}

/-! ## Rendering and writing -/

theorem directory_eq (w : Write) (b : Bench) :
    b.directory setting w =
      ((w.place setting b.desk).1, { b with desk := (w.place setting b.desk).2 }) := by
  unfold Bench.directory Write.place
  split <;> rfl

/-- A write renders its path and its text, and then puts the file on disk. -/
theorem write_eq (w : Write) (b : Bench) :
    b.write setting w = match w.rendering setting b.desk with
      | (.error e, desk) => (some (.template e), { b with desk })
      | (.ok (path, content), desk) =>
          match desk.files.output (.ofFlags w.preserve w.force) path content with
          | .error fault =>
              (some (.write path fault),
                { b with desk := { desk with files := desk.files.afterFailedWrite path } })
          | .ok (result, files) =>
              (none, { b with
                desk := { desk with files }, record := b.record.add path result }) := by
  unfold Bench.write Write.rendering Desk.write
  rw [directory_eq]
  rcases w.place setting b.desk with ⟨directory, placed⟩
  cases directory with
  | error e => rfl
  | ok directory =>
      dsimp only
      rcases placed.renderText setting.system w.name w.bindings with ⟨name, named⟩
      cases name with
      | error e => rfl
      | ok name =>
          dsimp only
          rcases named.render setting.system w.template w.bindings with ⟨content, last⟩
          cases content with
          | error e => rfl
          | ok content =>
              dsimp only
              cases last.files.output (.ofFlags w.preserve w.force)
                (Files.Path.join directory name) content <;> rfl

/-- What a write comes to is what it renders. -/
theorem deed?_eq (w : Write) (b : Bench) :
    b.deed? setting w = match (w.rendering setting b.desk).1 with
      | .error _ => none
      | .ok (path, content) => some ⟨w, path, content, b.desk.files⟩ := by
  unfold Bench.deed? Write.rendering
  rw [directory_eq]
  rcases w.place setting b.desk with ⟨directory, placed⟩
  cases directory with
  | error e => rfl
  | ok directory =>
      dsimp only
      rcases placed.renderText setting.system w.name w.bindings with ⟨name, named⟩
      cases name with
      | error e => rfl
      | ok name =>
          dsimp only
          rcases named.render setting.system w.template w.bindings with ⟨content, last⟩
          cases content <;> rfl

/-! ## Asking for a filter set -/

section Load

variable {registry : Registry} {name : String} {b after : Bench}

theorem load_repeated (h : name ∈ b.loaded) : b.load registry name = (none, b) := by
  unfold Bench.load
  rw [if_pos (List.contains_iff_mem.mpr h)]

/-- The first call for a registered name installs its set. -/
theorem load_registered (h : name ∉ b.loaded) {set : FilterSet}
    (hset : registry.plugin? name = some set) :
    b.load registry name = (none,
      { b with
        loaded := name :: b.loaded
        desk := { b.desk with engine := b.desk.engine.install set } }) := by
  unfold Bench.load Engine.installNamed
  rw [if_neg fun hmem => h (List.contains_iff_mem.mp hmem), hset]

/-- The first call for another name is refused, and the name is noted. -/
theorem load_unregistered (h : name ∉ b.loaded) (hset : registry.plugin? name = none) :
    b.load registry name =
      (some (.unknownFilterSet name), { b with loaded := name :: b.loaded }) := by
  unfold Bench.load Engine.installNamed
  rw [if_neg fun hmem => h (List.contains_iff_mem.mp hmem), hset]

/-- A call that succeeds repeats an earlier one, or installs the set of the name. -/
theorem cases_of_load (h : b.load registry name = (none, after)) :
    (name ∈ b.loaded ∧ after = b) ∨
      (name ∉ b.loaded ∧ ∃ set, registry.plugin? name = some set ∧ after =
        { b with
          loaded := name :: b.loaded
          desk := { b.desk with engine := b.desk.engine.install set } }) := by
  by_cases hmem : name ∈ b.loaded
  · rw [load_repeated hmem] at h
    cases h
    exact Or.inl ⟨hmem, rfl⟩
  · cases hset : registry.plugin? name with
    | none =>
        rw [load_unregistered hmem hset] at h
        cases h
    | some set =>
        rw [load_registered hmem hset] at h
        cases h
        exact Or.inr ⟨hmem, set, rfl, rfl⟩

/-- A call that fails is the first one for its name, which has no set. -/
theorem refused_of_load {f : Report.Failure} (h : b.load registry name = (some f, after)) :
    registry.plugin? name = none ∧ f = .unknownFilterSet name ∧
      after = { b with loaded := name :: b.loaded } := by
  by_cases hmem : name ∈ b.loaded
  · rw [load_repeated hmem] at h
    cases h
  · cases hset : registry.plugin? name with
    | none =>
        rw [load_unregistered hmem hset] at h
        cases h
        exact ⟨rfl, rfl, rfl⟩
    | some set =>
        rw [load_registered hmem hset] at h
        cases h

end Load

/-! ## One step -/

/-- A write that succeeds has rendered its file and put it on disk. -/
theorem rendered_of_write {w : Write} {b after : Bench} (h : b.write setting w = (none, after)) :
    ∃ path content desk result files, w.rendering setting b.desk = (.ok (path, content), desk) ∧
      b.desk.files.output (.ofFlags w.preserve w.force) path content = .ok (result, files) ∧
        after = { b with desk := { desk with files }, record := b.record.add path result } := by
  have hfiles := Write.rendering_files setting w b.desk
  rw [write_eq] at h
  rcases hrendering : w.rendering setting b.desk with ⟨r, desk⟩
  rw [hrendering] at h hfiles
  cases r with
  | error e => cases h
  | ok rendered =>
      obtain ⟨path, content⟩ := rendered
      dsimp only at h hfiles
      rw [hfiles] at h
      cases houtput : b.desk.files.output (.ofFlags w.preserve w.force) path content with
      | error fault => simp [houtput] at h
      | ok done =>
          obtain ⟨result, files⟩ := done
          simp only [houtput, Prod.mk.injEq, true_and] at h
          exact ⟨path, content, desk, result, files, rfl, houtput, h.symm⟩

/-- A write that succeeds is a deed, whose output gives the files after it. -/
theorem deed_of_write {w : Write} {b after : Bench} (h : b.write setting w = (none, after)) :
    ∃ d, b.deed? setting w = some d ∧ d.write = w ∧ d.before = b.desk.files ∧
      d.before.output d.overwrite d.path d.content = .ok (d.result, after.desk.files) := by
  obtain ⟨path, content, desk, result, files, hrendering, houtput, rfl⟩ := rendered_of_write h
  rw [deed?_eq, hrendering]
  refine ⟨_, rfl, rfl, rfl, ?_⟩
  have hresult := (Files.Tree.cases_of_output houtput).1
  subst hresult
  exact houtput

/-- A step that succeeds and writes nothing leaves the files alone. -/
theorem files_of_step {s : Step} {b after : Bench} (h : b.step setting s = (none, after))
    (hs : s.write? = none) : after.desk.files = b.desk.files := by
  cases s with
  | load filters =>
      rcases cases_of_load h with ⟨-, rfl⟩ | ⟨-, set, -, rfl⟩
      · rfl
      · rfl
  | warn message =>
      simp only [Bench.step, Prod.mk.injEq, true_and] at h
      exact h ▸ rfl
  | write w => simp [Step.write?] at hs
  | stop f => simp [Bench.step] at h

/-- What a step that succeeds has done is what it was to write. -/
theorem writes_of_step {s : Step} {b after : Bench} (h : b.step setting s = (none, after)) :
    (s.write?.bind (b.deed? setting)).toList.map (·.write) = s.write?.toList := by
  cases hs : s.write? with
  | none => rfl
  | some w =>
      obtain rfl := Step.eq_write hs
      obtain ⟨d, hd, rfl, -, -⟩ := deed_of_write h
      simp [hd]

/-- A step that succeeds leads by its deed, if it has one, from the files before it to those after
it. -/
theorem lead_of_step {s : Step} {b after : Bench} (h : b.step setting s = (none, after)) :
    Deed.Lead b.desk.files (s.write?.bind (b.deed? setting)).toList after.desk.files := by
  cases hs : s.write? with
  | none => exact files_of_step h hs
  | some w =>
      obtain rfl := Step.eq_write hs
      obtain ⟨d, hd, -, hbefore, houtput⟩ := deed_of_write h
      rw [hbefore] at houtput
      rw [Option.bind_some, hd]
      exact ⟨hbefore, after.desk.files, houtput, rfl⟩

/-! ## A run -/

theorem perform_of_step {s : Step} {b after : Bench} (h : b.step setting s = (none, after))
    (rest : Plan) : b.perform setting (s :: rest) = after.perform setting rest := by
  rw [perform, h]

theorem perform_of_failing {s : Step} {b after : Bench} {f : Failure}
    (h : b.step setting s = (some f, after)) (rest : Plan) :
    b.perform setting (s :: rest) = (some f, after) := by
  rw [perform, h]

theorem deeds_cons {s : Step} {b after : Bench} (h : b.step setting s = (none, after))
    (rest : Plan) : b.deeds setting (s :: rest) =
      (s.write?.bind (b.deed? setting)).toList ++ after.deeds setting rest := by
  rw [deeds, h]

/-- Induction over the steps of a run that succeeds. -/
@[elab_as_elim]
theorem perform_induction
    {motive : ∀ (p : Plan) (b : Bench), (b.perform setting p).1 = none → Prop}
    (nil : ∀ b, motive [] b rfl)
    (cons : ∀ s rest b after (hstep : b.step setting s = (none, after))
      (hrest : (after.perform setting rest).1 = none), motive rest after hrest →
        motive (s :: rest) b ((congrArg Prod.fst (perform_of_step hstep rest)).trans hrest))
    (p : Plan) (b : Bench) (h : (b.perform setting p).1 = none) : motive p b h := by
  induction p generalizing b with
  | nil => exact nil b
  | cons s rest ih =>
      rcases hstep : b.step setting s with ⟨f?, after⟩
      cases f? with
      | none =>
          have hrest : (after.perform setting rest).1 = none := by
            rwa [perform_of_step hstep] at h
          exact cons s rest b after hstep hrest (ih after hrest)
      | some f =>
          rw [perform_of_failing hstep] at h
          cases h

/-- A run that succeeds has done the writes of its plan, in order. -/
theorem writes_of_perform {p : Plan} {b : Bench} (h : (b.perform setting p).1 = none) :
    (b.deeds setting p).map (·.write) = p.filterMap Step.write? := by
  induction p, b, h using perform_induction with
  | nil b => rfl
  | cons s rest b after hstep hrest ih =>
      rw [deeds_cons hstep, List.map_append, writes_of_step hstep, ih]
      cases hs : s.write? <;> simp [hs]

/-- The deeds of a run that succeeds lead from the files before it to those after it. -/
theorem lead_of_perform {p : Plan} {b : Bench} (h : (b.perform setting p).1 = none) :
    Deed.Lead b.desk.files (b.deeds setting p) (b.perform setting p).2.desk.files := by
  induction p, b, h using perform_induction with
  | nil b => rfl
  | cons s rest b after hstep hrest ih =>
      rw [perform_of_step hstep, deeds_cons hstep]
      exact (lead_of_step hstep).append ih

/-- A run that succeeds has met no step that stops it. -/
theorem not_stop_of_perform {p : Plan} {f : Report.Failure} {b : Bench}
    (h : (b.perform setting p).1 = none) : .stop f ∉ p := by
  induction p, b, h using perform_induction with
  | nil b => exact List.not_mem_nil
  | cons s rest b after hstep hrest ih =>
      intro hmem
      rcases List.mem_cons.mp hmem with rfl | hmem
      · cases hstep
      · exact ih hmem

end Bench

/-! ## A small run -/

namespace Sample

/-- A model of one module with an interface. -/
def system : Model.System :=
  ⟨[{ name := "shop", version := ⟨1, 0⟩, interfaces := [{ name := "Cart" }] }]⟩

/-- A tree with a template and, elsewhere, a file that was edited by hand. -/
def files : Files.Tree :=
  ⟨[(["w", "tpl", "text.tpl"], .file (.text "generated")),
    (["w", "out", "kept.txt"], .file (.text "edited")),
    (["w", "tpl"], .directory), (["w", "out"], .directory), (["w"], .directory)], ["w"]⟩

/-- A bench on which one directory is searched for templates. -/
def bench : Bench := { desk := ⟨files, {}, Engine.new ["tpl"] {}⟩ }

/-- A scope that asks for the module, without features. -/
def scope : Scope where
  system := system
  modules := ["shop"]
  features := []
  force := false
  destination := "out"
  bindings := []

def setting : Setting := ⟨system, {}, "out"⟩

end Sample

end Stencil.Generate
