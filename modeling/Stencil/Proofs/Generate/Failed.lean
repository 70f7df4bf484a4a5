import Stencil.Proofs.Generate.Deed

/-!
# Runs that fail

A run that fails has performed the steps before the one that failed, and its deeds
are theirs.  A step fails before it changes a file, unless the writing itself fails.
-/

namespace Stencil.Generate

open Report Template

/-- The failures that a step can end with. -/
inductive Step.FailsWith : Step → Failure → Prop
  | stop (f : Failure) : FailsWith (.stop f) f
  | load (name : String) : FailsWith (.load name) (.unknownFilterSet name)
  | template (w : Write) (e : TemplateError) : FailsWith (.write w) (.template e)
  | output (w : Write) (path : String) (fault : Files.Fault) :
      FailsWith (.write w) (.write path fault)

namespace Bench

variable {setting : Setting}

/-- A run breaks off at a step: those before it have been performed, and their deeds are all. -/
structure BreaksOff (setting : Setting) (b : Bench) (p : Plan) (f : Failure) (done : Plan)
    (s : Step) (middle : Bench) : Prop where
  plan : ∃ rest, p = done ++ s :: rest
  performed : b.perform setting done = (none, middle)
  failed : middle.step setting s = (some f, (b.perform setting p).2)
  deeds : b.deeds setting p = b.deeds setting done

theorem exists_breaksOff {f : Failure} {p : Plan} :
    ∀ {b : Bench}, (b.perform setting p).1 = some f →
      ∃ done s middle, b.BreaksOff setting p f done s middle := by
  induction p with
  | nil =>
      intro b h
      cases h
  | cons s rest ih =>
      intro b h
      rcases hstep : b.step setting s with ⟨g, after⟩
      cases g with
      | some g =>
          rw [perform_of_failing hstep] at h
          cases h
          refine ⟨[], s, b, ⟨rest, rfl⟩, rfl, ?_, ?_⟩
          · rw [perform_of_failing hstep, hstep]
          · simp [deeds, hstep]
      | none =>
          rw [perform_of_step hstep] at h
          obtain ⟨done, stopped, middle, ⟨later, rfl⟩, hdone, hfailed, hdeeds⟩ := ih h
          refine ⟨s :: done, stopped, middle, ⟨later, rfl⟩, ?_, ?_, ?_⟩
          · rw [perform_of_step hstep, hdone]
          · rw [perform_of_step hstep]
            exact hfailed
          · rw [deeds_cons hstep, deeds_cons hstep, hdeeds]

/-! ## The step that fails -/

/-- A write that fails in a template, and not in the writing itself, leaves the files alone. -/
theorem cases_of_failing_write {w : Write} {b after : Bench} {f : Failure}
    (h : b.write setting w = (some f, after)) :
    (∃ e, f = .template e ∧ after.desk.files = b.desk.files) ∨
      ∃ path fault, f = .write path fault := by
  have hfiles := Write.rendering_files setting w b.desk
  rw [write_eq] at h
  rcases hrendering : w.rendering setting b.desk with ⟨r, desk⟩
  rw [hrendering] at h hfiles
  cases r with
  | error e =>
      cases h
      exact Or.inl ⟨e, rfl, hfiles⟩
  | ok rendered =>
      obtain ⟨path, content⟩ := rendered
      dsimp only at h
      split at h
      · rename_i fault hfault
        cases h
        exact Or.inr ⟨path, fault, rfl⟩
      · cases h

/-- A step that fails leaves the files alone, unless the writing itself has failed. -/
theorem failsWith_of_step {s : Step} {b after : Bench} {f : Failure}
    (h : b.step setting s = (some f, after)) :
    s.FailsWith f ∧ ((∀ path fault, f ≠ .write path fault) → after.desk.files = b.desk.files) := by
  cases s with
  | load name =>
      obtain ⟨-, rfl, rfl⟩ := refused_of_load h
      exact ⟨.load name, fun _ => rfl⟩
  | warn message => cases h
  | write w =>
      rcases cases_of_failing_write h with ⟨e, rfl, hfiles⟩ | ⟨path, fault, rfl⟩
      · exact ⟨.template w e, fun _ => hfiles⟩
      · exact ⟨.output w path fault, fun hwriting => absurd rfl (hwriting path fault)⟩
  | stop g =>
      cases h
      exact ⟨.stop f, fun _ => rfl⟩

/-! ## What the run leaves behind -/

variable {b : Bench} {p done : Plan} {s : Step} {f : Failure} {middle : Bench}

/-- A run that breaks off has done the writes before the step that failed. -/
theorem BreaksOff.writes (h : b.BreaksOff setting p f done s middle) :
    (b.deeds setting p).map (·.write) = done.filterMap Step.write? := by
  rw [h.deeds]
  exact writes_of_perform (congrArg Prod.fst h.performed)

/-- Unless the writing itself has failed, the deeds of a run that breaks off lead from the files
before it to those after it. -/
theorem BreaksOff.lead (h : b.BreaksOff setting p f done s middle)
    (hf : ∀ path fault, f ≠ .write path fault) :
    Deed.Lead b.desk.files (b.deeds setting p) (b.perform setting p).2.desk.files := by
  have hlead := lead_of_perform (congrArg Prod.fst h.performed)
  rw [h.performed] at hlead
  rw [h.deeds, (failsWith_of_step h.failed).2 hf]
  exact hlead

/-- The steps that a run has performed before it breaks off do not stop it. -/
theorem BreaksOff.not_stop (h : b.BreaksOff setting p f done s middle) (g : Failure) :
    .stop g ∉ done :=
  not_stop_of_perform (congrArg Prod.fst h.performed)

end Bench

end Stencil.Generate
