import Mathlib.Data.List.Basic
import Stencil.Prepare.Phases
import Stencil.Proofs.Model.TagChange
import Stencil.Proofs.Prepare.Supported
import Stencil.Proofs.Report.Notices

/-!
# What the preparation keeps

Annotations and settings change the tags of the nodes of a model, and what is drawn
from them.  The modules keep their names, their order and their types, so that the
check of types sees the types of the documents.  The phases tell the reports what they
find, and leave their active templates alone.
-/

namespace Stencil.Prepare

open Model
open Report (Reporter)

/-! ## What the phases do -/

/-- Findings are reported in order, each as one message. -/
theorem foldl_report (source : String) (found : List Report.Diagnostic) :
    ∀ r : Reporter, found.foldl (report source) r = r.tell (found.map (·.notice source)) := by
  induction found with
  | nil => exact fun r => r.tell_nil.symm
  | cons d rest ih =>
      intro r
      have hreport : report source r d = r.tell [d.notice source] := by
        unfold report Report.Diagnostic.notice Report.Diagnostic.isError
        cases d.severity <;> rfl
      rw [List.foldl_cons, ih, hreport, ← Reporter.tell_append]
      rfl

/-- A relation between a model with its reports and what becomes of them, which holds if the tags of
a node are changed or messages are logged, once or repeatedly. -/
structure Admits (R : System × Reporter → System × Reporter → Prop) : Prop where
  refl : ∀ p, R p p
  trans : ∀ {p q u}, R p q → R q u → R p u
  tags : ∀ s r a change, R (s, r) (s.modifyTags a change, r)
  told : ∀ s {r r' : Reporter}, r.Told r' → R (s, r) (s, r')

namespace Admits

variable {R : System × Reporter → System × Reporter → Prop}

theorem annotateEntry (h : Admits R) (origin : String) (a : Annotated) (entry : String × Json) :
    R (a.system, a.reporter)
      ((Prepare.annotateEntry origin a entry).system,
        (Prepare.annotateEntry origin a entry).reporter) := by
  unfold Prepare.annotateEntry
  dsimp only
  split
  · exact h.told _ (Reporter.told_warnAt ..)
  · split
    · exact h.tags ..
    · exact h.refl _
    · exact h.told _ (Reporter.told_warnAt ..)

theorem annotate (h : Admits R) (annotations : Members) (origin : String) (s : System)
    (reporter : Reporter) :
    R (s, reporter) ((Prepare.annotate annotations origin s reporter).system,
      (Prepare.annotate annotations origin s reporter).reporter) := by
  have hfold : ∀ a : Annotated, R (a.system, a.reporter)
      ((annotations.foldl (Prepare.annotateEntry origin) a).system,
        (annotations.foldl (Prepare.annotateEntry origin) a).reporter) := by
    induction annotations with
    | nil => exact fun a => h.refl _
    | cons entry rest ih => exact fun a => h.trans (h.annotateEntry origin a entry) (ih _)
  exact hfold ⟨s, 0, reporter⟩

theorem annotateFiles (h : Admits R) (t : Files.Tree) (files : List String) :
    ∀ d : Draft, R (d.system, d.reporter)
      ((Prepare.annotateFiles t files d).2.system,
        (Prepare.annotateFiles t files d).2.reporter) := by
  induction files with
  | nil => exact fun d => h.refl _
  | cons file rest ih =>
      intro d
      unfold Prepare.annotateFiles
      dsimp only
      split
      · exact h.refl _
      · split
        · exact h.refl _
        · refine h.trans ?_ (ih _)
          exact h.annotate ..

theorem checkModel (h : Admits R) (lints : List Lint) (d : Draft) :
    R (d.system, d.reporter)
      ((Prepare.checkModel lints d).2.system, (Prepare.checkModel lints d).2.reporter) := by
  unfold Prepare.checkModel
  split
  · exact h.refl _
  · dsimp only
    rw [foldl_report]
    split <;> exact h.told _ (Reporter.told_tell ..)

variable (hsettings : ∀ run s r, R (s, r) (configure run s, r))

include hsettings

theorem run (h : Admits R) (t : Files.Tree) (d : Draft) (p : Phase) :
    R (d.system, d.reporter) ((p.run t d).2.system, (p.run t d).2.reporter) := by
  cases p with
  | annotate files => exact h.annotateFiles t files d
  | tag settings => exact hsettings settings d.system d.reporter
  | validate lints => exact h.checkModel lints d

/-- Whatever phases prepare a model, and whether or not they succeed, all that they do is to change
tags, to draw settings from them and to log messages. -/
theorem runPhases (h : Admits R) (t : Files.Tree) (phases : List Phase) :
    ∀ d : Draft, R (d.system, d.reporter)
      ((Prepare.runPhases t phases d).2.system, (Prepare.runPhases t phases d).2.reporter) := by
  induction phases with
  | nil => exact fun d => h.refl _
  | cons p rest ih =>
      intro d
      have hrun := h.run hsettings t d p
      unfold Prepare.runPhases
      rcases hp : p.run t d with ⟨f?, next⟩
      rw [hp] at hrun
      cases f? with
      | some f => exact hrun
      | none => exact h.trans hrun (ih next)

end Admits

/-! ## What changes of tags and settings keep -/

section Kept

variable {α : Type} {keep : System → α}

theorem admits_kept (htags : ∀ s a change, keep (System.modifyTags s a change) = keep s) :
    Admits fun p q => keep q.1 = keep p.1 where
  refl _ := rfl
  trans h h' := h'.trans h
  tags s _ a change := htags s a change
  told _ _ _ _ := rfl

theorem kept_annotateEntry
    (htags : ∀ s a change, keep (System.modifyTags s a change) = keep s) (origin : String)
    (a : Annotated) (entry : String × Json) :
    keep (annotateEntry origin a entry).system = keep a.system :=
  (admits_kept htags).annotateEntry origin a entry

theorem kept_annotate (htags : ∀ s a change, keep (System.modifyTags s a change) = keep s)
    (annotations : Members) (origin : String) (s : System) (reporter : Reporter) :
    keep (annotate annotations origin s reporter).system = keep s :=
  (admits_kept htags).annotate annotations origin s reporter

theorem kept_run (htags : ∀ s a change, keep (System.modifyTags s a change) = keep s)
    (hsettings : ∀ run s, keep (configure run s) = keep s) (t : Files.Tree) (d : Draft)
    (p : Phase) : keep (p.run t d).2.system = keep d.system :=
  (admits_kept htags).run (fun run s _ => hsettings run s) t d p

/-- Whatever phases prepare a model, and whether or not they succeed, they keep what changes of
tags and settings keep. -/
theorem kept_runPhases (htags : ∀ s a change, keep (System.modifyTags s a change) = keep s)
    (hsettings : ∀ run s, keep (configure run s) = keep s) (t : Files.Tree)
    (phases : List Phase) (d : Draft) :
    keep (runPhases t phases d).2.system = keep d.system :=
  (admits_kept htags).runPhases (fun run s _ => hsettings run s) t phases d

end Kept

/-! ## Names -/

theorem name_modifyTags (m : Module) (change : Tags → Tags) (a : Address) :
    (m.modifyTags change a).name = m.name := by
  cases a <;> rfl

theorem names_modifyTags (s : System) (a : Address) (change : Tags → Tags) :
    (s.modifyTags a change).names = s.names := by
  unfold System.modifyTags System.names
  refine List.ext_getElem? fun i => ?_
  rw [List.getElem?_map, List.getElem?_map, List.getElem?_modify]
  by_cases hi : a.moduleIndex = i <;> cases s.modules[i]? <;> simp [hi, name_modifyTags]

theorem names_configure (run : RunSettings) (s : System) : (configure run s).names = s.names := by
  simp [configure, System.names, configureModule, Function.comp_def]

/-- The modules of a prepared model have the names and the order that they had before. -/
theorem names_runPhases (t : Files.Tree) (phases : List Phase) (d : Draft) :
    (runPhases t phases d).2.system.names = d.system.names :=
  kept_runPhases names_modifyTags names_configure t phases d

/-! ## Types -/

/-- The types of a system that have to be supported. -/
def allUsedTypes (s : System) : List (String × DataType) := s.modules.flatMap usedTypes

theorem usedTypes_untagged (m : Module) : usedTypes m.untagged = usedTypes m := by
  simp [usedTypes, Module.untagged, Interface.untagged, Property.untagged, Operation.untagged,
    Signal.untagged, Parameter.untagged, Struct.untagged, Field.untagged, List.flatMap_map,
    Function.comp_def]

theorem allUsedTypes_modifyTags (s : System) (a : Address) (change : Tags → Tags) :
    allUsedTypes (s.modifyTags a change) = allUsedTypes s := by
  have huntagged : ∀ s : System, allUsedTypes s = s.untagged.modules.flatMap usedTypes := by
    intro s
    simp [allUsedTypes, System.untagged, List.flatMap_map, usedTypes_untagged]
  rw [huntagged, System.untagged_modifyTags, ← huntagged]

theorem usedTypes_configureModule (run : RunSettings) (m : Module) :
    usedTypes (configureModule run m) = usedTypes m := by
  simp [usedTypes, configureModule, configureInterface, configureProperty, configureStruct,
    List.flatMap_map, Function.comp_def]

theorem allUsedTypes_configure (run : RunSettings) (s : System) :
    allUsedTypes (configure run s) = allUsedTypes s := by
  simp [allUsedTypes, configure, List.flatMap_map, usedTypes_configureModule]

theorem forall_allUsedTypes {s : System} :
    (∀ used ∈ allUsedTypes s, Supported used.2) ↔ ∀ m ∈ s.modules, m.AllTypes Supported := by
  unfold allUsedTypes
  rw [List.forall_mem_flatMap]
  exact forall₂_congr fun m _ => forall_usedTypes

theorem supported_of_checkModel {lints : List Lint} {d : Draft}
    (h : (checkModel lints d).1 = none) : ∀ m ∈ d.system.modules, m.AllTypes Supported := by
  unfold checkModel at h
  cases hcheck : checkSupportedTypes d.source d.system with
  | error f =>
      rw [hcheck] at h
      cases h
  | ok u => exact checkSupportedTypes_eq_ok.mp hcheck

/-- If the phases validate a model and succeed, then all types of the model are supported, in every
module of it. -/
theorem supported_of_runPhases {t : Files.Tree} {lints : List Lint} {phases : List Phase}
    (hvalidate : .validate lints ∈ phases) :
    ∀ {d : Draft}, (runPhases t phases d).1 = none →
      ∀ m ∈ d.system.modules, m.AllTypes Supported := by
  induction phases with
  | nil => cases hvalidate
  | cons p rest ih =>
      intro d h
      have hkept := kept_run allUsedTypes_modifyTags allUsedTypes_configure t d p
      unfold runPhases at h
      rcases hp : p.run t d with ⟨f?, next⟩
      rw [hp] at h hkept
      cases f? with
      | some f => cases h
      | none =>
          rcases List.mem_cons.mp hvalidate with rfl | hvalidate
          · exact supported_of_checkModel (congrArg Prod.fst hp)
          · have hnext := ih hvalidate h
            rwa [← forall_allUsedTypes, hkept, forall_allUsedTypes] at hnext

/-! ## Reports -/

theorem admits_told : Admits fun p q => p.2.Told q.2 where
  refl p := .refl p.2
  trans h h' := h.trans h'
  tags _ r _ _ := .refl r
  told _ _ _ h := h

/-- Whether or not the phases succeed, all that they do to the reports is to log messages. -/
theorem told_runPhases (t : Files.Tree) (phases : List Phase) (d : Draft) :
    d.reporter.Told (runPhases t phases d).2.reporter :=
  admits_told.runPhases (fun _ _ r => .refl r) t phases d

/-- The phases leave the active templates alone, whether or not they succeed. -/
theorem frames_runPhases (t : Files.Tree) (phases : List Phase) (d : Draft) :
    (runPhases t phases d).2.reporter.frames = d.reporter.frames :=
  (told_runPhases t phases d).frames

end Stencil.Prepare
