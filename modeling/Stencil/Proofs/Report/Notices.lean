import Stencil.Report.Diagnostic

/-!
# Messages and their count

Reports count the warnings that they log, and nothing else.  Whatever is told to them
adds to the log and to the count alike, so that the two go together as long as they
did when the run began.
-/

namespace Stencil.Report

/-- The message that is logged for a finding about a source file. -/
def Diagnostic.notice (source : String) (d : Diagnostic) : Notice :=
  match d.severity with
  | .error => .error source d.placed
  | .warning => .warning (some source) d.placed

/-- The messages for findings count as many warnings as there are among these. -/
theorem countP_notice (source : String) (found : List Diagnostic) :
    (found.map (·.notice source)).countP Notice.isWarning =
      found.countP (·.severity = .warning) := by
  rw [List.countP_map]
  refine List.countP_congr fun d _ => ?_
  obtain ⟨severity, lint, message, location⟩ := d
  cases severity <;> simp [Diagnostic.notice, Notice.isWarning]

namespace Reporter

/-- The reports after some messages. -/
def tell (r : Reporter) (notices : List Notice) : Reporter :=
  { r with
    warnings := r.warnings + notices.countP Notice.isWarning
    log := r.log ++ notices }

theorem tell_nil (r : Reporter) : r.tell [] = r := by
  rw [tell, List.append_nil]
  rfl

theorem tell_append (r : Reporter) (first second : List Notice) :
    r.tell (first ++ second) = (r.tell first).tell second := by
  simp only [tell, List.countP_append, List.append_assoc, Nat.add_assoc]

/-- The reports are those from before, with messages added. -/
def Told (before after : Reporter) : Prop := ∃ notices, after = before.tell notices

theorem Told.refl (r : Reporter) : r.Told r := ⟨[], r.tell_nil.symm⟩

theorem Told.trans {r s t : Reporter} (h : r.Told s) (h' : s.Told t) : r.Told t := by
  obtain ⟨first, rfl⟩ := h
  obtain ⟨second, rfl⟩ := h'
  exact ⟨first ++ second, (r.tell_append first second).symm⟩

theorem told_tell (r : Reporter) (notices : List Notice) : r.Told (r.tell notices) := ⟨notices, rfl⟩

theorem told_warnAt (place : Option String) (message : String) (r : Reporter) :
    r.Told (r.warnAt place message) :=
  r.told_tell [.warning place message]

/-- Messages leave the active templates as they are. -/
theorem Told.frames {r s : Reporter} (h : r.Told s) : s.frames = r.frames := by
  obtain ⟨notices, rfl⟩ := h
  rfl

/-- As many warnings are counted as there are in the log. -/
def Accurate (r : Reporter) : Prop := r.warnings = r.log.countP Notice.isWarning

/-- Messages keep the count of the warnings right. -/
theorem Told.accurate {r s : Reporter} (h : r.Told s) (hr : r.Accurate) : s.Accurate := by
  obtain ⟨notices, rfl⟩ := h
  change r.warnings + notices.countP Notice.isWarning = (r.log ++ notices).countP Notice.isWarning
  rw [List.countP_append, hr]

end Reporter

end Stencil.Report
