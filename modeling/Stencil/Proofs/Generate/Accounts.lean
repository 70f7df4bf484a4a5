import Stencil.Proofs.Generate.Regenerate

/-!
# What the record of a run accounts for

A generation that succeeds has every file on record that it has put on disk, once and
under what became of it, and counts the warnings in its log.  The count starts anew
with every request: it has the warnings of the preparation and those of the rules and
the templates, and none of an earlier request.
-/

namespace Stencil.Report

/-- Warnings are messages. -/
theorem Reporter.Warned.told {r s : Reporter} (h : r.Warned s) : r.Told s := by
  obtain ⟨notes, rfl⟩ := h
  induction notes generalizing r with
  | nil => exact .refl r
  | cons note rest ih => exact (Reporter.told_warnAt note.1 note.2 r).trans ih

end Stencil.Report

namespace Stencil.Generate

open Files Report Template

/-! ## Records -/

namespace Record

/-- The files on record for an outcome. -/
def paths (r : Record) : WriteResult → List String
  | .written => r.written
  | .unchanged => r.unchanged
  | .preserved => r.preserved

/-- A file is put on record for its outcome, and for no other one. -/
theorem paths_add (r : Record) (path : String) (result outcome : WriteResult) :
    (r.add path result).paths outcome =
      r.paths outcome ++ if result = outcome then [path] else [] := by
  cases result <;> cases outcome <;> simp [add, paths]

theorem paths_addAll (outcome : WriteResult) (deeds : List Deed) : ∀ r : Record,
    (r.addAll deeds).paths outcome =
      r.paths outcome ++ (deeds.filter (·.result = outcome)).map (·.path) := by
  induction deeds with
  | nil => exact fun r => (List.append_nil _).symm
  | cons d rest ih =>
      intro r
      have hrest : ((r.add d.path d.result).addAll rest).paths outcome =
          (r.paths outcome ++ if d.result = outcome then [d.path] else []) ++
            (rest.filter (·.result = outcome)).map (·.path) := by
        rw [ih, paths_add]
      change ((r.add d.path d.result).addAll rest).paths outcome = _
      rw [hrest, List.append_assoc, List.filter_cons]
      by_cases hresult : d.result = outcome <;> simp [hresult]

end Record

/-! ## Requests -/

/-- The files after some requests have been made in turn. -/
def Session.filesAfter (s : Session) (t : Tree) : List Request → Tree
  | [] => t
  | r :: rest => s.filesAfter (s.generate t r).files rest

section Requests

variable {s : Session} {t : Tree} {r : Request} {i : Input} {draft : Prepare.Draft}
  {rules : Rules.RuleSet} {record : Record}

/-- The deeds of a generation that succeeds are on record for what became of their files. -/
theorem Session.Reaches.paths (h : s.Reaches t r i draft rules)
    (hrecord : (s.generate t r).record = .ok record) (outcome : WriteResult) :
    record.paths outcome =
      ((s.deeds t r i draft rules).filter (·.result = outcome)).map (·.path) := by
  have hpaths := Record.paths_addAll outcome (s.deeds t r i draft rules) {}
  have hnone : Record.paths {} outcome = [] := by cases outcome <;> rfl
  rw [hnone, List.nil_append] at hpaths
  rw [h.record_eq hrecord, ← hpaths]
  cases outcome <;> rfl

/-- The preparation begins with empty reports, so that it counts what it logs. -/
theorem Session.Reaches.accurate_draft (h : s.Reaches t r i draft rules) :
    draft.reporter.Accurate := by
  have htold := Prepare.told_runPhases t r.phases i.draft
  rw [h.prepared] at htold
  exact htold.accurate rfl

/-- A generation goes on with the reports of its preparation. -/
theorem Session.Reaches.told (h : s.Reaches t r i draft rules)
    (hrecord : (s.generate t r).record = .ok record) :
    ∃ notices, (s.generate t r).log = draft.reporter.log ++ notices ∧
      record.warnings = draft.reporter.warnings + notices.countP Notice.isWarning := by
  have hwarned := Bench.warned_perform (s.setting r draft) (s.plan r i draft.system rules)
    (s.bench t r i draft)
  obtain ⟨notices, hlast⟩ := hwarned.told
  obtain ⟨-, rfl⟩ := h.succeeded hrecord
  refine ⟨notices, ?_, ?_⟩
  · rw [h.generate_eq]
    exact congrArg Reporter.log hlast
  · exact congrArg Reporter.warnings hlast

end Requests

/-- The record of a generation that succeeds accounts for all that it has done, whatever requests
have been made in the session before.  Its deeds are the writes that the rules ask for, and lead
from the files before it to those after it.  Each of them is on record once, in order, for what
became of its file.  The warnings on record are those in the log of this generation: those of the
preparation, and those of the rules and the templates. -/
theorem record_accounts (s : Session) (t : Tree) (earlier : List Request) (r : Request)
    (record : Record) (hrecord : (s.generate (s.filesAfter t earlier) r).record = .ok record) :
    let start := s.filesAfter t earlier
    let result := s.generate start r
    ∃ i draft rules, s.Reaches start r i draft rules ∧
      let deeds := s.deeds start r i draft rules
      deeds.map (·.write) = writesOf (tour (s.scope r i draft.system) rules) ∧
        Deed.Lead start deeds result.files ∧
        (∀ outcome, record.paths outcome =
          (deeds.filter (·.result = outcome)).map (·.path)) ∧
        record.total = deeds.length ∧
        record.warnings = result.log.countP Notice.isWarning ∧
        ∃ performed, result.log = draft.reporter.log ++ performed ∧
          record.warnings = draft.reporter.log.countP Notice.isWarning +
            performed.countP Notice.isWarning := by
  intro start result
  obtain ⟨i, draft, rules, hreaches, -⟩ := Session.exists_perform_of_generate hrecord
  obtain ⟨performed, hlog, hwarnings⟩ := hreaches.told hrecord
  have hprepared : draft.reporter.warnings = draft.reporter.log.countP Notice.isWarning :=
    hreaches.accurate_draft
  rw [hprepared] at hwarnings
  refine ⟨i, draft, rules, hreaches, hreaches.writes hrecord, hreaches.lead hrecord,
    hreaches.paths hrecord, hreaches.total hrecord, ?_, performed, hlog, hwarnings⟩
  have hall : result.log = draft.reporter.log ++ performed := hlog
  rw [hall, List.countP_append, hwarnings]

namespace Sample

/-- A tree with a template that warns, for a file that is generated and one that has been edited by
hand.  The annotations are for a symbol that is not there. -/
def noisy : Tree :=
  ⟨[(["w", "a.yaml"], .file (.text "module: a\n")),
    (["w", "notes.yaml"], .file (.text "a.Gone:\n  note: old\n")),
    (["w", "tpl", "text.yaml"], .file (.text
      "module:\n  documents:\n    made.txt: g.tpl\n  preserve:\n    user.txt: g.tpl\n")),
    (["w", "tpl", "text", "g.tpl"], .file (.text "\x7b\x7b warning('old') \x7d\x7dgenerated")),
    (["w", "out", "user.txt"], .file (.text "edited")),
    (["w", "out"], .directory), (["w", "tpl", "text"], .directory), (["w", "tpl"], .directory),
    (["w"], .directory)], ["w"]⟩

def noisyRequest : Request := { plainRequest with annotations := ["notes.yaml"] }

theorem noisy_again :
    (session.generate (session.filesAfter noisy [noisyRequest]) noisyRequest).record =
      .ok { unchanged := ["out/made.txt"], preserved := ["out/user.txt"], warnings := 3 } := by
  decide +kernel

end Sample

/-- The second of two requests finds the files of the first, and counts its own warnings only. -/
theorem record_accounts_again :
    let files := Sample.session.filesAfter Sample.noisy [Sample.noisyRequest]
    let again := Sample.session.generate files Sample.noisyRequest
    again.record =
        .ok { unchanged := ["out/made.txt"], preserved := ["out/user.txt"], warnings := 3 } ∧
      again.log.countP Notice.isWarning = 3 ∧
      ∃ deeds, Deed.Lead files deeds again.files ∧ deeds.length = 2 := by
  intro files again
  refine ⟨Sample.noisy_again, ?_⟩
  obtain ⟨i, draft, rules, -, -, hlead, -, htotal, hwarnings, -⟩ := record_accounts Sample.session
    Sample.noisy [Sample.noisyRequest] Sample.noisyRequest _ Sample.noisy_again
  exact ⟨hwarnings.symm, _, hlead, htotal.symm⟩

end Stencil.Generate
