import Stencil.Proofs.Generate.FailedRequest
import Stencil.Proofs.Generate.PlainTemplates
import Stencil.Proofs.Generate.Repeated
import Stencil.Proofs.Generate.SameInput

/-!
# Requests that are made again

A request that has succeeded succeeds again on the files that it has left.  It reports
as many files and as many warnings, and the files stay as they are if the deeds that
are forced or not preserved have the last word at every location, and then only.
-/

namespace Stencil.Generate

open Files Template
open Rules (LegacyRules RuleDocument RuleSet)

/-! ## Forced writes -/

/-- The files of rule documents are forced if all files of the run are. -/
theorem force_of_documents {scope : Scope} {documents : List RuleDocument} {w : Write}
    (h : w ∈ writesOf (tour scope (.modern documents))) : w.force = scope.force := by
  rw [writesOf_tour] at h
  obtain ⟨⟨earlier, d⟩, -, h⟩ := List.mem_flatMap.mp h
  obtain ⟨⟨before, f⟩, -, h⟩ := List.mem_flatMap.mp h
  rcases List.mem_append.mp h with h | h
  · obtain ⟨target, -, rfl⟩ := List.mem_map.mp h
    rfl
  · obtain ⟨target, -, rfl⟩ := List.mem_map.mp h
    rfl

/-- The files of legacy rules are always forced. -/
theorem force_of_legacy {scope : Scope} {rules : LegacyRules} {w : Write}
    (h : w ∈ writesOf (tour scope (.legacy rules))) : w.force = true := by
  rw [writesOf_tour] at h
  obtain ⟨⟨past, v⟩, -, h⟩ := List.mem_flatMap.mp h
  obtain ⟨rule, -, rfl⟩ := List.mem_map.mp h
  rfl

/-! ## Requests -/

/-- The deeds of a generation that comes to its rules. -/
def Session.deeds (s : Session) (t : Tree) (r : Request) (i : Input) (draft : Prepare.Draft)
    (rules : RuleSet) : List Deed :=
  (s.bench t r i draft).deeds (s.setting r draft) (s.plan r i draft.system rules)

/-- Templates render deterministically, and no output file is a document, an annotations or a rules
file or lies in a directory that is scanned for documents or searched for templates. -/
structure Session.Undisturbed (s : Session) (t : Tree) (r : Request) (i : Input)
    (draft : Prepare.Draft) (rules : RuleSet) : Prop where
  apart : r.Apart t i.template (Deed.AtSome (s.deeds t r i draft rules))
  deterministic : (s.bench t r i draft).Deterministic (Deed.AtSome (s.deeds t r i draft rules))
    (templatePath i.template r.searchPath) (s.setting r draft) (s.plan r i draft.system rules)

theorem Deed.atSome_eq (deeds : List Deed) :
    Deed.AtSome deeds = (· ∈ deeds.map Deed.location) := by
  funext l
  exact propext List.mem_map.symm

section Requests

variable {s : Session} {t : Tree} {r : Request} {i : Input} {draft : Prepare.Draft}
  {rules : RuleSet} {record : Record}

/-- The deeds of a generation that succeeds lead from the files before it to those after it. -/
theorem Session.Reaches.lead (h : s.Reaches t r i draft rules)
    (hrecord : (s.generate t r).record = .ok record) :
    Deed.Lead t (s.deeds t r i draft rules) (s.generate t r).files := by
  rw [h.generate_eq]
  exact Bench.lead_of_perform (h.succeeded hrecord).1

/-- The writes of a generation that succeeds are those of a tour. -/
theorem Session.Reaches.writes (h : s.Reaches t r i draft rules)
    (hrecord : (s.generate t r).record = .ok record) :
    (s.deeds t r i draft rules).map (·.write) =
      writesOf (tour (s.scope r i draft.system) rules) := by
  have hsucceeds := (h.succeeded hrecord).1
  have hwrites := Bench.writes_of_perform hsucceeds
  rw [Session.plan_eq_tour hsucceeds] at hwrites
  change _ = writesOf (s.ownFilters i ++ tour (s.scope r i draft.system) rules) at hwrites
  rw [writesOf_append, Session.writesOf_ownFilters, List.nil_append] at hwrites
  rw [← hwrites, ← Session.plan_eq_tour hsucceeds]
  rfl

theorem Session.Reaches.exists_record (h : s.Reaches t r i draft rules)
    (hsucceeds : ((s.bench t r i draft).perform (s.setting r draft)
      (s.plan r i draft.system rules)).1 = none) :
    ∃ record, (s.generate t r).record = .ok record := by
  rw [h.generate_eq]
  dsimp only
  rw [hsucceeds]
  exact ⟨_, rfl⟩

/-- The record of a generation that succeeds holds its deeds. -/
theorem Session.Reaches.record_eq (h : s.Reaches t r i draft rules)
    (hrecord : (s.generate t r).record = .ok record) :
    record = { Record.addAll {} (s.deeds t r i draft rules) with warnings := record.warnings } := by
  obtain ⟨hsucceeds, rfl⟩ := h.succeeded hrecord
  dsimp only
  rw [Bench.record_of_perform hsucceeds]
  rfl

theorem Session.Reaches.total (h : s.Reaches t r i draft rules)
    (hrecord : (s.generate t r).record = .ok record) :
    record.total = (s.deeds t r i draft rules).length := by
  rw [h.record_eq hrecord]
  exact (Record.total_addAll _ {}).trans (Nat.zero_add _)

/-- A request that has succeeded is retraced on the files that it has left. -/
theorem Session.Reaches.retraces (h : s.Reaches t r i draft rules) (ht : t.Proper)
    (hrecord : (s.generate t r).record = .ok record) (hsame : s.Undisturbed t r i draft rules) :
    let u := (s.generate t r).files
    s.Reaches u r i draft rules ∧
      Bench.Retraces (Deed.AtSome (s.deeds t r i draft rules)) (s.setting r draft)
        (s.bench t r i draft) (s.bench u r i draft) (s.plan r i draft.system rules) := by
  intro u
  have hlead := h.lead hrecord
  have hoverlay := Deed.overlay_of_lead hlead
  have hu : u.Proper := Deed.proper_of_lead hlead ht
  refine ⟨h.overlay hoverlay ht hu hsame.apart, ?_⟩
  refine Bench.retraces_of_perform ht.toRooted hsame.apart.faithful ⟨rfl, rfl⟩
    (h.succeeded hrecord).1 hsame.deterministic (Tree.Overlay.refl _) hoverlay hu.toRooted ?_
  exact fun d hd => ⟨⟨d, hd, rfl⟩, Deed.foundIn_of_lead hlead d hd⟩

end Requests

/-- A request that has succeeded succeeds again on the files that it has left, with as many files
and as many warnings, if templates render deterministically and nothing that it reads is among its
output files.  The files stay as they are exactly if the binding deeds have the last word.  They
have it under legacy rules, if no path turns back, and if no two files are the same; in this last
case rule documents that are not forced write nothing again. -/
theorem generate_again (s : Session) (t : Tree) (r : Request) (ht : t.Proper) (record : Record)
    (hrecord : (s.generate t r).record = .ok record) :
    ∃ i draft rules, s.Reaches t r i draft rules ∧ (s.Undisturbed t r i draft rules →
      let deeds := s.deeds t r i draft rules
      let again := s.generate (s.generate t r).files r
      ∃ second, again.record = .ok second ∧ second.total = record.total ∧
        second.warnings = record.warnings ∧
        ((∀ l, again.files.get? l = (s.generate t r).files.get? l) ↔ Deed.BindingLast deeds) ∧
        ((∃ legacy, rules = .legacy legacy) → Deed.BindingLast deeds) ∧
        ((∀ d ∈ deeds, Path.Descends d.path) → Deed.BindingLast deeds) ∧
        ((deeds.map Deed.location).Nodup → Deed.BindingLast deeds ∧
          ((∃ documents, rules = .modern documents) → r.force = false →
            second.written = []))) := by
  obtain ⟨i, draft, rules, hreaches, -⟩ := Session.exists_perform_of_generate hrecord
  refine ⟨i, draft, rules, hreaches, fun hsame => ?_⟩
  intro deeds again
  have hlead := hreaches.lead hrecord
  obtain ⟨hagain, hretraces⟩ := hreaches.retraces ht hrecord hsame
  obtain ⟨second, hsecond⟩ := hagain.exists_record hretraces.succeeds
  have hleadAgain := hagain.lead hsecond
  have hwrites : ∀ d ∈ deeds, d.write ∈ writesOf (tour (s.scope r i draft.system) rules) := by
    intro d hd
    rw [← hreaches.writes hrecord]
    exact List.mem_map_of_mem hd
  refine ⟨second, hsecond, ?_, ?_, ?_, ?_, ?_, fun hnodup => ⟨?_, ?_⟩⟩
  · rw [hagain.total hsecond, hreaches.total hrecord]
    exact hretraces.deeds.length_eq.symm
  · rw [(hagain.succeeded hsecond).2, (hreaches.succeeded hrecord).2]
    exact congrArg (·.reporter.warnings) hretraces.twins.desk
  · have hrewrites :
        Tree.Rewrites (Deed.AtSome deeds) (s.generate t r).files again.files := by
      change Tree.Rewrites _ _ (s.generate (s.generate t r).files r).files
      rw [hagain.generate_eq]
      exact hretraces.rewrites
    exact Deed.get?_again_iff hlead hleadAgain hretraces.deeds hrewrites
  · rintro ⟨legacy, rfl⟩
    refine Deed.bindingLast_of_replaces fun d hd _ => ?_
    simp [Deed.binding, force_of_legacy (hwrites d hd)]
  · exact fun hpaths => Deed.bindingLast_of_replaces (Deed.binding_of_lead hlead ht.toRooted hpaths)
  · exact Deed.bindingLast_of_nodup hnodup
  · rintro ⟨documents, rfl⟩ hforce
    rw [hagain.record_eq hsecond]
    refine Record.written_addAll (Deed.result_again hlead hleadAgain hretraces.deeds hnodup ?_)
    exact fun d hd => (force_of_documents (hwrites d hd)).trans hforce

namespace Sample

/-- A tree with a template for a file of the module.  It may ask to preserve the same file by a path
that turns back from a directory which is not there. -/
def shop (turning : Bool) : Tree :=
  ⟨[(["w", "a.yaml"], .file (.text "module: a\n")),
    (["w", "tpl", "text.yaml"], .file (.text
      ("module:\n  documents:\n    user.txt: g.tpl\n"
        ++ if turning then "  preserve:\n    fresh/../user.txt: p.tpl\n" else ""))),
    (["w", "tpl", "text", "g.tpl"], .file (.text "generated")),
    (["w", "tpl", "text", "p.tpl"], .file (.text "prepared")),
    (["w", "tpl", "text"], .directory), (["w", "tpl"], .directory), (["w"], .directory)], ["w"]⟩

/-- Where the one file is that the templates are for. -/
def userFile : Location := ["w", "out", "user.txt"]

theorem shop_succeeds : ∀ turning, (session.generate (shop turning) plainRequest).record =
    .ok { written := "out/user.txt" :: if turning then ["out/fresh/../user.txt"] else [] } := by
  decide +kernel

theorem shop_proper (turning : Bool) : (shop turning).Proper := by
  refine Tree.proper_of_entries rfl ?_
  cases turning <;> decide +kernel

/-- What the request comes to, by computation. -/
theorem shop_reach? : ∀ turning, ((plainRequest.reach? (shop turning)).all fun x =>
    decide (x.1.template = "tpl/text") &&
      ((match x.2.2 with
        | .modern _ => true
        | .legacy _ => false) &&
      (decide ((session.deeds (shop turning) plainRequest x.1 x.2.1 x.2.2).map Deed.location =
        userFile :: if turning then [userFile] else []) &&
      (session.bench (shop turning) plainRequest x.1 x.2.1).plainOn [userFile]
        (templatePath x.1.template plainRequest.searchPath) (session.setting plainRequest x.2.1)
        (session.plan plainRequest x.1 x.2.1.system x.2.2)))) = true := by
  decide +kernel

theorem shop_apart (turning : Bool) :
    plainRequest.Apart (shop turning) "tpl/text" (· ∈ [userFile]) where
  documents := by cases turning <;> decide +kernel
  scanned := by
    have hfile : ∀ path ∈ plainRequest.imports ++ plainRequest.sources,
        (shop turning).isDirectory path = false := by
      cases turning <;> decide +kernel
    intro path hpath hdir
    rw [hfile path hpath] at hdir
    cases hdir
  annotations := fun file hfile => by cases hfile
  rules := by cases turning <;> decide +kernel
  searched := by
    have hsearch : ∀ dir ∈ plainRequest.searchPath, (shop turning).location dir = ["w", "tpl"] := by
      cases turning <;> decide +kernel
    intro dir hdir s
    simp [hsearch dir hdir, userFile]
  faithful := by
    have hpaths : ∀ dir ∈ templatePath "tpl/text" plainRequest.searchPath,
        Component.parent ∉ Path.components dir := by
      decide +kernel
    exact fun dir hdir => (shop_proper turning).toRooted.faithful (hpaths dir hdir)

section Shop

variable {turning : Bool} {i : Input} {draft : Prepare.Draft} {rules : RuleSet}
  (h : session.Reaches (shop turning) plainRequest i draft rules)

include h

theorem shop_facts : i.template = "tpl/text" ∧ (∃ documents, rules = .modern documents) ∧
    (session.deeds (shop turning) plainRequest i draft rules).map Deed.location =
      (userFile :: if turning then [userFile] else []) ∧
    (session.bench (shop turning) plainRequest i draft).plainOn [userFile]
      (templatePath i.template plainRequest.searchPath) (session.setting plainRequest draft)
      (session.plan plainRequest i draft.system rules) = true := by
  have hfacts := shop_reach? turning
  rw [h.reach?_eq, Option.all_some] at hfacts
  simp only [Bool.and_eq_true, decide_eq_true_eq] at hfacts
  obtain ⟨htemplate, hmodern, hlocations, hplain⟩ := hfacts
  refine ⟨htemplate, ?_, hlocations, hplain⟩
  cases rules with
  | modern documents => exact ⟨documents, rfl⟩
  | legacy rules => cases hmodern

/-- Nothing that the request reads is among its files. -/
theorem shop_undisturbed : session.Undisturbed (shop turning) plainRequest i draft rules := by
  obtain ⟨htemplate, -, hlocations, hplain⟩ := shop_facts h
  have hat : Deed.AtSome (session.deeds (shop turning) plainRequest i draft rules) =
      (· ∈ [userFile]) := by
    rw [Deed.atSome_eq, hlocations]
    funext l
    cases turning <;> simp
  constructor
  · rw [hat, htemplate]
    exact shop_apart turning
  · rw [hat]
    exact Bench.deterministic_of_plain (h.succeeded (shop_succeeds turning)).1 hplain

end Shop

end Sample

/-- A file that is generated once is there and the same when it is generated again. -/
theorem generate_again_shop :
    (Sample.shop false).Proper ∧
      (Sample.session.generate (Sample.shop false) Sample.plainRequest).record =
        .ok { written := ["out/user.txt"] } ∧
      let first := Sample.session.generate (Sample.shop false) Sample.plainRequest
      let again := Sample.session.generate first.files Sample.plainRequest
      ∃ second, again.record = .ok second ∧ second.total = 1 ∧ second.written = [] ∧
        ∀ l, again.files.get? l = first.files.get? l := by
  have hproper := Sample.shop_proper false
  have hrecord := Sample.shop_succeeds false
  refine ⟨hproper, hrecord, ?_⟩
  obtain ⟨i, draft, rules, hreaches, hagain⟩ :=
    generate_again Sample.session (Sample.shop false) Sample.plainRequest hproper _ hrecord
  obtain ⟨-, hmodern, hlocations, -⟩ := Sample.shop_facts hreaches
  obtain ⟨second, hsecond, htotal, -, hfiles, -, -, hdistinct⟩ :=
    hagain (Sample.shop_undisturbed hreaches)
  have hnodup : ((Sample.session.deeds (Sample.shop false) Sample.plainRequest i draft
      rules).map Deed.location).Nodup := by
    simp [hlocations]
  obtain ⟨hlast, hwritten⟩ := hdistinct hnodup
  exact ⟨second, hsecond, htotal, hwritten hmodern rfl, hfiles.mpr hlast⟩

/-- A preserved file whose path turns back from a missing directory is written over the generated
one, and the other way round when the request is made again. -/
theorem not_files_eq_again :
    ¬ ∀ (s : Session) (t : Tree) (r : Request) (record : Record), t.Proper →
      (s.generate t r).record = .ok record →
      (∀ i draft rules, s.Reaches t r i draft rules → s.Undisturbed t r i draft rules) →
      ∀ l, (s.generate (s.generate t r).files r).files.get? l =
        (s.generate t r).files.get? l := by
  intro hclaim
  have hsame := hclaim Sample.session (Sample.shop true) Sample.plainRequest _
    (Sample.shop_proper true) (Sample.shop_succeeds true)
    (fun _ _ _ h => Sample.shop_undisturbed h) Sample.userFile
  exact absurd hsame (by decide +kernel)

end Stencil.Generate
