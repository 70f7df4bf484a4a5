import Stencil.Proofs.Document.Collected
import Stencil.Proofs.Files.Volumes
import Stencil.Proofs.Generate.Stages

/-!
# Requests whose documents stay

What a request reads is its documents, its annotations, the rules of its template and
the directories in which templates are looked for.  If none of these is touched, then
the request comes to the same model and the same rules, whatever else was written.
-/

namespace Stencil.Generate

open Files Report
open Files.Tree (Overlay)
open Files.Path (join)

/-- Locations are apart from what a request reads: no document, annotations or rules file is at one
of them, and none of them lies in a directory that is scanned for documents or is searched for
templates.  The directories of templates are faithful: none of their paths turns back behind a
directory that is missing although something stands where it leads. -/
structure Request.Apart (r : Request) (t : Tree) (template : String) (at_ : Location → Prop) :
    Prop where
  documents : ∀ path ∈ Request.expand t (r.imports ++ r.sources), ¬ at_ (t.location path)
  scanned : ∀ path ∈ r.imports ++ r.sources, t.isDirectory path = true →
    ∀ l, at_ l → ¬ t.location path <+: l
  annotations : ∀ file ∈ r.annotations, ¬ at_ (t.location (Prepare.absolutePath t file))
  rules : ¬ at_ (t.location (Rules.rulesPath template))
  searched : ∀ dir ∈ r.searchPath, ∀ s, ¬ at_ (t.location dir ++ [s])
  faithful : ∀ dir ∈ templatePath template r.searchPath, t.Faithful dir

variable {t u : Tree} {at_ : Location → Prop}

/-! ## The catalogue -/

/-- A directory that a faithful path leads to is denoted by it. -/
theorem place_of_faithful {dir : String} (hdir : t.Faithful dir) (hne : dir ≠ "")
    (hget : t.get? (t.location dir) = some .directory) :
    t.place dir = .ok (.found (t.location dir) .directory) := by
  cases hwalk : t.walk t.working (Path.components dir) with
  | error f =>
      rw [hdir f hwalk] at hget
      cases hget
  | ok p =>
      have hat := Tree.isAt_of_walk hwalk
      cases p with
      | free m =>
          rw [show t.get? (t.location dir) = none from hat.2.2] at hget
          cases hget
      | found m e =>
          have hentry : e = .directory := by
            rw [show t.get? (t.location dir) = some e from hat.2] at hget
            exact Option.some.inj hget
          have hm : m = t.location dir := hat.1
          rw [hentry, hm] at hwalk
          exact Tree.place_eq_found.mpr ⟨hne, hwalk, by simp⟩

/-- What exists is not lost. -/
theorem exists_overlay (h : Overlay at_ t u) {path : String} (hexists : t.exists_ path = true) :
    u.exists_ path = true := by
  obtain ⟨e, hplace⟩ := Tree.exists_place_of_exists hexists
  obtain ⟨e', -, hplaced⟩ := h.place hplace
  simp [Tree.exists_, Document.find?_of_place hplaced]

section Catalogue

variable (h : Overlay at_ t u) (ht : t.Proper) (hu : u.Proper)

include h ht hu

/-- A directory that is searched has the templates that it had. -/
theorem templateNames_overlay {dir : String} (hdir : t.Faithful dir)
    (hapart : ∀ s, ¬ at_ (t.location dir ++ [s])) : templateNames u dir = templateNames t dir := by
  have hfiles : ∀ file, (file ∈ ((u : Volume).list? dir).getD [] ∧
        (u : Volume).isFile dir file = true) ↔
      (file ∈ ((t : Volume).list? dir).getD [] ∧ (t : Volume).isFile dir file = true) := by
    intro file
    rw [Volume.listed_file_iff hu, Volume.listed_file_iff ht]
    cases file with
    | broken name => simp
    | text s =>
        simp only [Volume.tree_ofTree, Volume.get?_ofTree, h.location]
        constructor
        · rintro ⟨hplace, c, hc⟩
          have hbelow := h.file_below hc (hapart s)
          have hdirectory := ht.above (t.location dir) s (by simp [hbelow])
          have hne := (Tree.place_eq_found.mp hplace).1
          exact ⟨place_of_faithful hdir hne hdirectory, c, hbelow⟩
        · rintro ⟨hplace, c, hc⟩
          obtain ⟨c', hc', -⟩ := h.file hc
          exact ⟨h.place_directory hplace, c', hc'⟩
  unfold templateNames rulesStems
  refine sortTexts_congr fun name => ?_
  simp only [List.mem_filterMap, List.mem_filter, Bool.and_eq_true]
  refine exists_congr fun file => and_congr_left fun _ => ?_
  rw [← and_assoc, ← and_assoc, hfiles file]

theorem catalogue_overlay {search : List String} (hfaithful : ∀ dir ∈ search, t.Faithful dir)
    (hapart : ∀ dir ∈ search, ∀ s, ¬ at_ (t.location dir ++ [s])) :
    catalogue u search = catalogue t search := by
  have hall : (search.flatMap fun dir =>
      (templateNames u dir).map fun name => (name, join dir name)) =
        search.flatMap fun dir => (templateNames t dir).map fun name => (name, join dir name) := by
    refine List.flatMap_congr fun dir hdir => ?_
    rw [templateNames_overlay h ht hu (hfaithful dir hdir) (hapart dir hdir)]
  unfold catalogue
  rw [hall]

theorem templateDirectory_overlay {template found : String} {search : List String}
    (hfaithful : ∀ dir ∈ search, t.Faithful dir)
    (hapart : ∀ dir ∈ search, ∀ s, ¬ at_ (t.location dir ++ [s]))
    (hfound : templateDirectory t template search = .ok found) :
    templateDirectory u template search = .ok found := by
  unfold templateDirectory at hfound ⊢
  rw [catalogue_overlay h ht hu hfaithful hapart]
  dsimp only at hfound ⊢
  split at hfound
  · exact hfound
  · split at hfound
    · rename_i hexists
      exact (if_pos (exists_overlay h hexists)).trans hfound
    · cases hfound

end Catalogue

/-! ## Documents -/

theorem exists_readText_of_load {paths : List String} {system : Model.System}
    (h : Document.load t paths = .ok system) : ∀ p ∈ paths, ∃ s, t.readText p = .ok s := by
  intro p hp
  obtain ⟨sources, hsources, -⟩ := bind_eq_ok.mp h
  obtain ⟨source, -, hsource⟩ := exists_of_mem_steps hsources hp
  obtain ⟨origin, horigin, -⟩ := bind_eq_ok.mp hsource
  unfold Document.read at horigin
  split at horigin
  · rename_i s hread
    exact ⟨s, hread⟩
  · cases horigin

section Documents

variable (h : Overlay at_ t u) {paths : List String}
  (hread : ∀ p ∈ paths, ∃ s, t.readText p = .ok s) (hapart : ∀ p ∈ paths, ¬ at_ (t.location p))

include h hread hapart

/-- Documents that are not touched are read as before. -/
theorem read_overlay : ∀ p ∈ paths, Document.read u p = Document.read t p := by
  intro p hp
  obtain ⟨s, hs⟩ := hread p hp
  unfold Document.read
  rw [hs, h.readText hs (hapart p hp)]

theorem load_overlay : Document.load u paths = Document.load t paths := by
  unfold Document.load
  rw [mapM_congr fun p hp => ?_]
  unfold Document.readSource
  rw [read_overlay h hread hapart p hp]

theorem loadModuleNames_overlay :
    Document.loadModuleNames u paths = Document.loadModuleNames t paths := by
  unfold Document.loadModuleNames
  rw [mapM_congr fun p hp => ?_]
  unfold Document.readModuleName
  rw [read_overlay h hread hapart p hp]

end Documents

/-! ## Annotations -/

/-- Annotations that are not touched are merged as before. -/
theorem annotateFiles_overlay (h : Overlay at_ t u) {files : List String}
    (hapart : ∀ file ∈ files, ¬ at_ (t.location (Prepare.absolutePath t file))) :
    ∀ {d : Prepare.Draft}, (Prepare.annotateFiles t files d).1 = none →
      Prepare.annotateFiles u files d = Prepare.annotateFiles t files d := by
  induction files with
  | nil =>
      intro d _
      rfl
  | cons file rest ih =>
      intro d hnone
      have hpath : Prepare.absolutePath u file = Prepare.absolutePath t file := by
        unfold Prepare.absolutePath
        rw [h.working]
      unfold Prepare.annotateFiles at hnone ⊢
      dsimp only at hnone ⊢
      rw [hpath]
      cases hexists : t.exists_ (Prepare.absolutePath t file) with
      | false => simp [hexists] at hnone
      | true =>
          have habove : u.exists_ (Prepare.absolutePath t file) = true := exists_overlay h hexists
          rw [hexists, if_neg (by simp)] at hnone
          rw [habove, if_neg (by simp), if_neg (by simp)]
          cases hload : Document.loadAnnotations t (Prepare.absolutePath t file) with
          | error e => simp [hload] at hnone
          | ok annotations =>
              have hsame : Document.loadAnnotations u (Prepare.absolutePath t file) =
                  .ok annotations := by
                rw [← hload]
                obtain ⟨origin, horigin, -⟩ := bind_eq_ok.mp hload
                unfold Document.read at horigin
                split at horigin
                · rename_i s hread
                  unfold Document.loadAnnotations Document.read
                  rw [hread, h.readText hread (hapart file List.mem_cons_self)]
                · cases horigin
              rw [hload] at hnone
              rw [hsame]
              exact ih (fun other hother => hapart other (List.mem_cons_of_mem file hother)) hnone

theorem runPhases_overlay (h : Overlay at_ t u) {r : Request} {d last : Prepare.Draft}
    (hapart : ∀ file ∈ r.annotations, ¬ at_ (t.location (Prepare.absolutePath t file)))
    (hprepared : Prepare.runPhases t r.phases d = (none, last)) :
    Prepare.runPhases u r.phases d = (none, last) := by
  have hfirst : (Prepare.annotateFiles t r.annotations d).1 = none := by
    cases hannotated : (Prepare.annotateFiles t r.annotations d).1 with
    | none => rfl
    | some f =>
        rcases hrun : Prepare.annotateFiles t r.annotations d with ⟨g, after⟩
        rw [hrun] at hannotated
        have hg : g = some f := hannotated
        subst hg
        simp [Request.phases, Prepare.runPhases, Prepare.Phase.run, hrun] at hprepared
  rw [← hprepared]
  simp only [Request.phases, Prepare.runPhases, Prepare.Phase.run,
    annotateFiles_overlay h hapart hfirst]

/-! ## Requests -/

theorem mem_templatePath {template dir : String} {search : List String} (h : dir ∈ search) :
    dir ∈ templatePath template search :=
  List.mem_cons_of_mem template (List.mem_append_right _ h)

theorem template_of_input {r : Request} {i : Input} (h : r.input t = .ok i) :
    templateDirectory t r.template r.searchPath = .ok i.template := by
  obtain ⟨source, -, h⟩ := bind_eq_ok.mp h
  obtain ⟨template, htemplate, h⟩ := bind_eq_ok.mp h
  obtain ⟨modules, -, h⟩ := bind_eq_ok.mp h
  obtain ⟨system, -, heq⟩ := bind_eq_ok.mp h
  cases heq
  exact mapError_eq_ok.mp htemplate

/-- A request whose documents stay comes to the same input. -/
theorem input_overlay (h : Overlay at_ t u) (ht : t.Proper) (hu : u.Proper) {r : Request}
    {i : Input} (hinput : r.input t = .ok i) (hapart : r.Apart t i.template at_) :
    r.input u = .ok i := by
  have hreadable := exists_readText_of_load (load_of_input hinput)
  have hcollect : ∀ path ∈ r.imports ++ r.sources,
      Document.collect u path = Document.collect t path := by
    intro path hpath
    refine Document.collect_overlay h ht hu (hapart.scanned path hpath) fun p hp => ?_
    exact hreadable p (List.mem_flatMap.mpr ⟨path, hpath, hp⟩)
  have hsources : Request.expand u r.sources = Request.expand t r.sources :=
    List.flatMap_congr fun path hpath => hcollect path (List.mem_append_right _ hpath)
  have hall : Request.expand u (r.imports ++ r.sources) =
      Request.expand t (r.imports ++ r.sources) := List.flatMap_congr hcollect
  have hsub : ∀ p ∈ Request.expand t r.sources,
      p ∈ Request.expand t (r.imports ++ r.sources) := by
    intro p hp
    rw [expand_append]
    exact List.mem_append_right _ hp
  have htemplate := template_of_input hinput
  have htemplate' := templateDirectory_overlay h ht hu
    (fun dir hdir => hapart.faithful dir (mem_templatePath hdir)) hapart.searched htemplate
  have hmodules := loadModuleNames_overlay h (fun p hp => hreadable p (hsub p hp))
    fun p hp => hapart.documents p (hsub p hp)
  have hload := load_overlay h hreadable hapart.documents
  unfold Request.input at hinput ⊢
  rw [htemplate', hsources, hall, hmodules, hload]
  rw [htemplate] at hinput
  exact hinput

/-- A generation whose documents stay comes to the same rules for the same model. -/
theorem Session.Reaches.overlay {s : Session} {r : Request} {i : Input} {draft : Prepare.Draft}
    {rules : Rules.RuleSet} (hreaches : s.Reaches t r i draft rules) (h : Overlay at_ t u)
    (ht : t.Proper) (hu : u.Proper) (hapart : r.Apart t i.template at_) :
    s.Reaches u r i draft rules := by
  have hinput := input_overlay h ht hu hreaches.input hapart
  have hprepared := runPhases_overlay h hapart.annotations hreaches.prepared
  have hrules : Rules.RuleSet.load u (Rules.rulesPath i.template) = .ok rules := by
    have hload := hreaches.rules
    unfold Rules.RuleSet.load at hload ⊢
    split at hload
    · rename_i text hread
      rw [h.readText hread hapart.rules]
      exact hload
    · cases hload
  refine ⟨hinput, hprepared, hrules, ?_⟩
  rw [Session.generate_of_input hinput, hprepared]

end Stencil.Generate
