import Mathlib.Data.List.Find
import Mathlib.Data.List.Forall2
import Stencil.Proofs.Files.Outputs
import Stencil.Proofs.Generate.Deed
import Stencil.Proofs.Template.SearchPath

/-!
# Runs that are made again

A plan that has been performed is performed again on the files that it has left.  If
templates render deterministically, then the second run renders what the first has
rendered, one file after the other, and finds each of them on disk.  So it succeeds,
and at most replaces what files hold that the first run has written too.

Templates render deterministically if they depend on the files only through the
templates in the search path, and none of these is an output file.
-/

namespace Stencil.Generate

open Files Template
open Files.Tree (Overlay Rewrites)
open Files.Path (join isAbsolute)

/-! ## Templates in a search path -/

/-- The text of a template that is looked for in a search path. -/
def sourceIn (t : Tree) (search : List String) (name : String) :
    Except Problem (Option String) :=
  Run.sourceText? ⟨⟨[]⟩, t, search, [], []⟩ name

/-- Whether two trees have the same templates in a search path, apart from those at some
locations. -/
def SameTemplates (at_ : Location → Prop) (search : List String) (t u : Tree) : Prop :=
  ∀ name, (∀ dir ∈ search, ¬ at_ (t.location (join dir name))) →
    sourceIn u search name = sourceIn t search name

/-- Whether what a write renders depends on the files of a desk only through the templates in the
search path that are not at some locations. -/
def Write.Deterministic (at_ : Location → Prop) (search : List String) (setting : Setting)
    (w : Write) (d : Desk) : Prop :=
  ∀ files, SameTemplates at_ search d.files files →
    w.rendering setting { d with files } =
      ((w.rendering setting d).1, { (w.rendering setting d).2 with files })

/-- Whether all writes of a run render deterministically. -/
def Bench.Deterministic (at_ : Location → Prop) (search : List String) (setting : Setting)
    (b : Bench) (p : Plan) : Prop :=
  ∀ done w rest, p = done ++ .write w :: rest →
    w.Deterministic at_ search setting (b.perform setting done).2.desk

section Templates

variable {t u v : Tree} {at_ : Location → Prop} {search : List String}

/-- A local name leads to a template along a faithful path if the directory is faithful. -/
theorem faithful_of_isLocal (ht : t.Rooted) {dir name : String} (hdir : t.Faithful dir)
    (hname : Run.isLocal name = true) : t.Faithful (join dir name) := by
  have hdots := not_dots_of_isLocal hname
  cases habsolute : isAbsolute name with
  | true =>
      have hjoin : join dir name = name := by simp [join, habsolute]
      rw [hjoin]
      exact ht.faithful (Path.not_parent_of_split hdots)
  | false => exact ht.faithful_join hdir habsolute hdots

/-- Files that are laid over a tree at some locations leave all other templates. -/
theorem sameTemplates_of_overlay (h : Overlay at_ t u) (ht : t.Rooted)
    (hfaithful : ∀ dir ∈ search, t.Faithful dir) : SameTemplates at_ search t u := by
  intro name hname
  unfold sourceIn Run.sourceText?
  cases hlocal : Run.isLocal name with
  | false => rfl
  | true =>
      have hfile : ∀ path ∈ search.map fun dir => join dir name,
          u.isFile path = t.isFile path := by
        intro path hpath
        obtain ⟨dir, hdir, rfl⟩ := List.mem_map.mp hpath
        have hpathFaithful := faithful_of_isLocal ht (hfaithful dir hdir) hlocal
        rw [Bool.eq_iff_iff, Tree.isFile_iff, Tree.isFile_iff]
        constructor
        · rintro ⟨l, c, hplace⟩
          have hl : l = t.location (join dir name) :=
            (Tree.location_of_found hplace).trans (h.location _)
          exact ⟨l, c, h.place_below hpathFaithful hplace (hl ▸ hname dir hdir)⟩
        · rintro ⟨l, c, hplace⟩
          obtain ⟨c', hplaced, -⟩ := h.place_file hplace
          exact ⟨l, c', hplaced⟩
      have hlocate : Run.locate? u search name = Run.locate? t search name :=
        List.find?_congr hfile
      simp only [Bool.not_true, Bool.false_eq_true, if_false, hlocate]
      cases hfound : Run.locate? t search name with
      | none => rfl
      | some path =>
          obtain ⟨dir, hdir, rfl⟩ := List.mem_map.mp (List.mem_of_find?_eq_some hfound)
          obtain ⟨l, c, hplace⟩ := Tree.isFile_iff.mp (List.find?_some hfound)
          obtain ⟨c', hplaced, hsame⟩ := h.place_file hplace
          have hread : u.readText (join dir name) = t.readText (join dir name) := by
            have hl := Tree.location_of_found hplace
            rw [hsame (hl ▸ hname dir hdir)] at hplaced
            unfold Tree.readText
            rw [hplace, hplaced]
          dsimp only
          rw [hread]

/-- Two trees over the same one have the same templates. -/
theorem sameTemplates_of_overlays (h : Overlay at_ t u) (k : Overlay at_ t v) (ht : t.Rooted)
    (hfaithful : ∀ dir ∈ search, t.Faithful dir) : SameTemplates at_ search u v := by
  intro name hname
  have hbelow : ∀ dir ∈ search, ¬ at_ (t.location (join dir name)) := by
    intro dir hdir
    rw [← h.location]
    exact hname dir hdir
  rw [sameTemplates_of_overlay k ht hfaithful name hbelow,
    sameTemplates_of_overlay h ht hfaithful name hbelow]

end Templates

/-! ## Deeds and the files after them -/

namespace Deed

/-- Whether the path of a deed denotes something in a tree, and a file unless the deed only creates
what is missing. -/
def FoundIn (d : Deed) (t : Tree) : Prop :=
  ∃ e, t.place d.path = .ok (.found (d.before.location d.path) e) ∧
    (d.overwrite ≠ .ifMissing → ∃ c, e = .file c)

theorem FoundIn.overlay {d : Deed} {t u : Tree} {at_ : Location → Prop} (h : d.FoundIn t)
    (k : Overlay at_ t u) : d.FoundIn u := by
  obtain ⟨e, hplace, hfile⟩ := h
  cases e with
  | directory => exact ⟨.directory, k.place_directory hplace, hfile⟩
  | file c =>
      obtain ⟨c', hplaced, -⟩ := k.place_file hplace
      exact ⟨.file c', hplaced, fun _ => ⟨c', rfl⟩⟩

/-- Whether a location is that of a deed. -/
def AtSome (deeds : List Deed) (l : Location) : Prop :=
  ∃ d ∈ deeds, d.before.location d.path = l

/-- Deeds lay their files over the tree that they start from. -/
theorem overlay_of_lead {deeds : List Deed} :
    ∀ {t last : Tree}, Lead t deeds last → Overlay (AtSome deeds) t last := by
  induction deeds with
  | nil =>
      rintro t last rfl
      exact Overlay.refl _
  | cons d rest ih =>
      rintro t last ⟨rfl, next, houtput, hlead⟩
      have hfirst : Overlay (AtSome (d :: rest)) d.before next := by
        refine (Tree.overlay_output houtput).mono fun l hl => ?_
        exact ⟨d, List.mem_cons_self, hl.symm⟩
      refine hfirst.trans ((ih hlead).mono ?_)
      rintro l ⟨e, he, hl⟩
      exact ⟨e, List.mem_cons_of_mem d he, hl⟩

/-- What deeds have written is found after them. -/
theorem foundIn_of_lead {deeds : List Deed} :
    ∀ {t last : Tree}, Lead t deeds last → ∀ d ∈ deeds, d.FoundIn last := by
  induction deeds with
  | nil =>
      intro t last _ d hd
      cases hd
  | cons e rest ih =>
      rintro t last ⟨rfl, next, houtput, hlead⟩ d hd
      rcases List.mem_cons.mp hd with rfl | hd
      · have hfound : d.FoundIn next := Tree.place_of_output houtput
        exact hfound.overlay (overlay_of_lead hlead)
      · exact ih hlead d hd

theorem proper_of_lead {deeds : List Deed} :
    ∀ {t last : Tree}, Lead t deeds last → t.Proper → last.Proper := by
  induction deeds with
  | nil =>
      rintro t last rfl ht
      exact ht
  | cons d rest ih =>
      rintro t last ⟨rfl, next, houtput, hlead⟩ ht
      exact ih hlead (ht.output houtput)

/-- Whether a deed writes the same text to the same file as another one, on files of its own. -/
structure Repeats (d again : Deed) : Prop where
  write : again.write = d.write
  path : again.path = d.path
  content : again.content = d.content
  working : again.before.working = d.before.working

end Deed

/-! ## Runs side by side -/

/-- Whether two benches are the same apart from their files and their records. -/
structure Bench.Twins (b other : Bench) : Prop where
  desk : other.desk = { b.desk with files := other.desk.files }
  loaded : other.loaded = b.loaded

namespace Bench

variable {setting : Setting} {b other after : Bench}

/-- A step that writes no file makes twins of twins. -/
theorem Twins.step {s : Step} (h : b.Twins other) (hs : s.write? = none)
    (hstep : b.step setting s = (none, after)) :
    ∃ next, other.step setting s = (none, next) ∧ after.Twins next ∧
      next.desk.files = other.desk.files := by
  obtain ⟨hdesk, hloaded⟩ := h
  cases s with
  | load filters =>
      change ∃ next, other.load setting.registry filters = (none, next) ∧ _
      rcases cases_of_load hstep with ⟨hmem, rfl⟩ | ⟨hmem, set, hset, rfl⟩
      · exact ⟨other, load_repeated (hloaded ▸ hmem), ⟨hdesk, hloaded⟩, rfl⟩
      · rw [load_registered (hloaded ▸ hmem) hset, hdesk, hloaded]
        exact ⟨_, rfl, ⟨rfl, rfl⟩, rfl⟩
  | warn message =>
      simp only [Bench.step, Prod.mk.injEq, true_and] at hstep
      subst hstep
      refine ⟨_, rfl, ⟨?_, hloaded⟩, rfl⟩
      dsimp only
      rw [hdesk]
  | write w => cases hs
  | stop f => cases hstep

/-- A run of which the first step succeeds renders its other writes as its rest does. -/
theorem Deterministic.rest {at_ : Location → Prop} {search : List String} {s : Step} {p : Plan}
    (h : b.Deterministic at_ search setting (s :: p)) (hstep : b.step setting s = (none, after)) :
    after.Deterministic at_ search setting p := by
  intro done w rest hp
  have hwhole := h (s :: done) w rest (by rw [hp]; rfl)
  rwa [perform_of_step hstep] at hwhole

/-- What a run comes to that has been made before: it succeeds, with the same deeds on the files
that it finds, and at most rewrites some of these. -/
structure Retraces (at_ : Location → Prop) (setting : Setting) (b other : Bench) (p : Plan) :
    Prop where
  succeeds : (other.perform setting p).1 = none
  twins : (b.perform setting p).2.Twins (other.perform setting p).2
  deeds : List.Forall₂ Deed.Repeats (b.deeds setting p) (other.deeds setting p)
  rewrites : Rewrites at_ other.desk.files (other.perform setting p).2.desk.files

/-- A step lays the file of its deed over the files before it. -/
theorem overlay_of_step {at_ : Location → Prop} {s : Step} (h : b.step setting s = (none, after))
    (hat : ∀ d ∈ (s.write?.bind (b.deed? setting)).toList, at_ (d.before.location d.path)) :
    Overlay at_ b.desk.files after.desk.files := by
  refine (Deed.overlay_of_lead (lead_of_step h)).mono ?_
  rintro l ⟨d, hd, rfl⟩
  exact hat d hd

/-- A file that is rendered the same on a twin, and is found there, is written there again. -/
theorem Twins.write {w : Write} (h : b.Twins other)
    (hstep : b.step setting (.write w) = (none, after))
    (hrenders : w.rendering setting other.desk =
      ((w.rendering setting b.desk).1,
        { (w.rendering setting b.desk).2 with files := other.desk.files }))
    (hworking : other.desk.files.working = b.desk.files.working)
    (hrooted : other.desk.files.Rooted)
    (hfound : ∀ d, b.deed? setting w = some d → d.FoundIn other.desk.files) :
    ∃ next d e, other.step setting (.write w) = (none, next) ∧ after.Twins next ∧
      b.deed? setting w = some d ∧ other.deed? setting w = some e ∧ d.Repeats e ∧
        Rewrites (· = d.before.location d.path) other.desk.files next.desk.files := by
  obtain ⟨path, content, desk, result, files, hrendering, houtput, rfl⟩ := rendered_of_write hstep
  rw [hrendering] at hrenders
  have hdeed : b.deed? setting w = some ⟨w, path, content, b.desk.files⟩ := by
    rw [deed?_eq, hrendering]
  have hagain : other.deed? setting w = some ⟨w, path, content, other.desk.files⟩ := by
    rw [deed?_eq, hrenders]
  obtain ⟨e, hplace, hfile⟩ := hfound _ hdeed
  obtain ⟨r, files', hwritten, hrewrites⟩ := hrooted.output_of_found hplace hfile content
  refine ⟨{ other with
    desk := { desk with files := files' }, record := other.record.add path r }, _, _, ?_,
    ⟨rfl, h.loaded⟩, hdeed, hagain, ⟨rfl, rfl, rfl, hworking⟩, hrewrites⟩
  change other.write setting w = _
  rw [write_eq, hrenders]
  dsimp only
  rw [show other.desk.files.output (.ofFlags w.preserve w.force) path content =
    .ok (r, files') from hwritten]

/-- A step that succeeds is retraced on files that have what it has written. -/
theorem exists_step_again {at_ : Location → Prop} {s : Step} (htwins : b.Twins other)
    (hstep : b.step setting s = (none, after))
    (hrenders : ∀ w, s.write? = some w → w.rendering setting other.desk =
      ((w.rendering setting b.desk).1,
        { (w.rendering setting b.desk).2 with files := other.desk.files }))
    (hworking : other.desk.files.working = b.desk.files.working)
    (hrooted : other.desk.files.Rooted)
    (hdeeds : ∀ d ∈ (s.write?.bind (b.deed? setting)).toList,
      at_ (d.before.location d.path) ∧ d.FoundIn other.desk.files) :
    ∃ next, other.step setting s = (none, next) ∧ after.Twins next ∧
      List.Forall₂ Deed.Repeats (s.write?.bind (b.deed? setting)).toList
        (s.write?.bind (other.deed? setting)).toList ∧
      Rewrites at_ other.desk.files next.desk.files := by
  cases hs : s.write? with
  | none =>
      obtain ⟨next, hnext, htwins', hfiles⟩ := htwins.step hs hstep
      exact ⟨next, hnext, htwins', List.Forall₂.nil, hfiles ▸ Rewrites.refl _⟩
  | some w =>
      obtain rfl := Step.eq_write hs
      rw [hs] at hdeeds
      have hfound : ∀ d, b.deed? setting w = some d →
          at_ (d.before.location d.path) ∧ d.FoundIn other.desk.files :=
        fun d hd => hdeeds d (by simp [hd])
      obtain ⟨next, d, e, hnext, htwins', hd, he, hrepeats, hrewrites⟩ :=
        htwins.write hstep (hrenders w hs) hworking hrooted fun d hd => (hfound d hd).2
      refine ⟨next, hnext, htwins', ?_, hrewrites.working, fun l => ?_⟩
      · simpa [hd, he] using hrepeats
      · refine (hrewrites.get? l).imp_right ?_
        rintro ⟨rfl, hold⟩
        exact ⟨(hfound d hd).1, hold⟩

/-- A run that succeeds is retraced on files that have what it has written, if both have the same
files below apart from those. -/
theorem retraces_of_perform {t : Tree} {at_ : Location → Prop} {search : List String}
    (ht : t.Rooted) (hfaithful : ∀ dir ∈ search, t.Faithful dir) {p : Plan} {b other : Bench}
    (htwins : b.Twins other) (hsucceeds : (b.perform setting p).1 = none)
    (hdeterministic : b.Deterministic at_ search setting p)
    (hb : Overlay at_ t b.desk.files) (hother : Overlay at_ t other.desk.files)
    (hrooted : other.desk.files.Rooted)
    (hdeeds : ∀ d ∈ b.deeds setting p,
      at_ (d.before.location d.path) ∧ d.FoundIn other.desk.files) :
    Retraces at_ setting b other p := by
  induction p, b, hsucceeds using perform_induction generalizing other with
  | nil b => exact ⟨rfl, htwins, List.Forall₂.nil, Rewrites.refl _⟩
  | cons s rest b after hstep hrest ih =>
      rw [deeds_cons hstep] at hdeeds
      have hhere := fun d hd => hdeeds d (List.mem_append_left _ hd)
      -- both benches have the same templates, so that both render the same
      have hrenders : ∀ w, s.write? = some w → w.rendering setting other.desk =
          ((w.rendering setting b.desk).1,
            { (w.rendering setting b.desk).2 with files := other.desk.files }) := by
        intro w hw
        obtain rfl := Step.eq_write hw
        have hdesk := hdeterministic [] w rest rfl other.desk.files
          (sameTemplates_of_overlays hb hother ht hfaithful)
        rw [htwins.desk]
        exact hdesk
      obtain ⟨next, hnext, htwins', hrepeats, hrewrites⟩ := exists_step_again htwins hstep hrenders
        (hother.working.trans hb.working.symm) hrooted hhere
      have hretraces : Retraces at_ setting after next rest := by
        refine ih htwins' (hdeterministic.rest hstep)
          (hb.trans (overlay_of_step hstep fun d hd => (hhere d hd).1))
          (hother.trans hrewrites.overlay) (hrewrites.rooted hrooted) fun d hd => ?_
        obtain ⟨hat, hfound⟩ := hdeeds d (List.mem_append_right _ hd)
        exact ⟨hat, hfound.overlay hrewrites.overlay⟩
      refine ⟨?_, ?_, ?_, ?_⟩
      · rw [perform_of_step hnext]
        exact hretraces.succeeds
      · rw [perform_of_step hstep, perform_of_step hnext]
        exact hretraces.twins
      · rw [deeds_cons hstep, deeds_cons hnext]
        exact List.rel_append hrepeats hretraces.deeds
      · rw [perform_of_step hnext]
        exact hrewrites.trans hretraces.rewrites

end Bench

end Stencil.Generate
