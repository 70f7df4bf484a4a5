import Stencil.Proofs.Files.Rooted
import Stencil.Proofs.Generate.Deed

/-!
# The files after a run

What stands at a location after a run that succeeds, told by its deeds there.  A
deed is binding if its file is forced or not preserved.  The last binding deed at
a location decides; without one what was there stays, and where nothing was the
first deed decides.

There is one exception.  A path may turn back with two dots from a directory that
is only created for the file itself.  Such a path denotes nothing before it is
written, so that a preserved file which stands at its location is overwritten.
Paths that never turn back do not have this exception.
-/

namespace Stencil.Generate

open Files (Entry Location Tree)
open Rules (RuleDocument)

namespace Deed

/-- The location of the file. -/
def location (d : Deed) : Location := d.before.location d.path

/-- Whether the file is forced or not preserved. -/
def binding (d : Deed) : Bool := d.write.force || !d.write.preserve

/-- Whether the path denotes nothing although something stands at its location. -/
def blind (d : Deed) : Bool := !d.before.exists_ d.path && (d.before.get? d.location).isSome

/-- Whether the deed leaves its text at its location, whatever stood there. -/
def replaces (d : Deed) : Bool := d.binding || d.blind

/-- The file that holds the text of the deed. -/
def entry (d : Deed) : Entry := .file (.text d.content)

/-- The last of the deeds at a location that have a property. -/
def lastAt (p : Deed → Bool) (deeds : List Deed) (l : Location) : Option Deed :=
  (deeds.filter fun d => decide (d.location = l) && p d).getLast?

/-- The first of the deeds at a location. -/
def firstAt (deeds : List Deed) (l : Location) : Option Deed :=
  deeds.find? fun d => decide (d.location = l)

/-- What stands at a location after some deeds if the last one there with a property decides,
what was there before stays without such a deed, and the first one decides where nothing was. -/
def settled (p : Deed → Bool) (t : Tree) (deeds : List Deed) (l : Location) : Option Entry :=
  ((lastAt p deeds l).map entry).or ((t.get? l).or ((firstAt deeds l).map entry))

theorem lastAt_cons (p : Deed → Bool) (d : Deed) (rest : List Deed) (l : Location) :
    lastAt p (d :: rest) l =
      (lastAt p rest l).or (if d.location = l ∧ p d = true then some d else none) := by
  unfold lastAt
  rw [List.filter_cons]
  by_cases h : d.location = l ∧ p d = true
  · simp only [h.1, h.2, decide_true, Bool.and_self, if_true, and_self, List.getLast?_cons]
    cases (rest.filter fun d => decide (d.location = l) && p d).getLast? <;> rfl
  · rw [if_neg (by simpa using h), if_neg h, Option.or_none]

/-! ## One deed -/

theorem overwrite_ne_ifMissing {d : Deed} (h : d.binding = true) : d.overwrite ≠ .ifMissing := by
  unfold overwrite Overwrite.ofFlags
  unfold binding at h
  cases hforce : d.write.force with
  | true => simp
  | false =>
      rw [hforce] at h
      simp at h
      simp [h]

theorem overwrite_eq_ifMissing {d : Deed} (h : d.binding = false) : d.overwrite = .ifMissing := by
  unfold binding at h
  simp only [Bool.or_eq_false_iff, Bool.not_eq_eq_eq_not, Bool.not_false] at h
  simp [overwrite, Overwrite.ofFlags, h.1, h.2]

variable {d : Deed} {next : Tree}

/-- A deed that replaces what it finds leaves its text. -/
theorem get?_of_replaces
    (h : d.before.output d.overwrite d.path d.content = .ok (d.result, next))
    (hd : d.replaces = true) : next.get? d.location = some d.entry := by
  by_cases hbinding : d.binding = true
  · exact Tree.get?_output_replacing h (overwrite_ne_ifMissing hbinding)
  · have hblind : d.blind = true := by
      simpa [replaces, hbinding] using hd
    have hpath : d.before.exists_ d.path = false := by
      simp only [blind, Bool.and_eq_true, Bool.not_eq_eq_eq_not, Bool.not_true] at hblind
      exact hblind.1
    rw [overwrite_eq_ifMissing (by simpa using hbinding)] at h
    exact Tree.get?_output_ifMissing h hpath

/-- A deed that replaces nothing keeps what it finds, and leaves its text where it finds nothing. -/
theorem get?_of_not_replaces
    (h : d.before.output d.overwrite d.path d.content = .ok (d.result, next))
    (hd : d.replaces = false) :
    next.get? d.location = (d.before.get? d.location).or (some d.entry) := by
  simp only [replaces, Bool.or_eq_false_iff] at hd
  obtain ⟨hbinding, hblind⟩ := hd
  rw [overwrite_eq_ifMissing hbinding] at h
  cases hpath : d.before.exists_ d.path with
  | true =>
      obtain ⟨e, he⟩ := Option.isSome_iff_exists.mp hpath
      rw [Tree.output_ifMissing_of_exists h hpath, location, Tree.get?_of_find? he]
      rfl
  | false =>
      have hnone : d.before.get? d.location = none := by
        simpa [blind, hpath] using hblind
      rw [hnone]
      exact Tree.get?_output_ifMissing h hpath

/-! ## All deeds -/

/-- A first deed may be taken as part of what was there before. -/
theorem settled_cons {l : Location} {rest : List Deed}
    (h : d.before.output d.overwrite d.path d.content = .ok (d.result, next))
    (hl : next.get? l ≠ some .directory) :
    settled replaces d.before (d :: rest) l = settled replaces next rest l := by
  unfold settled
  rw [lastAt_cons]
  by_cases hat : d.location = l
  · subst hat
    cases hd : d.replaces with
    -- a later deed that replaces has the last word over this one
    | true =>
        rw [get?_of_replaces h hd]
        cases lastAt replaces rest d.location <;> simp
    | false =>
        rw [get?_of_not_replaces h hd]
        cases d.before.get? d.location <;> simp [firstAt]
  · rw [Tree.get?_output_of_ne h (Ne.symm hat) hl]
    simp [firstAt, hat]

/-- A directory stays one. -/
theorem directory_of_lead {deeds : List Deed} {l : Location} :
    ∀ {t last : Tree}, Lead t deeds last → t.get? l = some .directory →
      last.get? l = some .directory := by
  induction deeds with
  | nil =>
      rintro t last rfl hdir
      exact hdir
  | cons d rest ih =>
      rintro t last ⟨-, next, houtput, hlead⟩ hdir
      exact ih hlead (Tree.directory_of_output houtput hdir)

/-- What the deeds settle is what stands at a location that is no directory afterwards. -/
theorem get?_of_lead {deeds : List Deed} {l : Location} :
    ∀ {t last : Tree}, Lead t deeds last → last.get? l ≠ some .directory →
      last.get? l = settled replaces t deeds l := by
  induction deeds with
  | nil =>
      rintro t last rfl -
      simp [settled, lastAt, firstAt]
  | cons d rest ih =>
      rintro t last ⟨rfl, next, houtput, hlead⟩ hdir
      have hnext : next.get? l ≠ some .directory := fun hd => hdir (directory_of_lead hlead hd)
      rw [settled_cons houtput hnext]
      exact ih hlead hdir

/-! ## Binding deeds -/

theorem replaces_of_binding {d : Deed} (h : d.binding = true) : d.replaces = true := by
  simp [replaces, h]

/-- Without a deed that replaces what it finds there is no binding one. -/
theorem lastAt_binding_eq_none {deeds : List Deed} {l : Location}
    (h : lastAt replaces deeds l = none) : lastAt binding deeds l = none := by
  unfold lastAt at h ⊢
  rw [List.getLast?_eq_none_iff, List.filter_eq_nil_iff] at h ⊢
  intro d hd hat
  simp only [Bool.and_eq_true] at hat
  exact h d hd (by simp [hat.1, replaces_of_binding hat.2])

/-- Where the last deed that replaces what it finds is binding, it is the last binding one. -/
theorem lastAt_binding_eq_some {deeds : List Deed} {l : Location} {d : Deed}
    (h : lastAt replaces deeds l = some d) (hd : d.binding = true) :
    lastAt binding deeds l = some d := by
  induction deeds with
  | nil => simp [lastAt] at h
  | cons e rest ih =>
      rw [lastAt_cons] at h ⊢
      cases hrest : lastAt replaces rest l with
      | some f =>
          rw [hrest, Option.some_or, Option.some.injEq] at h
          subst h
          rw [ih hrest, Option.some_or]
      | none =>
          rw [hrest, Option.none_or, Option.ite_none_right_eq_some] at h
          obtain ⟨⟨hat, -⟩, hsame⟩ := h
          obtain rfl : e = d := Option.some.inj hsame
          rw [lastAt_binding_eq_none hrest, Option.none_or, if_pos ⟨hat, hd⟩]

/-- The binding deeds settle a location as all replacing ones do, unless the last deed that
replaces something there is not binding and leaves another text. -/
theorem settled_replaces_eq_iff (t : Tree) (deeds : List Deed) (l : Location) :
    settled replaces t deeds l = settled binding t deeds l ↔
      ∀ d, lastAt replaces deeds l = some d → d.binding = false →
        settled binding t deeds l = some d.entry := by
  constructor
  · intro hsame d hlast _
    rw [← hsame, settled, hlast]
    rfl
  · intro hlast
    cases hreplaces : lastAt replaces deeds l with
    | none => rw [settled, settled, hreplaces, lastAt_binding_eq_none hreplaces]
    | some d =>
        cases hbinding : d.binding with
        | true => rw [settled, settled, hreplaces, lastAt_binding_eq_some hreplaces hbinding]
        | false =>
            rw [hlast d hreplaces hbinding, settled, hreplaces]
            rfl

/-! ## Paths that never turn back -/

theorem mem_of_lastAt {p : Deed → Bool} {deeds : List Deed} {l : Location} {d : Deed}
    (h : lastAt p deeds l = some d) : d ∈ deeds ∧ d.location = l ∧ p d = true := by
  obtain ⟨hmem, hat⟩ := List.mem_filter.mp (List.mem_of_getLast? h)
  simp only [Bool.and_eq_true, decide_eq_true_eq] at hat
  exact ⟨hmem, hat⟩

/-- A deed whose path never turns back replaces something only if it is binding. -/
theorem binding_of_replaces (ht : d.before.Rooted) (hpath : Files.Path.Descends d.path)
    (h : d.before.output d.overwrite d.path d.content = .ok (d.result, next))
    (hd : d.replaces = true) : d.binding = true := by
  cases hbinding : d.binding with
  | true => rfl
  | false =>
      rw [overwrite_eq_ifMissing hbinding] at h
      simp only [replaces, blind, hbinding, Bool.false_or, Bool.and_eq_true,
        Bool.not_eq_eq_eq_not, Bool.not_true] at hd
      obtain ⟨hexists, hsome⟩ := hd
      have hnone : d.before.get? d.location = none := ht.get?_of_output hpath h hexists
      rw [hnone] at hsome
      cases hsome

theorem binding_of_lead {deeds : List Deed} :
    ∀ {t last : Tree}, Lead t deeds last → t.Rooted →
      (∀ d ∈ deeds, Files.Path.Descends d.path) →
      ∀ d ∈ deeds, d.replaces = true → d.binding = true := by
  induction deeds with
  | nil =>
      intro t last _ _ _ d hd
      cases hd
  | cons e rest ih =>
      rintro t last ⟨rfl, next, houtput, hlead⟩ ht hpaths d hd
      rcases List.mem_cons.mp hd with rfl | hd
      · exact binding_of_replaces ht (hpaths d List.mem_cons_self) houtput
      · exact ih hlead (ht.output houtput) (fun d hd => hpaths d (List.mem_cons_of_mem e hd)) d hd

end Deed

/-! ## Runs of rule documents -/

/-- If the paths of a run that succeeds never turn back, its binding deeds settle every location
that is no directory: a preserved file is never overwritten without force. -/
theorem get?_after_descending {scope : Scope} {documents : List RuleDocument} {setting : Setting}
    {b : Bench} (h : (b.perform setting (plan scope (.modern documents))).1 = none)
    (ht : b.desk.files.Rooted)
    (hpaths : ∀ d ∈ b.deeds setting (plan scope (.modern documents)), Files.Path.Descends d.path)
    {l : Location}
    (hl : (b.perform setting (plan scope (.modern documents))).2.desk.files.get? l
      ≠ some .directory) :
    (b.perform setting (plan scope (.modern documents))).2.desk.files.get? l =
      Deed.settled Deed.binding b.desk.files
        (b.deeds setting (plan scope (.modern documents))) l := by
  have hlead := Bench.lead_of_perform h
  rw [Deed.get?_of_lead hlead hl, Deed.settled_replaces_eq_iff]
  intro d hlast hbinding
  obtain ⟨hmem, -, hreplaces⟩ := Deed.mem_of_lastAt hlast
  rw [Deed.binding_of_lead hlead ht hpaths d hmem hreplaces] at hbinding
  cases hbinding

/-- After a run of rule documents that succeeds, every location that is no directory holds what
the replacing deeds of the run settle.  The binding deeds settle the same exactly if no path that
denoted nothing has the last word there with another text. -/
theorem get?_after_documents (scope : Scope) (documents : List RuleDocument) (setting : Setting)
    (b : Bench) (h : (b.perform setting (plan scope (.modern documents))).1 = none)
    (l : Location)
    (hl : (b.perform setting (plan scope (.modern documents))).2.desk.files.get? l
      ≠ some .directory) :
    let deeds := b.deeds setting (plan scope (.modern documents))
    let after := (b.perform setting (plan scope (.modern documents))).2.desk.files
    after.get? l = Deed.settled Deed.replaces b.desk.files deeds l ∧
      (after.get? l = Deed.settled Deed.binding b.desk.files deeds l ↔
        ∀ d, Deed.lastAt Deed.replaces deeds l = some d → d.binding = false →
          Deed.settled Deed.binding b.desk.files deeds l = some d.entry) := by
  intro deeds after
  have hsettled : after.get? l = Deed.settled Deed.replaces b.desk.files deeds l :=
    Deed.get?_of_lead (Bench.lead_of_perform h) hl
  refine ⟨hsettled, ?_⟩
  rw [hsettled]
  exact Deed.settled_replaces_eq_iff b.desk.files deeds l

/-- A document that preserves a file below a directory which is not there yet, and turns back. -/
def Sample.detour : RuleDocument :=
  { module := some { preserve := [("fresh/../kept.txt", "text.tpl")] } }

theorem Sample.detour_succeeds : (Sample.bench.perform Sample.setting
    (plan Sample.scope (.modern [Sample.detour]))).1 = none :=
  Option.isNone_iff_eq_none.mp (by decide +kernel)

theorem get?_after_documents_detour :
    (Sample.bench.perform Sample.setting (plan Sample.scope (.modern [Sample.detour]))).1 = none ∧
      (Sample.bench.perform Sample.setting
        (plan Sample.scope (.modern [Sample.detour]))).2.desk.files.get? ["w", "out", "kept.txt"] =
        Deed.settled Deed.replaces Sample.files
          (Sample.bench.deeds Sample.setting (plan Sample.scope (.modern [Sample.detour])))
          ["w", "out", "kept.txt"] :=
  ⟨Sample.detour_succeeds, (get?_after_documents Sample.scope [Sample.detour] Sample.setting
    Sample.bench Sample.detour_succeeds ["w", "out", "kept.txt"] (by decide +kernel)).1⟩

/-- A preserved file that was edited by hand is overwritten: the binding deeds alone do not settle
what stands where after a run. -/
theorem not_settled_by_binding :
    ¬ ∀ (scope : Scope) (documents : List RuleDocument) (setting : Setting) (b : Bench)
        (l : Location),
      (b.perform setting (plan scope (.modern documents))).1 = none →
      (b.perform setting (plan scope (.modern documents))).2.desk.files.get? l
        ≠ some .directory →
      (b.perform setting (plan scope (.modern documents))).2.desk.files.get? l =
        Deed.settled Deed.binding b.desk.files
          (b.deeds setting (plan scope (.modern documents))) l := by
  intro hall
  have hkept := hall Sample.scope [Sample.detour] Sample.setting Sample.bench
    ["w", "out", "kept.txt"] Sample.detour_succeeds (by decide +kernel)
  exact absurd hkept (by decide +kernel)

end Stencil.Generate
