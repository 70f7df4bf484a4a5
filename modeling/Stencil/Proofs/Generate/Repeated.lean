import Mathlib.Data.List.Nodup
import Stencil.Proofs.Fallible
import Stencil.Proofs.Generate.FinalFiles
import Stencil.Proofs.Generate.Retrace

/-!
# Deeds that are repeated

A run that is made again on the files that it has left finds what it writes, so that
only its binding deeds replace anything.  The files stay as they are if at every
location these leave what the first run has left there, and then only.

In the first run a deed that is not binding may have replaced something too, where its
path turns back from a directory that was not there yet.
-/

namespace Stencil.Generate

open Files (Location Tree)
open Files.Tree (Overlay Rewrites)

/-! ## Records -/

namespace Record

/-- Every file that is recorded counts. -/
theorem total_add (r : Record) (path : String) (result : WriteResult) :
    (r.add path result).total = r.total + 1 := by
  cases result <;> simp only [add, total, List.length_append, List.length_singleton] <;> omega

theorem written_add (r : Record) (path : String) {result : WriteResult}
    (h : result ≠ .written) : (r.add path result).written = r.written := by
  cases result <;> first | rfl | exact absurd rfl h

/-- A record to which deeds are added in order. -/
def addAll (r : Record) (deeds : List Deed) : Record :=
  deeds.foldl (fun r d => r.add d.path d.result) r

theorem total_addAll (deeds : List Deed) :
    ∀ r : Record, (r.addAll deeds).total = r.total + deeds.length := by
  induction deeds with
  | nil => exact fun r => rfl
  | cons d rest ih =>
      intro r
      have hrest := ih (r.add d.path d.result)
      rw [total_add] at hrest
      change ((r.add d.path d.result).addAll rest).total = _
      rw [hrest, List.length_cons]
      omega

/-- Deeds that write nothing add nothing to what has been written. -/
theorem written_addAll {deeds : List Deed} :
    ∀ {r : Record}, (∀ d ∈ deeds, d.result ≠ .written) → (r.addAll deeds).written = r.written := by
  induction deeds with
  | nil => exact fun _ => rfl
  | cons d rest ih =>
      intro r h
      have hrest := ih (r := r.add d.path d.result) fun e he => h e (List.mem_cons_of_mem d he)
      rw [written_add r d.path (h d List.mem_cons_self)] at hrest
      exact hrest

end Record

namespace Bench

variable {setting : Setting}

/-- A step that succeeds records its deed, if it has one. -/
theorem record_of_step {s : Step} {b after : Bench} (h : b.step setting s = (none, after)) :
    after.record = b.record.addAll (s.write?.bind (b.deed? setting)).toList := by
  cases s with
  | load filters =>
      rcases cases_of_load h with ⟨-, rfl⟩ | ⟨-, set, -, rfl⟩
      · rfl
      · rfl
  | warn message =>
      cases h
      rfl
  | stop f => cases h
  | write w =>
      obtain ⟨path, content, desk, result, files, hrendering, houtput, rfl⟩ := rendered_of_write h
      obtain rfl := (Files.Tree.cases_of_output houtput).1
      simp only [Step.write?, Option.bind_some, deed?_eq, hrendering]
      rfl

/-- A run that succeeds has its deeds on record. -/
theorem record_of_perform {p : Plan} {b : Bench} (h : (b.perform setting p).1 = none) :
    (b.perform setting p).2.record = b.record.addAll (b.deeds setting p) := by
  induction p, b, h using perform_induction with
  | nil b => rfl
  | cons s rest b after hstep hrest ih =>
      rw [perform_of_step hstep, ih, record_of_step hstep, deeds_cons hstep]
      exact List.foldl_append.symm

end Bench

namespace Deed

variable {t u last : Tree} {deeds again : List Deed} {d e : Deed} {l : Location}

/-! ## The same deed twice -/

theorem Repeats.location (h : d.Repeats e) : e.location = d.location := by
  unfold Deed.location
  rw [h.path]
  exact Files.Tree.location_eq_of_working h.working d.path

theorem Repeats.binding (h : d.Repeats e) : e.binding = d.binding := by
  unfold Deed.binding
  rw [h.write]

theorem Repeats.entry (h : d.Repeats e) : e.entry = d.entry := by
  unfold Deed.entry
  rw [h.content]

theorem Repeats.overwrite (h : d.Repeats e) : e.overwrite = d.overwrite := by
  unfold Deed.overwrite
  rw [h.write]

theorem Repeats.foundIn (h : d.Repeats e) (hd : d.FoundIn t) : e.FoundIn t := by
  obtain ⟨entry, hplace, hfile⟩ := hd
  refine ⟨entry, ?_, ?_⟩
  · change t.place e.path = .ok (.found e.location entry)
    rw [h.path, h.location]
    exact hplace
  · rw [h.overwrite]
    exact hfile

/-- The last binding deed at a location leaves what it has left before. -/
theorem lastAt_of_repeats (h : List.Forall₂ Repeats deeds again) (l : Location) :
    (lastAt binding again l).map entry = (lastAt binding deeds l).map entry := by
  induction h with
  | nil => rfl
  | cons hfirst _ ih =>
      rw [lastAt_cons, lastAt_cons, Option.map_or, Option.map_or, ih, hfirst.location,
        hfirst.binding]
      split
      · rw [Option.map_some, Option.map_some, hfirst.entry]
      · rfl

/-! ## Deeds that find their files -/

/-- What is found at the start is found by every deed. -/
theorem foundIn_before_of_lead :
    ∀ {t : Tree}, Lead t deeds last → e.FoundIn t → ∀ d ∈ deeds, e.FoundIn d.before := by
  induction deeds with
  | nil =>
      intro t _ _ d hd
      cases hd
  | cons first rest ih =>
      rintro t ⟨rfl, next, houtput, hlead⟩ he d hd
      rcases List.mem_cons.mp hd with rfl | hd
      · exact he
      · exact ih hlead (he.overlay (Files.Tree.overlay_output houtput)) d hd

theorem exists_of_foundIn (h : d.FoundIn t) : t.exists_ d.path = true := by
  obtain ⟨entry, hplace, -⟩ := h
  simp [Files.Tree.exists_, Files.Tree.find?, hplace]

/-- A deed whose path denotes something replaces it only if it is binding. -/
theorem replaces_eq_binding (h : d.FoundIn d.before) : d.replaces = d.binding := by
  simp [replaces, blind, exists_of_foundIn h]

/-- Something stands at the location of a deed whose path denotes something, and a file if the deed
is binding. -/
theorem get?_of_foundIn (h : d.FoundIn t) :
    ∃ entry, t.get? d.location = some entry ∧ (d.binding = true → entry ≠ .directory) := by
  obtain ⟨entry, hplace, hfile⟩ := h
  refine ⟨entry, Files.Tree.get?_of_found hplace, ?_⟩
  rintro hbinding rfl
  obtain ⟨c, hc⟩ := hfile (overwrite_ne_ifMissing hbinding)
  cases hc

theorem lastAt_congr {p q : Deed → Bool} (h : ∀ d ∈ deeds, p d = q d) (l : Location) :
    lastAt p deeds l = lastAt q deeds l := by
  unfold lastAt
  rw [List.filter_congr fun d hd => by rw [h d hd]]

/-- Deeds whose paths denote something leave their files as the last binding ones settle them. -/
theorem get?_of_lead_found (hlead : Lead t deeds last) (hfound : ∀ d ∈ deeds, d.FoundIn t)
    (hl : last.get? l ≠ some .directory) :
    last.get? l = ((lastAt binding deeds l).map entry).or (t.get? l) := by
  have hreplaces : ∀ d ∈ deeds, d.replaces = d.binding := fun d hd =>
    replaces_eq_binding (foundIn_before_of_lead hlead (hfound d hd) d hd)
  have hthere : (t.get? l).or ((firstAt deeds l).map entry) = t.get? l := by
    cases hfirst : firstAt deeds l with
    | none => simp
    | some d =>
        obtain ⟨entry, hentry, -⟩ := get?_of_foundIn (hfound d (List.mem_of_find?_eq_some hfirst))
        have hat : d.location = l := by simpa using List.find?_some hfirst
        rw [← hat, hentry]
        rfl
  rw [get?_of_lead hlead hl, settled, lastAt_congr hreplaces, hthere]

/-! ## Files that stay -/

/-- Whether the binding deeds have the last word: wherever there is a binding deed, the last deed
that replaces what it finds leaves the text of the last binding one. -/
def BindingLast (deeds : List Deed) : Prop :=
  ∀ l d, lastAt binding deeds l = some d → (lastAt replaces deeds l).map entry = some d.entry

/-- What stands at a location with a binding deed is what the last deed has left that replaces what
it finds. -/
theorem get?_of_lastAt_binding (hlead : Lead t deeds last) (h : lastAt binding deeds l = some d) :
    last.get? l ≠ some .directory ∧ last.get? l = (lastAt replaces deeds l).map entry := by
  obtain ⟨hmem, rfl, hbinding⟩ := mem_of_lastAt h
  obtain ⟨entry, hentry, hfile⟩ := get?_of_foundIn (foundIn_of_lead hlead d hmem)
  have hl : last.get? d.location ≠ some .directory := by
    rw [hentry]
    exact fun hdir => hfile hbinding (Option.some.inj hdir)
  refine ⟨hl, ?_⟩
  rw [get?_of_lead hlead hl, settled]
  cases hreplaces : lastAt replaces deeds d.location with
  | none =>
      rw [lastAt_binding_eq_none hreplaces] at h
      cases h
  | some e => rfl

/-- Deeds that are repeated on the files that they have left leave these as they are if the binding
ones have the last word, and only then. -/
theorem get?_again_iff {at_ : Location → Prop} (hfirst : Lead t deeds u)
    (hagain : Lead u again last) (hrepeats : List.Forall₂ Repeats deeds again)
    (hrewrites : Rewrites at_ u last) :
    (∀ l, last.get? l = u.get? l) ↔ BindingLast deeds := by
  have hfound : ∀ e ∈ again, e.FoundIn u := by
    intro e he
    obtain ⟨d, hd, hsame⟩ := exists_left_of_forall₂ hrepeats he
    exact hsame.foundIn (foundIn_of_lead hfirst d hd)
  have hlast : ∀ l, last.get? l ≠ some .directory →
      last.get? l = ((lastAt binding deeds l).map entry).or (u.get? l) := by
    intro l hl
    rw [get?_of_lead_found hagain hfound hl, lastAt_of_repeats hrepeats]
  constructor
  · intro hsame l d hd
    obtain ⟨hdir, hleft⟩ := get?_of_lastAt_binding hfirst hd
    rw [← hleft, ← hsame, hlast l (by rwa [hsame]), hd]
    rfl
  · intro hbinding l
    by_cases hdir : last.get? l = some .directory
    · rw [hdir, (hrewrites.directory_iff l).mp hdir]
    · rw [hlast l hdir]
      cases hd : lastAt binding deeds l with
      | none => rfl
      | some d =>
          rw [(get?_of_lastAt_binding hfirst hd).2, hbinding l d hd]
          rfl

/-- Binding deeds have the last word where no other deed replaces anything. -/
theorem bindingLast_of_replaces (h : ∀ d ∈ deeds, d.replaces = true → d.binding = true) :
    BindingLast deeds := by
  intro l d hd
  have hsame : lastAt replaces deeds l = lastAt binding deeds l := by
    refine lastAt_congr (fun d hd => ?_) l
    rw [Bool.eq_iff_iff]
    exact ⟨h d hd, replaces_of_binding⟩
  rw [hsame, hd]
  rfl

/-- A deed with a location of its own is the last one there. -/
theorem lastAt_of_nodup {p : Deed → Bool} (hnodup : (deeds.map location).Nodup) (hd : d ∈ deeds)
    (hp : p d = true) : lastAt p deeds d.location = some d := by
  cases hlast : lastAt p deeds d.location with
  | none =>
      unfold lastAt at hlast
      rw [List.getLast?_eq_none_iff, List.filter_eq_nil_iff] at hlast
      exact absurd (by simp [hp]) (hlast d hd)
  | some e =>
      obtain ⟨he, hat, -⟩ := mem_of_lastAt hlast
      rw [List.inj_on_of_nodup_map hnodup he hd hat]

theorem bindingLast_of_nodup (hnodup : (deeds.map location).Nodup) : BindingLast deeds := by
  intro l d hd
  obtain ⟨hmem, rfl, hbinding⟩ := mem_of_lastAt hd
  rw [lastAt_of_nodup hnodup hmem (replaces_of_binding hbinding)]
  rfl

/-! ## Deeds that write nothing -/

/-- A deed that is not forced writes nothing on the files that deeds have left which never meet at
a location. -/
theorem outcome_of_nodup (hlead : Lead t deeds last) (hnodup : (deeds.map location).Nodup)
    (hd : d ∈ deeds) (hforce : d.write.force = false) :
    last.outcome d.overwrite d.path d.content ≠ .written := by
  obtain ⟨entry, hplace, -⟩ := foundIn_of_lead hlead d hd
  refine Files.Tree.outcome_of_found hplace ?_ ?_
  · unfold Deed.overwrite Overwrite.ofFlags
    rw [hforce]
    cases d.write.preserve <;> simp
  · intro hchanged
    have hbinding : d.binding = true := by
      cases hbinding : d.binding with
      | true => rfl
      | false => simp [overwrite_eq_ifMissing hbinding] at hchanged
    have hleft := (get?_of_lastAt_binding hlead (lastAt_of_nodup hnodup hd hbinding)).2
    rw [lastAt_of_nodup hnodup hd (replaces_of_binding hbinding)] at hleft
    have hget := Files.Tree.get?_of_found hplace
    exact Option.some.inj (hget.symm.trans hleft)

/-- Deeds that would write nothing at the start write nothing at all. -/
theorem result_of_lead : ∀ {t : Tree}, Lead t deeds last →
    (∀ d ∈ deeds, t.outcome d.overwrite d.path d.content ≠ .written) →
      ∀ d ∈ deeds, d.result ≠ .written := by
  induction deeds with
  | nil =>
      intro t _ _ d hd
      cases hd
  | cons first rest ih =>
      rintro t ⟨rfl, next, houtput, hlead⟩ h d hd
      have hhere : first.result ≠ .written := h first List.mem_cons_self
      rcases List.mem_cons.mp hd with rfl | hd
      · exact hhere
      · obtain ⟨-, ⟨hwritten, -⟩ | ⟨-, rfl⟩⟩ := Files.Tree.cases_of_output houtput
        · exact absurd hwritten hhere
        · exact ih hlead (fun e he => h e (List.mem_cons_of_mem first he)) d hd

/-- Deeds that never meet at a location and are not forced write nothing when they are repeated. -/
theorem result_again (hfirst : Lead t deeds u) (hagain : Lead u again last)
    (hrepeats : List.Forall₂ Repeats deeds again) (hnodup : (deeds.map location).Nodup)
    (hforce : ∀ d ∈ deeds, d.write.force = false) : ∀ e ∈ again, e.result ≠ .written := by
  refine result_of_lead hagain fun e he => ?_
  obtain ⟨d, hd, hsame⟩ := exists_left_of_forall₂ hrepeats he
  rw [hsame.overwrite, hsame.path, hsame.content]
  exact outcome_of_nodup hfirst hnodup hd (hforce d hd)

end Deed

end Stencil.Generate
