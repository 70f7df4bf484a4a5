import Stencil.Proofs.Files.Overlay

/-!
# Output files that are made again

An output leaves a tree that lies over the one before it, and its path denotes what is
then there.  So an output that is made again finds its file, and at most replaces what
the file holds: it creates nothing.
-/

namespace Stencil.Files

open Files.Path (components parent?)

namespace Tree

variable {t u : Tree} {path : String}

/-! ## What an output leaves -/

theorem Wrote.overlay {l : Location} {c : Content} (h : Wrote t l c u) :
    Overlay (· = l) t u := by
  refine ⟨h.working, fun m => ?_⟩
  by_cases hm : m = l
  · rw [hm]
    exact Or.inr (Or.inl ⟨rfl, h.notDirectory, c, h.at_⟩)
  · rcases h.elsewhere m hm with hsame | hnew
    · exact Or.inl hsame
    · exact Or.inr (Or.inr hnew)

theorem overlay_output {o : Overwrite} {text : String} {r : WriteResult}
    (h : t.output o path text = .ok (r, u)) : Overlay (· = t.location path) t u := by
  obtain ⟨-, ⟨-, hwrote⟩ | ⟨-, rfl⟩⟩ := cases_of_output h
  · exact hwrote.overlay
  · exact Overlay.refl u

/-- A walk to a place where a file is put finds the file. -/
theorem walk_put {m : Location} {c : Content} (hroot : m ≠ [])
    (hm : t.get? m ≠ some .directory) {cs : List Component} {p : Place}
    (hp : p = .free m ∨ ∃ old, p = .found m (.file old)) :
    ∀ {l : Location}, t.walk l cs = .ok p →
      (t.put m (.file c)).walk l cs = .ok (.found m (.file c)) := by
  have hat : (t.put m (.file c)).get? m = some (.file c) := by
    rw [get?_put t _ hroot, if_pos rfl]
  have hkept : ∀ l, t.get? l = some .directory →
      (t.put m (.file c)).get? l = some .directory := by
    intro l hl
    have hne : l ≠ m := by
      rintro rfl
      exact hm hl
    rw [get?_put t _ hroot, if_neg hne]
    exact hl
  induction cs with
  | nil =>
      intro l h
      have hl : m = l := by
        rcases hp with rfl | ⟨old, rfl⟩
        · unfold walk at h
          split at h <;> cases h
        · exact (isAt_of_walk h).1
      subst hl
      exact walk_nil hat
  | cons d rest ih =>
      intro l h
      cases d with
      | root | current | parent =>
          simp only [walk_root, walk_current, walk_parent] at h ⊢
          exact ih h
      | name s =>
          by_cases hrest : rest = []
          · subst hrest
            have hl : m = l ++ [s] := by
              rcases hp with rfl | ⟨old, rfl⟩
              · exact (isAt_of_walk h).1
              · exact (isAt_of_walk h).1
            rw [walk_name, ← hl, hat]
          · have hdir := directory_of_walk hrest h
            rw [walk_directory hdir] at h
            rw [walk_directory (hkept _ hdir)]
            exact ih h

/-- A file that has been stored is found. -/
theorem place_of_store {c : Content} (h : t.store path c = .ok u) :
    u.place path = .ok (.found (t.location path) (.file c)) := by
  obtain ⟨hplace, hend, rfl⟩ := cases_of_store h
  have hfound : ∀ {p}, t.place path = .ok p → t.location path ≠ [] →
      t.get? (t.location path) ≠ some .directory →
      (p = .free (t.location path) ∨ ∃ old, p = .found (t.location path) (.file old)) →
        (t.put (t.location path) (.file c)).place path =
          .ok (.found (t.location path) (.file c)) := by
    intro p hplace hroot hdir hp
    obtain ⟨hne, hwalk, -⟩ := place_eq_ok.mp hplace
    exact place_eq_ok.mpr ⟨hne, walk_put hroot hdir hp hwalk, fun _ _ _ => hend⟩
  rcases hplace with ⟨old, hplace⟩ | hplace
  · obtain ⟨-, hget⟩ := isAt_of_place hplace
    exact hfound hplace (ne_root_of_get? hget) (by simp [hget]) (Or.inr ⟨old, rfl⟩)
  · obtain ⟨-, hroot, hnone⟩ := isAt_of_place hplace
    exact hfound hplace hroot (by simp [hnone]) (Or.inl rfl)

theorem place_of_write {c : Content} (h : t.write path c = .ok u) :
    u.place path = .ok (.found (t.location path) (.file c)) := by
  obtain ⟨fuel, above, v, hmake, hstore⟩ := exists_store_of_write h
  rw [← location_eq_of_working (grows_makeDirectories hmake).working path]
  exact place_of_store hstore

theorem exists_place_of_exists (h : t.exists_ path = true) :
    ∃ e, t.place path = .ok (.found (t.location path) e) := by
  unfold exists_ find? at h
  split at h
  · rename_i l e hplace
    exact ⟨e, location_of_found hplace ▸ hplace⟩
  · cases h

theorem place_of_isDirectory (h : t.isDirectory path = true) :
    t.place path = .ok (.found (t.location path) .directory) := by
  have hfind : t.find? path = some .directory := by simpa [isDirectory] using h
  obtain ⟨e, hplace⟩ := exists_place_of_exists (t := t) (by rw [exists_, hfind]; rfl)
  obtain rfl : e = .directory := by simpa [find?, hplace] using hfind
  exact hplace

theorem exists_place_of_holds {text : String} (h : t.holds path text = true) :
    t.place path = .ok (.found (t.location path) (.file (.text text))) := by
  unfold holds at h
  split at h
  · rename_i s hread
    have hs : s = text := by simpa using h
    obtain ⟨l, hplace⟩ := exists_place_of_readText hread
    rw [← hs, ← location_of_found hplace]
    exact hplace
  · cases h

theorem holds_of_unchanged {o : Overwrite} {text : String}
    (h : t.outcome o path text = .unchanged) : t.holds path text = true := by
  cases hholds : t.holds path text with
  | true => rfl
  | false => cases hexists : t.exists_ path <;> cases o <;> simp [outcome, hholds, hexists] at h

theorem exists_of_preserved {o : Overwrite} {text : String}
    (h : t.outcome o path text = .preserved) : o = .ifMissing ∧ t.exists_ path = true := by
  cases hholds : t.holds path text <;> cases hexists : t.exists_ path <;> cases o <;>
    simp_all [outcome]

/-- The path of an output denotes something afterwards, and a file unless it is only created when
missing. -/
theorem place_of_output {o : Overwrite} {text : String} {r : WriteResult}
    (h : t.output o path text = .ok (r, u)) :
    ∃ e, u.place path = .ok (.found (t.location path) e) ∧
      (o ≠ .ifMissing → ∃ c, e = .file c) := by
  obtain ⟨hr, ⟨-, hwrite⟩ | ⟨hne, rfl⟩⟩ := write_of_output h
  · exact ⟨.file (.text text), place_of_write hwrite, fun _ => ⟨.text text, rfl⟩⟩
  · cases r with
    | written => exact absurd rfl hne
    | unchanged =>
        exact ⟨.file (.text text), exists_place_of_holds (holds_of_unchanged hr.symm),
          fun _ => ⟨.text text, rfl⟩⟩
    | preserved =>
        obtain ⟨hmissing, hexists⟩ := exists_of_preserved hr.symm
        obtain ⟨e, he⟩ := exists_place_of_exists hexists
        exact ⟨e, he, fun hne => absurd hmissing hne⟩

/-! ## Outputs that find their file -/

/-- Whether a tree comes from another one by other contents of files at some locations. -/
structure Rewrites (at_ : Location → Prop) (t u : Tree) : Prop where
  working : u.working = t.working
  get? : ∀ l, u.get? l = t.get? l ∨
    (at_ l ∧ (∃ c, t.get? l = some (.file c)) ∧ ∃ c, u.get? l = some (.file c))

namespace Rewrites

variable {at_ : Location → Prop} {v : Tree}

theorem refl (t : Tree) : Rewrites at_ t t := ⟨rfl, fun _ => Or.inl rfl⟩

theorem trans (h : Rewrites at_ t u) (k : Rewrites at_ u v) : Rewrites at_ t v := by
  refine ⟨k.working.trans h.working, fun l => ?_⟩
  rcases k.get? l with hsame | ⟨hat, ⟨c, hc⟩, hfile⟩
  · rw [hsame]
    exact h.get? l
  · rcases h.get? l with hsame | ⟨-, hold, -⟩
    · exact Or.inr ⟨hat, ⟨c, hsame ▸ hc⟩, hfile⟩
    · exact Or.inr ⟨hat, hold, hfile⟩

theorem overlay (h : Rewrites at_ t u) : Overlay at_ t u := by
  refine ⟨h.working, fun l => ?_⟩
  rcases h.get? l with hsame | ⟨hat, ⟨c, hc⟩, hfile⟩
  · exact Or.inl hsame
  · exact Or.inr (Or.inl ⟨hat, by simp [hc], hfile⟩)

/-- No directory is new. -/
theorem directory_iff (h : Rewrites at_ t u) (l : Location) :
    u.get? l = some .directory ↔ t.get? l = some .directory := by
  rcases h.get? l with hsame | ⟨-, ⟨c, hc⟩, c', hc'⟩
  · rw [hsame]
  · simp [hc, hc']

theorem rooted (h : Rewrites at_ t u) (ht : t.Rooted) : u.Rooted where
  above l s hs := by
    refine (h.directory_iff l).mpr (ht.above l s ?_)
    rcases h.get? (l ++ [s]) with hsame | ⟨-, ⟨c, hc⟩, -⟩
    · rwa [← hsame]
    · simp [hc]
  working := by
    rw [h.working]
    exact (h.directory_iff t.working).mpr ht.working

end Rewrites

theorem makeDirectory_of_found {l : Location} {e : Entry} (h : t.place path = .ok (.found l e)) :
    t.makeDirectory path = .error .exists_ := by
  simp [makeDirectory, h]

/-- A directory that is there need not be created. -/
theorem makeDirectories_of_isDirectory (fuel : Nat) (h : path = "" ∨ t.isDirectory path = true) :
    t.makeDirectories (fuel + 1) path = .ok t := by
  unfold makeDirectories
  by_cases hempty : path = ""
  · simp [hempty]
  · have hdir : t.isDirectory path = true := h.resolve_left hempty
    rw [if_neg (by simp [String.isEmpty_iff, hempty]),
      makeDirectory_of_found (place_of_isDirectory hdir)]
    simp [hdir]

/-- A file that its path denotes can be replaced. -/
theorem Rooted.write_of_found (ht : t.Rooted) {l : Location} {c : Content}
    (h : t.place path = .ok (.found l (.file c))) (new : Content) :
    t.write path new = .ok (t.put l (.file new)) := by
  have hstore : t.store path new = .ok (t.put l (.file new)) := by simp [Tree.store, h]
  unfold Tree.write
  cases habove : parent? path with
  | none => exact hstore
  | some above =>
      have hdir : above = "" ∨ t.isDirectory above = true := by
        by_cases hempty : above = ""
        · exact Or.inl hempty
        · exact Or.inr (ht.isDirectory_parent h habove hempty)
      dsimp only
      rw [makeDirectories_of_isDirectory above.length hdir]
      exact hstore

theorem rewrites_put {l : Location} {c new : Content} (h : t.get? l = some (.file c)) :
    Rewrites (· = l) t (t.put l (.file new)) := by
  refine ⟨rfl, fun m => ?_⟩
  rw [get?_put t _ (ne_root_of_get? h)]
  by_cases hm : m = l
  · rw [if_pos hm, hm]
    exact Or.inr ⟨rfl, ⟨c, h⟩, new, rfl⟩
  · rw [if_neg hm]
    exact Or.inl rfl

/-- An output that finds what it is to write succeeds, and at most replaces what a file holds. -/
theorem Rooted.output_of_found (ht : t.Rooted) {l : Location} {e : Entry} {o : Overwrite}
    (h : t.place path = .ok (.found l e)) (he : o ≠ .ifMissing → ∃ c, e = .file c)
    (text : String) : ∃ r u, t.output o path text = .ok (r, u) ∧ Rewrites (· = l) t u := by
  have hexists : t.exists_ path = true := by simp [exists_, find?, h]
  unfold Tree.output
  cases houtcome : t.outcome o path text with
  | unchanged => exact ⟨.unchanged, t, rfl, Rewrites.refl t⟩
  | preserved => exact ⟨.preserved, t, rfl, Rewrites.refl t⟩
  | written =>
      have hne : o ≠ .ifMissing := by
        rintro rfl
        cases hholds : t.holds path text <;> simp [outcome, hholds, hexists] at houtcome
      obtain ⟨c, rfl⟩ := he hne
      dsimp only
      rw [ht.write_of_found h]
      exact ⟨.written, _, rfl, rewrites_put (get?_of_found h)⟩

/-- An output that need not be forced and finds its text, or that is only created when missing,
writes nothing. -/
theorem outcome_of_found {l : Location} {e : Entry} {o : Overwrite} {text : String}
    (h : t.place path = .ok (.found l e)) (ho : o ≠ .always)
    (he : o = .ifChanged → e = .file (.text text)) : t.outcome o path text ≠ .written := by
  have hexists : t.exists_ path = true := by simp [exists_, find?, h]
  cases o with
  | always => exact absurd rfl ho
  | ifChanged =>
      have hholds : t.holds path text = true := by simp [holds, readText, h, he rfl]
      simp [outcome, hholds]
  | ifMissing => cases hholds : t.holds path text <;> simp [outcome, hholds, hexists]

/-! ## Names -/

/-- A place that is free has a name at its end that the walk has come to. -/
theorem exists_name_of_walk {cs : List Component} {m : Location} :
    ∀ {l : Location}, t.walk l cs = .ok (.free m) → ∃ d s, m = d ++ [s] ∧ .name s ∈ cs := by
  induction cs with
  | nil =>
      intro l h
      unfold walk at h
      split at h <;> simp at h
  | cons c rest ih =>
      intro l h
      have hrest : ∀ {l}, t.walk l rest = .ok (.free m) →
          ∃ d s, m = d ++ [s] ∧ .name s ∈ c :: rest := by
        intro l hwalk
        obtain ⟨d, s, hm, hs⟩ := ih hwalk
        exact ⟨d, s, hm, List.mem_cons_of_mem c hs⟩
      cases c with
      | root | current | parent =>
          simp only [walk_root, walk_current, walk_parent] at h
          exact hrest h
      | name s =>
          by_cases hend : rest = []
          · subst hend
            exact ⟨l, s, (isAt_of_walk h).1, List.mem_cons_self⟩
          · rw [walk_directory (directory_of_walk hend h)] at h
            exact hrest h

theorem exists_name_of_place {m : Location} (h : t.place path = .ok (.free m)) :
    ∃ d s, m = d ++ [s] ∧ Path.IsName s := by
  obtain ⟨d, s, hm, hs⟩ := exists_name_of_walk (place_eq_ok.mp h).2.1
  exact ⟨d, s, hm, Path.isName_of_mem_components hs⟩

/-- Whether all that one tree has and another has not has a name. -/
def AddsNames (t u : Tree) : Prop :=
  ∀ l s, (u.get? (l ++ [s])).isSome → (t.get? (l ++ [s])).isSome ∨ Path.IsName s

theorem AddsNames.refl (t : Tree) : AddsNames t t := fun _ _ h => Or.inl h

theorem AddsNames.trans {v : Tree} (h : AddsNames t u) (k : AddsNames u v) : AddsNames t v := by
  intro l s hs
  rcases k l s hs with hu | hname
  · exact h l s hu
  · exact Or.inr hname

theorem addsNames_put {m : Location} {e : Entry} (hroot : m ≠ [])
    (hm : (t.get? m).isSome ∨ ∃ d s, m = d ++ [s] ∧ Path.IsName s) : AddsNames t (t.put m e) := by
  intro l s hs
  rw [get?_put t e hroot] at hs
  by_cases heq : l ++ [s] = m
  · rcases hm with hsome | ⟨d, s', hsplit, hname⟩
    · exact Or.inl (heq ▸ hsome)
    · obtain ⟨-, hlast⟩ := List.append_inj' (heq.trans hsplit) rfl
      cases hlast
      exact Or.inr hname
  · rw [if_neg heq] at hs
    exact Or.inl hs

theorem addsNames_output {o : Overwrite} {text : String} {r : WriteResult}
    (h : t.output o path text = .ok (r, u)) : AddsNames t u := by
  refine related_output AddsNames.refl AddsNames.trans ?_ ?_ h
  · intro t path e hplace
    obtain ⟨-, hroot, -⟩ := isAt_of_place hplace
    exact addsNames_put hroot (Or.inr (exists_name_of_place hplace))
  · intro t path old new hplace
    obtain ⟨-, hget⟩ := isAt_of_place hplace
    exact addsNames_put (ne_root_of_get? hget) (Or.inl (by simp [hget]))

/-- Every entry lies in a directory, and has a name in it. -/
structure Proper (t : Tree) : Prop extends Rooted t where
  named : ∀ l s, (t.get? (l ++ [s])).isSome → Path.IsName s

theorem proper_of_entries (hworking : t.get? t.working = some .directory)
    (h : ∀ e ∈ t.entries, t.get? e.1.dropLast = some .directory ∧
      ∀ s ∈ e.1.getLast?, Path.IsName s) : t.Proper := by
  have hentry : ∀ l s, (t.get? (l ++ [s])).isSome →
      t.get? l = some .directory ∧ Path.IsName s := by
    intro l s hsome
    obtain ⟨e, he⟩ := Option.isSome_iff_exists.mp hsome
    have hlookup : t.entries.lookup (l ++ [s]) = some e := by simpa [get?] using he
    obtain ⟨before, after, hsplit, -⟩ := List.lookup_eq_some_iff.mp hlookup
    simpa using h (l ++ [s], e) (by simp [hsplit])
  exact ⟨⟨fun l s hs => (hentry l s hs).1, hworking⟩, fun l s hs => (hentry l s hs).2⟩

theorem Proper.output (ht : t.Proper) {o : Overwrite} {text : String} {r : WriteResult}
    (h : t.output o path text = .ok (r, u)) : u.Proper where
  toRooted := ht.toRooted.output h
  named l s hs := by
    rcases addsNames_output h l s hs with hold | hname
    · exact ht.named l s hold
    · exact hname

end Tree

end Stencil.Files
