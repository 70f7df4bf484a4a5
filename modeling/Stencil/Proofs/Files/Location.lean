import Stencil.Output

/-!
# Where paths lead

A path leads from the working directory to a location that does not depend on
what stands in the tree.  A walk through the tree either fails or ends exactly
there, so the location is that of the file which the path denotes.  Writing at
a path changes what stands at its location and creates directories where
nothing was; everything else stays.
-/

namespace Stencil.Files

/-- The location that components lead to from another one, whatever stands on the way. -/
def Location.follow : Location → List Component → Location
  | l, [] => l
  | _, .root :: rest => follow [] rest
  | l, .current :: rest => follow l rest
  | l, .parent :: rest => follow l.dropLast rest
  | l, .name s :: rest => follow (l ++ [s]) rest

namespace Tree

/-- The location that a path leads to. -/
def location (t : Tree) (path : String) : Location :=
  Location.follow t.working (Path.components path)

/-! ## Walks -/

/-- Whether a place is the given location as the tree has it. -/
def IsAt (t : Tree) (l : Location) : Place → Prop
  | .found m e => m = l ∧ t.get? l = some e
  | .free m => m = l ∧ l ≠ [] ∧ t.get? l = none

/-- A walk ends at the location that its components lead to. -/
theorem isAt_of_walk {t : Tree} {cs : List Component} :
    ∀ {l : Location} {p : Place}, t.walk l cs = .ok p → t.IsAt (l.follow cs) p := by
  induction cs with
  | nil =>
      intro l p h
      unfold walk at h
      cases hget : t.get? l with
      | none => simp [hget] at h
      | some e =>
          simp only [hget, Except.ok.injEq] at h
          subst h
          exact ⟨rfl, hget⟩
  | cons c rest ih =>
      intro l p h
      cases c with
      | root => exact ih (by simpa [walk] using h)
      | current => exact ih (by simpa [walk] using h)
      | parent => exact ih (by simpa [walk] using h)
      | name s =>
          unfold walk at h
          cases hget : t.get? (l ++ [s]) with
          | none =>
              cases rest with
              | nil =>
                  simp only [hget, Except.ok.injEq] at h
                  subst h
                  exact ⟨rfl, by simp [Location.follow], hget⟩
              | cons d rest => simp [hget] at h
          | some e =>
              cases e with
              | directory => exact ih (by simpa [hget] using h)
              | file c =>
                  cases rest with
                  | nil =>
                      simp only [hget, Except.ok.injEq] at h
                      subst h
                      exact ⟨rfl, hget⟩
                  | cons d rest => simp [hget] at h

/-- A path denotes the place where the walk over its components ends, unless it is empty, or names a
directory by its end and a file stands there. -/
theorem place_eq_ok {t : Tree} {path : String} {p : Place} :
    t.place path = .ok p ↔
      path ≠ "" ∧ t.walk t.working (Path.components path) = .ok p ∧
        ∀ l c, p = .found l (.file c) → endsInDirectory path = false := by
  unfold place
  by_cases hempty : path = ""
  · simp [hempty]
  · rw [if_neg (by simpa [String.isEmpty_iff] using hempty)]
    cases hwalk : t.walk t.working (Path.components path) with
    | error f => simp
    | ok q =>
        cases q with
        | free m =>
            simp only [ne_eq, hempty, not_false_eq_true, true_and, Except.ok.injEq]
            exact ⟨fun h => ⟨h, by simp [← h]⟩, fun h => h.1⟩
        | found m e =>
            cases e with
            | directory =>
                simp only [ne_eq, hempty, not_false_eq_true, true_and, Except.ok.injEq]
                exact ⟨fun h => ⟨h, by simp [← h]⟩, fun h => h.1⟩
            | file c =>
                simp only [ne_eq, hempty, not_false_eq_true, true_and]
                cases hend : endsInDirectory path with
                | true =>
                    simp only [if_true, Except.ok.injEq, reduceCtorEq, false_iff, not_and]
                    intro hp hfile
                    exact absurd (hfile m c hp.symm) (by simp)
                | false => simp

/-- The place that a path denotes is the location that it leads to. -/
theorem isAt_of_place {t : Tree} {path : String} {p : Place} (h : t.place path = .ok p) :
    t.IsAt (t.location path) p :=
  isAt_of_walk (place_eq_ok.mp h).2.1

/-- What a path denotes stands at its location. -/
theorem get?_of_find? {t : Tree} {path : String} {e : Entry} (h : t.find? path = some e) :
    t.get? (t.location path) = some e := by
  unfold find? at h
  split at h
  · rename_i l found hplace
    simp only [Option.some.injEq] at h
    subst h
    exact (isAt_of_place hplace).2
  · simp at h

/-- The text that a path gives stands at its location. -/
theorem get?_of_readText {t : Tree} {path s : String} (h : t.readText path = .ok s) :
    t.get? (t.location path) = some (.file (.text s)) := by
  unfold readText at h
  split at h <;> simp only [reduceCtorEq, Except.ok.injEq] at h
  rename_i l found hplace
  subst h
  exact (isAt_of_place hplace).2

/-! ## Putting entries -/

theorem lookup_filter_ne {l m : Location} (hm : m ≠ l) (entries : List (Location × Entry)) :
    (entries.filter (·.1 != l)).lookup m = entries.lookup m := by
  induction entries with
  | nil => rfl
  | cons p rest ih =>
      obtain ⟨k, e⟩ := p
      by_cases hk : k = l
      · have hmk : (m == k) = false := beq_eq_false_iff_ne.mpr (by rw [hk]; exact hm)
        simp [List.lookup_cons, hk, ih, beq_eq_false_iff_ne.mpr hm]
      · simp [List.lookup_cons, hk, ih]

/-- An entry that is put at a location other than the root stands there, and nothing else moves. -/
theorem get?_put (t : Tree) {l : Location} (e : Entry) (hl : l ≠ []) (m : Location) :
    (t.put l e).get? m = if m = l then some e else t.get? m := by
  unfold get? put
  by_cases hm : m = l
  · simp [hm, hl]
  · simp [hm, List.lookup_cons, beq_eq_false_iff_ne.mpr hm, lookup_filter_ne hm]

/-- Whether a tree comes from another one by new directories alone. -/
structure Grows (t u : Tree) : Prop where
  working : u.working = t.working
  get? : ∀ l, u.get? l = t.get? l ∨ (t.get? l = none ∧ u.get? l = some .directory)

theorem Grows.refl (t : Tree) : Grows t t := ⟨rfl, fun _ => Or.inl rfl⟩

theorem Grows.trans {t u v : Tree} (h : Grows t u) (k : Grows u v) : Grows t v := by
  refine ⟨k.working.trans h.working, ?_⟩
  intro l
  rcases k.get? l with hk | ⟨hnone, hdir⟩
  · rcases h.get? l with hh | ⟨hnone, hdir⟩
    · exact Or.inl (hk.trans hh)
    · exact Or.inr ⟨hnone, hk.trans hdir⟩
  · rcases h.get? l with hh | ⟨-, habs⟩
    · exact Or.inr ⟨hh ▸ hnone, hdir⟩
    · rw [hnone] at habs
      cases habs

/-- What stands somewhere stays when directories are created. -/
theorem Grows.get?_of_some {t u : Tree} {l : Location} {e : Entry} (h : Grows t u)
    (hl : t.get? l = some e) : u.get? l = some e := by
  rcases h.get? l with hsame | ⟨hnone, -⟩
  · exact hsame.trans hl
  · rw [hl] at hnone
    cases hnone

theorem location_eq_of_working {t u : Tree} (h : u.working = t.working) (path : String) :
    u.location path = t.location path := by
  unfold location
  rw [h]

/-- A directory is created at the location of its path, where nothing stands. -/
theorem place_of_makeDirectory {t u : Tree} {path : String} (h : t.makeDirectory path = .ok u) :
    t.place path = .ok (.free (t.location path)) ∧ u = t.put (t.location path) .directory := by
  unfold makeDirectory at h
  split at h <;> simp only [reduceCtorEq, Except.ok.injEq] at h
  rename_i l hplace
  obtain ⟨rfl, -⟩ := isAt_of_place hplace
  exact ⟨hplace, h.symm⟩

theorem grows_makeDirectory {t u : Tree} {path : String} (h : t.makeDirectory path = .ok u) :
    Grows t u := by
  obtain ⟨hplace, rfl⟩ := place_of_makeDirectory h
  obtain ⟨-, hroot, hnone⟩ := isAt_of_place hplace
  refine ⟨rfl, ?_⟩
  intro m
  rw [get?_put t .directory hroot m]
  by_cases hm : m = t.location path
  · exact Or.inr ⟨hm ▸ hnone, if_pos hm⟩
  · exact Or.inl (if_neg hm)

/-- What holds between a tree and the one with one more directory holds for all directories that
are created above a path. -/
theorem related_makeDirectories {R : Tree → Tree → Prop} (hrefl : ∀ t, R t t)
    (htrans : ∀ {t u v}, R t u → R u v → R t v)
    (hmake : ∀ {t u path}, t.makeDirectory path = .ok u → R t u) {fuel : Nat} :
    ∀ {t u : Tree} {path : String}, t.makeDirectories fuel path = .ok u → R t u := by
  induction fuel with
  | zero =>
      intro t u path h
      simp [makeDirectories] at h
  | succ fuel ih =>
      intro t u path h
      unfold makeDirectories at h
      split at h
      · simp only [Except.ok.injEq] at h
        exact h ▸ hrefl t
      · split at h
        · rename_i v hdirectory
          simp only [Except.ok.injEq] at h
          exact h ▸ hmake hdirectory
        · split at h
          · simp at h
          · rename_i above habove
            split at h
            · simp at h
            · rename_i v hparents
              have hrelated : R t v := ih hparents
              split at h
              · rename_i w hdirectory
                simp only [Except.ok.injEq] at h
                exact h ▸ htrans hrelated (hmake hdirectory)
              · split at h <;> simp only [reduceCtorEq, Except.ok.injEq] at h
                exact h ▸ hrelated
        · split at h <;> simp only [reduceCtorEq, Except.ok.injEq] at h
          exact h ▸ hrefl t

theorem grows_makeDirectories {t u : Tree} {fuel : Nat} {path : String}
    (h : t.makeDirectories fuel path = .ok u) : Grows t u :=
  related_makeDirectories Grows.refl Grows.trans grows_makeDirectory h

/-- A directory that cannot be created may leave directories on the way to it. -/
theorem grows_begunDirectories {t : Tree} {fuel : Nat} :
    ∀ {path : String}, Grows t (t.begunDirectories fuel path) := by
  induction fuel with
  | zero => exact Grows.refl t
  | succ fuel ih =>
      intro path
      unfold begunDirectories
      split
      · rename_i u hmake
        exact grows_makeDirectories hmake
      · split
        · exact ih
        · exact Grows.refl t

/-- A write that fails changes no file. -/
theorem grows_afterFailedWrite (t : Tree) (path : String) : Grows t (t.afterFailedWrite path) := by
  unfold afterFailedWrite
  split
  · exact grows_begunDirectories
  · exact Grows.refl t

/-! ## Writing -/

/-- Whether a tree comes from another one by a file at a location, which was no directory, and by
new directories. -/
structure Wrote (t : Tree) (l : Location) (c : Content) (u : Tree) : Prop where
  working : u.working = t.working
  at_ : u.get? l = some (.file c)
  notDirectory : t.get? l ≠ some .directory
  elsewhere : ∀ m, m ≠ l → u.get? m = t.get? m ∨ (t.get? m = none ∧ u.get? m = some .directory)

/-- A file that is put where no directory stands is written there. -/
theorem wrote_put {t : Tree} {l : Location} {c : Content} (hroot : l ≠ [])
    (hdir : t.get? l ≠ some .directory) : Wrote t l c (t.put l (.file c)) where
  working := rfl
  at_ := by rw [get?_put t _ hroot, if_pos rfl]
  notDirectory := hdir
  elsewhere := by
    intro m hm
    rw [get?_put t _ hroot, if_neg hm]
    exact Or.inl rfl

/-- The root is a directory. -/
theorem ne_root_of_get? {t : Tree} {l : Location} {c : Content}
    (h : t.get? l = some (.file c)) : l ≠ [] := by
  rintro rfl
  simp [get?] at h

/-- A file is stored at the location of its path, in place of another one or where nothing stands;
the path does not name a directory by its end. -/
theorem cases_of_store {t u : Tree} {path : String} {c : Content} (h : t.store path c = .ok u) :
    ((∃ old, t.place path = .ok (.found (t.location path) (.file old))) ∨
      t.place path = .ok (.free (t.location path))) ∧
      endsInDirectory path = false ∧ u = t.put (t.location path) (.file c) := by
  unfold store at h
  split at h
  · rename_i l old hplace
    obtain ⟨rfl, -⟩ := isAt_of_place hplace
    exact ⟨Or.inl ⟨old, hplace⟩, (place_eq_ok.mp hplace).2.2 _ old rfl, (Except.ok.inj h).symm⟩
  · cases h
  · rename_i l hplace
    obtain ⟨rfl, -⟩ := isAt_of_place hplace
    split at h <;> simp only [reduceCtorEq, Except.ok.injEq] at h
    rename_i hend
    exact ⟨Or.inr hplace, by simpa using hend, h.symm⟩
  · cases h

theorem wrote_store {t u : Tree} {path : String} {c : Content} (h : t.store path c = .ok u) :
    Wrote t (t.location path) c u := by
  obtain ⟨⟨old, hplace⟩ | hplace, -, rfl⟩ := cases_of_store h
  · obtain ⟨-, hfile⟩ := isAt_of_place hplace
    exact wrote_put (ne_root_of_get? hfile) (by simp [hfile])
  · obtain ⟨-, hroot, hnone⟩ := isAt_of_place hplace
    exact wrote_put hroot (by simp [hnone])

/-- Directories that are created first do not matter for what a write does. -/
theorem Grows.wrote {t u v : Tree} {l : Location} {c : Content} (h : Grows t u)
    (k : Wrote u l c v) : Wrote t l c v where
  working := k.working.trans h.working
  at_ := k.at_
  notDirectory := by
    intro hdir
    rcases h.get? l with hsame | ⟨hnone, -⟩
    · exact k.notDirectory (hsame.trans hdir)
    · rw [hdir] at hnone
      cases hnone
  elsewhere := by
    intro m hm
    rcases k.elsewhere m hm with hk | ⟨hnone, hdir⟩
    · rcases h.get? m with hh | ⟨hnone, hdir⟩
      · exact Or.inl (hk.trans hh)
      · exact Or.inr ⟨hnone, hk.trans hdir⟩
    · rcases h.get? m with hh | ⟨-, habs⟩
      · exact Or.inr ⟨hh ▸ hnone, hdir⟩
      · rw [hnone] at habs
        cases habs

/-- A file is stored once the directories that it lies in have been created. -/
theorem exists_store_of_write {t u : Tree} {path : String} {c : Content}
    (h : t.write path c = .ok u) :
    ∃ fuel above v, t.makeDirectories fuel above = .ok v ∧ v.store path c = .ok u := by
  unfold Tree.write at h
  split at h
  · rename_i above _
    split at h
    · rename_i v hmake
      exact ⟨_, above, v, hmake, h⟩
    · cases h
  · exact ⟨1, "", t, by simp [makeDirectories], h⟩

/-- A write at a path is one at its location. -/
theorem wrote_write {t u : Tree} {path : String} {c : Content} (h : t.write path c = .ok u) :
    Wrote t (t.location path) c u := by
  obtain ⟨fuel, above, v, hmake, hstore⟩ := exists_store_of_write h
  have hgrown : Grows t v := grows_makeDirectories hmake
  rw [← location_eq_of_working hgrown.working path]
  exact hgrown.wrote (wrote_store hstore)

/-! ## Output files -/

section Output

variable {t u : Tree} {o : Overwrite} {path text : String} {r : WriteResult}

/-- An output that succeeds has the outcome that the tree decides: either the text is written, or
the tree stays as it is. -/
theorem write_of_output (h : t.output o path text = .ok (r, u)) :
    r = t.outcome o path text ∧
      (r = .written ∧ t.write path (.text text) = .ok u ∨ r ≠ .written ∧ u = t) := by
  unfold output at h
  split at h
  · rename_i houtcome
    cases hwrite : t.write path (.text text) with
    | error f => simp [hwrite, Except.map] at h
    | ok v =>
        simp only [hwrite, Except.map, Except.ok.injEq, Prod.mk.injEq] at h
        obtain ⟨rfl, rfl⟩ := h
        exact ⟨houtcome.symm, Or.inl ⟨rfl, rfl⟩⟩
  · rename_i hother
    simp only [Except.ok.injEq, Prod.mk.injEq] at h
    obtain ⟨rfl, rfl⟩ := h
    exact ⟨rfl, Or.inr ⟨hother, rfl⟩⟩

/-- What is written by an output stands at the location of the path. -/
theorem cases_of_output (h : t.output o path text = .ok (r, u)) :
    r = t.outcome o path text ∧
      (r = .written ∧ Wrote t (t.location path) (.text text) u ∨ r ≠ .written ∧ u = t) := by
  obtain ⟨hr, hcases⟩ := write_of_output h
  exact ⟨hr, hcases.imp_left fun ⟨hwritten, hwrite⟩ => ⟨hwritten, wrote_write hwrite⟩⟩

/-- What holds between a tree and the one with an entry put where nothing stood, or with another
content of a file, holds for an output. -/
theorem related_output {R : Tree → Tree → Prop} (hrefl : ∀ t, R t t)
    (htrans : ∀ {t u v}, R t u → R u v → R t v)
    (hfree : ∀ {t : Tree} {path} e, t.place path = .ok (.free (t.location path)) →
      R t (t.put (t.location path) e))
    (hfile : ∀ {t : Tree} {path old} new,
      t.place path = .ok (.found (t.location path) (.file old)) → R t (t.put (t.location path) (.file new)))
    (h : t.output o path text = .ok (r, u)) : R t u := by
  obtain ⟨-, ⟨-, hwrite⟩ | ⟨-, rfl⟩⟩ := write_of_output h
  · obtain ⟨fuel, above, v, hmake, hstore⟩ := exists_store_of_write hwrite
    have hdirectory : ∀ {t u path}, t.makeDirectory path = .ok u → R t u := by
      intro t u path hmake
      obtain ⟨hplace, rfl⟩ := place_of_makeDirectory hmake
      exact hfree .directory hplace
    refine htrans (related_makeDirectories hrefl htrans hdirectory hmake) ?_
    obtain ⟨⟨old, hplace⟩ | hplace, -, rfl⟩ := cases_of_store hstore
    · exact hfile (.text text) hplace
    · exact hfree (.file (.text text)) hplace
  · exact hrefl u

/-- A directory stays one. -/
theorem directory_of_output (h : t.output o path text = .ok (r, u)) {l : Location}
    (hl : t.get? l = some .directory) : u.get? l = some .directory := by
  obtain ⟨-, ⟨-, hwrote⟩ | ⟨-, rfl⟩⟩ := cases_of_output h
  · have hne : l ≠ t.location path := by
      rintro rfl
      exact hwrote.notDirectory hl
    rcases hwrote.elsewhere l hne with hsame | ⟨hnone, -⟩
    · exact hsame.trans hl
    · rw [hl] at hnone
      cases hnone
  · exact hl

/-- A location that the path does not lead to keeps what stands there, unless it becomes a
directory. -/
theorem get?_output_of_ne (h : t.output o path text = .ok (r, u)) {l : Location}
    (hl : l ≠ t.location path) (hdir : u.get? l ≠ some .directory) : u.get? l = t.get? l := by
  obtain ⟨-, ⟨-, hwrote⟩ | ⟨-, rfl⟩⟩ := cases_of_output h
  · rcases hwrote.elsewhere l hl with hsame | ⟨-, habs⟩
    · exact hsame
    · exact absurd habs hdir
  · rfl

/-- A file that holds a text is found with it at its location. -/
theorem get?_of_holds (h : t.holds path text = true) :
    t.get? (t.location path) = some (.file (.text text)) := by
  unfold holds at h
  split at h
  · rename_i s hread
    have hs : s = text := by simpa using h
    exact hs ▸ get?_of_readText hread
  · simp at h

/-- Unless it is only created when missing, the location of the path holds the text afterwards. -/
theorem get?_output_replacing (h : t.output o path text = .ok (r, u)) (ho : o ≠ .ifMissing) :
    u.get? (t.location path) = some (.file (.text text)) := by
  obtain ⟨hr, ⟨-, hwrote⟩ | ⟨hne, rfl⟩⟩ := cases_of_output h
  · exact hwrote.at_
  · subst hr
    cases o with
    | always => exact absurd rfl hne
    | ifMissing => exact absurd rfl ho
    | ifChanged =>
        by_cases hholds : u.holds path text = true
        · exact get?_of_holds hholds
        · simp [outcome, hholds] at hne

/-- A file that is only created when missing keeps what its path denotes. -/
theorem output_ifMissing_of_exists (h : t.output .ifMissing path text = .ok (r, u))
    (hpath : t.exists_ path = true) : u = t := by
  obtain ⟨hr, ⟨hwritten, -⟩ | ⟨-, hsame⟩⟩ := cases_of_output h
  · rw [hwritten] at hr
    by_cases hholds : t.holds path text = true
    · simp [outcome, hholds] at hr
    · simp [outcome, hholds, hpath] at hr
  · exact hsame

/-- A file that is only created when missing is written when its path denotes nothing. -/
theorem get?_output_ifMissing (h : t.output .ifMissing path text = .ok (r, u))
    (hpath : t.exists_ path = false) : u.get? (t.location path) = some (.file (.text text)) := by
  obtain ⟨hr, ⟨-, hwrote⟩ | ⟨hne, rfl⟩⟩ := cases_of_output h
  · exact hwrote.at_
  · subst hr
    by_cases hholds : u.holds path text = true
    · exact get?_of_holds hholds
    · simp [outcome, hholds, hpath] at hne

end Output

end Tree

end Stencil.Files
