import Stencil.Proofs.Files.Location

/-!
# Trees whose entries lie in directories

In a tree where every entry lies in a directory, a path that never turns back and
denotes nothing leads to a location where nothing stands.  Everything that writes
to a tree keeps this form.
-/

namespace Stencil.Files

/-- Every entry lies in a directory, and the working directory is one. -/
structure Tree.Rooted (t : Tree) : Prop where
  above : ∀ l s, (t.get? (l ++ [s])).isSome → t.get? l = some .directory
  working : t.get? t.working = some .directory

/-- Whether a path never turns back. -/
def Path.Descends (path : String) : Prop := Component.parent ∉ Path.components path

variable {t u : Tree}

namespace Tree

/-! ## Writing keeps trees rooted -/

/-- An entry may be put into a directory where no directory stands. -/
theorem Rooted.put (ht : t.Rooted) {l : Location} (e : Entry) (hroot : l ≠ [])
    (habove : ∀ d s, l = d ++ [s] → t.get? d = some .directory)
    (hl : t.get? l ≠ some .directory) : (t.put l e).Rooted := by
  have hkept : ∀ m, t.get? m = some .directory → (t.put l e).get? m = some .directory := by
    intro m hm
    have hne : m ≠ l := by
      rintro rfl
      exact hl hm
    rw [get?_put t e hroot, if_neg hne]
    exact hm
  constructor
  · intro d s hsome
    by_cases heq : d ++ [s] = l
    · exact hkept d (habove d s heq.symm)
    · rw [get?_put t e hroot, if_neg heq] at hsome
      exact hkept d (ht.above d s hsome)
  · exact hkept t.working ht.working

/-- A directory above a directory is one. -/
theorem Rooted.dropLast (ht : t.Rooted) {l : Location} (hl : t.get? l = some .directory) :
    t.get? l.dropLast = some .directory := by
  by_cases hroot : l = []
  · rw [hroot]
    rfl
  · have hsplit := List.dropLast_concat_getLast hroot
    refine ht.above l.dropLast (l.getLast hroot) ?_
    rw [hsplit, hl]
    rfl

/-- A place that is free lies in a directory. -/
theorem Rooted.above_of_walk (ht : t.Rooted) {cs : List Component} :
    ∀ {l m : Location}, t.get? l = some .directory → t.walk l cs = .ok (.free m) →
      ∀ d s, m = d ++ [s] → t.get? d = some .directory := by
  induction cs with
  | nil =>
      intro l m hl h
      simp [walk, hl] at h
  | cons c rest ih =>
      intro l m hl h
      cases c with
      | root => exact ih rfl (by simpa [walk] using h)
      | current => exact ih hl (by simpa [walk] using h)
      | parent => exact ih (ht.dropLast hl) (by simpa [walk] using h)
      | name s =>
          unfold walk at h
          cases hget : t.get? (l ++ [s]) with
          | none =>
              cases rest with
              | nil =>
                  simp only [hget, Except.ok.injEq, Place.free.injEq] at h
                  intro d s' heq
                  obtain ⟨rfl, -⟩ := List.append_inj' (h.trans heq) rfl
                  exact hl
              | cons d rest => simp [hget] at h
          | some e =>
              cases e with
              | directory => exact ih hget (by simpa [hget] using h)
              | file c => cases rest <;> simp [hget] at h

theorem Rooted.above_of_place (ht : t.Rooted) {path : String} {m : Location}
    (h : t.place path = .ok (.free m)) : ∀ d s, m = d ++ [s] → t.get? d = some .directory :=
  ht.above_of_walk ht.working (place_eq_ok.mp h).2.1

theorem Rooted.output (ht : t.Rooted) {o : Overwrite} {path text : String} {r : WriteResult}
    (h : t.output o path text = .ok (r, u)) : u.Rooted := by
  refine related_output (R := fun t u => t.Rooted → u.Rooted) (fun _ => id)
    (fun htu huv ht => huv (htu ht)) ?_ ?_ h ht
  · intro t path e hplace ht
    obtain ⟨-, hroot, hnone⟩ := isAt_of_place hplace
    exact ht.put e hroot (ht.above_of_place hplace) (by simp [hnone])
  · intro t path old new hplace ht
    obtain ⟨-, hfile⟩ := isAt_of_place hplace
    refine ht.put (.file new) (ne_root_of_get? hfile) ?_ (by simp [hfile])
    intro d s heq
    refine ht.above d s ?_
    rw [← heq, hfile]
    rfl

/-! ## Paths that never turn back -/

/-- Below a location that is no directory nothing stands. -/
theorem Rooted.get?_follow (ht : t.Rooted) {cs : List Component} :
    ∀ {l : Location}, (∀ c ∈ cs, ∃ s, c = .name s) → cs ≠ [] → t.get? l ≠ some .directory →
      t.get? (l.follow cs) = none := by
  induction cs with
  | nil =>
      intro l _ hne
      exact absurd rfl hne
  | cons c rest ih =>
      intro l hnames _ hl
      obtain ⟨s, rfl⟩ := hnames c List.mem_cons_self
      have hnext : t.get? (l ++ [s]) = none := by
        cases hget : t.get? (l ++ [s]) with
        | none => rfl
        | some e => exact absurd (ht.above l s (by simp [hget])) hl
      cases rest with
      | nil => exact hnext
      | cons d rest =>
          refine ih (fun c hc => hnames c (List.mem_cons_of_mem _ hc)) (List.cons_ne_nil d rest) ?_
          rw [hnext]
          simp

/-- Where a walk over names fails, nothing stands at its end. -/
theorem Rooted.get?_of_walk_error (ht : t.Rooted) {cs : List Component} {f : Fault} :
    ∀ {l : Location}, (∀ c ∈ cs, ∃ s, c = .name s) → t.get? l = some .directory →
      t.walk l cs = .error f → t.get? (l.follow cs) = none := by
  induction cs with
  | nil =>
      intro l _ hl h
      simp [walk, hl] at h
  | cons c rest ih =>
      intro l hnames hl h
      obtain ⟨s, rfl⟩ := hnames c List.mem_cons_self
      have hrest : ∀ c ∈ rest, ∃ s, c = .name s :=
        fun c hc => hnames c (List.mem_cons_of_mem _ hc)
      unfold walk at h
      cases hget : t.get? (l ++ [s]) with
      | none =>
          cases rest with
          | nil => simp [hget] at h
          | cons d rest =>
              show t.get? ((l ++ [s]).follow (d :: rest)) = none
              exact ht.get?_follow hrest (List.cons_ne_nil d rest) (by simp [hget])
      | some e =>
          cases e with
          | directory => exact ih hrest hget (by simpa [hget] using h)
          | file c =>
              cases rest with
              | nil => simp [hget] at h
              | cons d rest =>
                  show t.get? ((l ++ [s]).follow (d :: rest)) = none
                  exact ht.get?_follow hrest (List.cons_ne_nil d rest) (by simp [hget])

end Tree

/-- A piece of a path is a name or turns back. -/
theorem Path.cases_of_component? {piece : String} {c : Component}
    (h : Path.component? piece = some c) : c = .parent ∨ ∃ s, c = .name s := by
  unfold Path.component? at h
  split at h
  · cases h
  · split at h
    · exact Or.inl (Option.some.inj h).symm
    · exact Or.inr ⟨piece, (Option.some.inj h).symm⟩

/-- A path that never turns back consists of names, after the root or a dot at its start. -/
theorem Path.Descends.components {path : String} (h : Path.Descends path) :
    ∃ front names, Path.components path = front ++ names ∧
      (front = [] ∨ front = [.root] ∨ front = [.current]) ∧ ∀ c ∈ names, ∃ s, c = .name s := by
  have hname : ∀ piece c, Path.component? piece = some c → c ∈ Path.components path →
      ∃ s, c = .name s := by
    intro piece c hc hmem
    rcases Path.cases_of_component? hc with rfl | hs
    · exact absurd hmem h
    · exact hs
  have hcomponents : Path.components path = Path.components path := rfl
  conv at hcomponents => rhs; unfold Path.components
  cases hsplit : Text.split '/' path with
  | nil =>
      rw [hsplit] at hcomponents
      exact ⟨[], [], hcomponents, Or.inl rfl, fun c hc => nomatch hc⟩
  | cons first rest =>
      rw [hsplit] at hcomponents
      dsimp only at hcomponents
      have hrest : ∀ c ∈ rest.filterMap Path.component?, ∃ s, c = .name s := by
        intro c hc
        obtain ⟨piece, -, hpiece⟩ := List.mem_filterMap.mp hc
        refine hname piece c hpiece ?_
        rw [hcomponents]
        exact List.mem_append_right _ hc
      split at hcomponents
      · exact ⟨[.root], _, hcomponents, Or.inr (Or.inl rfl), hrest⟩
      · split at hcomponents
        · exact ⟨[.current], _, hcomponents, Or.inr (Or.inr rfl), hrest⟩
        · refine ⟨[], _, hcomponents, Or.inl rfl, ?_⟩
          intro c hc
          rcases List.mem_append.mp hc with hfirst | hc
          · refine hname first c (Option.mem_toList.mp hfirst) ?_
            rw [hcomponents]
            exact hc
          · exact hrest c hc

namespace Tree

/-- Where the walk of a path that never turns back fails, nothing stands at its location. -/
theorem Rooted.get?_location (ht : t.Rooted) {path : String} (hpath : Path.Descends path)
    {f : Fault} (h : t.walk t.working (Path.components path) = .error f) :
    t.get? (t.location path) = none := by
  obtain ⟨front, names, hcomponents, hfront, hnames⟩ := hpath.components
  unfold location
  rw [hcomponents] at h ⊢
  rcases hfront with rfl | rfl | rfl
  · exact ht.get?_of_walk_error hnames ht.working h
  · show t.get? (Location.follow [] names) = none
    exact ht.get?_of_walk_error hnames rfl h
  · show t.get? (Location.follow t.working names) = none
    exact ht.get?_of_walk_error hnames ht.working h

/-- A file is written under a path that has a name at its end. -/
theorem end_of_write {path : String} {c : Content} (h : t.write path c = .ok u) :
    path ≠ "" ∧ endsInDirectory path = false := by
  obtain ⟨fuel, above, v, -, hstore⟩ := exists_store_of_write h
  obtain ⟨hplace, hend, -⟩ := cases_of_store hstore
  have hne : path ≠ "" := by
    rcases hplace with ⟨old, hplace⟩ | hplace
    · exact (place_eq_ok.mp hplace).1
    · exact (place_eq_ok.mp hplace).1
  exact ⟨hne, hend⟩

/-- A file that is only created when missing, under a path that never turns back and denotes
nothing, is created where nothing stands. -/
theorem Rooted.get?_of_output (ht : t.Rooted) {path text : String} {r : WriteResult}
    (hpath : Path.Descends path) (h : t.output .ifMissing path text = .ok (r, u))
    (hexists : t.exists_ path = false) : t.get? (t.location path) = none := by
  cases hplace : t.place path with
  | ok p =>
      cases p with
      | found l e => simp [exists_, find?, hplace] at hexists
      | free l =>
          obtain ⟨rfl, -, hnone⟩ := isAt_of_place hplace
          exact hnone
  | error f =>
      -- a path that cannot be walked is written after its directories have been created
      have hread : t.readText path = .error f := by
        simp [readText, hplace]
      have hwritten : t.outcome .ifMissing path text = .written := by
        simp [outcome, holds, hread, hexists]
      obtain ⟨hr, ⟨-, hwrite⟩ | ⟨hne, -⟩⟩ := write_of_output h
      · obtain ⟨hne, hend⟩ := end_of_write hwrite
        -- a path that is written ends in a name, so only the walk itself can have failed
        cases hwalk : t.walk t.working (Path.components path) with
        | ok p =>
            have hok : t.place path = .ok p := place_eq_ok.mpr ⟨hne, hwalk, fun _ _ _ => hend⟩
            rw [hplace] at hok
            cases hok
        | error f => exact ht.get?_location hpath hwalk
      · exact absurd (hr.trans hwritten) hne

end Tree

end Stencil.Files
