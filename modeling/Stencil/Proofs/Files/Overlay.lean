import Stencil.Proofs.Files.Components
import Stencil.Proofs.Files.Rooted

/-!
# Trees with files laid over them

A tree lies over another one if it has other files at some locations and new
directories, and all else is the same.  What a path denotes below is denoted above,
and a file that a path denotes above is denoted below unless it is one of those files.

There is one exception.  A path that turns back from a directory which is only there
above cannot be walked below.  It is unfaithful below if something stands where it
leads.
-/

namespace Stencil.Files

open Files.Path (components join parent? isAbsolute)

namespace Tree

variable {t u v : Tree}

/-! ## Steps of a walk -/

section Steps

variable {l : Location} {s : String} {rest : List Component}

@[simp] theorem walk_root : t.walk l (.root :: rest) = t.walk [] rest := by rw [walk]

@[simp] theorem walk_current : t.walk l (.current :: rest) = t.walk l rest := by rw [walk]

@[simp] theorem walk_parent : t.walk l (.parent :: rest) = t.walk l.dropLast rest := by rw [walk]

theorem walk_nil {e : Entry} (h : t.get? l = some e) : t.walk l [] = .ok (.found l e) := by
  simp [walk, h]

theorem walk_directory (h : t.get? (l ++ [s]) = some .directory) :
    t.walk l (.name s :: rest) = t.walk (l ++ [s]) rest := by
  conv => lhs; unfold walk
  simp only [h]

/-- A walk to a name ends with what has it. -/
theorem walk_name : t.walk l [.name s] = .ok (match t.get? (l ++ [s]) with
    | some e => .found (l ++ [s]) e
    | none => .free (l ++ [s])) := by
  cases hget : t.get? (l ++ [s]) with
  | none => simp [walk, hget]
  | some e =>
      cases e with
      | directory => rw [walk_directory hget, walk_nil hget]
      | file c => simp [walk, hget]

/-- A walk that goes on from a name has come to a directory. -/
theorem directory_of_walk {p : Place} (hrest : rest ≠ [])
    (h : t.walk l (.name s :: rest) = .ok p) : t.get? (l ++ [s]) = some .directory := by
  unfold walk at h
  cases hget : t.get? (l ++ [s]) with
  | none => cases rest <;> simp_all
  | some e =>
      cases e with
      | directory => rfl
      | file c => cases rest <;> simp_all

end Steps

/-! ## Walks over composed paths -/

/-- A walk goes on from the directory that its first components lead to. -/
theorem walk_append {cs ds : List Component} :
    ∀ {l m : Location}, t.walk l cs = .ok (.found m .directory) →
      t.walk l (cs ++ ds) = t.walk m ds := by
  induction cs with
  | nil =>
      intro l m h
      obtain ⟨hm, -⟩ := isAt_of_walk h
      rw [hm]
      rfl
  | cons c rest ih =>
      intro l m h
      rw [List.cons_append]
      cases c with
      | root | current | parent =>
          simp only [walk_root, walk_current, walk_parent] at h ⊢
          exact ih h
      | name s =>
          have hdir : t.get? (l ++ [s]) = some .directory := by
            by_cases hrest : rest = []
            · rw [hrest] at h
              obtain ⟨rfl, hm⟩ := isAt_of_walk h
              exact hm
            · exact directory_of_walk hrest h
          rw [walk_directory hdir] at h ⊢
          exact ih h

/-- A walk that ends with a name has come to a directory before. -/
theorem Rooted.exists_directory_of_walk (ht : t.Rooted) {cs : List Component} {s : String}
    {p : Place} :
    ∀ {l : Location}, t.get? l = some .directory → t.walk l (cs ++ [.name s]) = .ok p →
      ∃ d, t.walk l cs = .ok (.found d .directory) := by
  induction cs with
  | nil => exact fun {l} hl _ => ⟨l, walk_nil hl⟩
  | cons c rest ih =>
      intro l hl h
      rw [List.cons_append] at h
      cases c with
      | root => exact ih (l := []) rfl (by simpa using h)
      | current => exact ih hl (by simpa using h)
      | parent => exact ih (ht.dropLast hl) (by simpa using h)
      | name s' =>
          have hdir : t.get? (l ++ [s']) = some .directory := directory_of_walk (by simp) h
          rw [walk_directory hdir] at h ⊢
          exact ih hdir h

theorem place_eq_found {path : String} {l : Location} {e : Entry} :
    t.place path = .ok (.found l e) ↔
      path ≠ "" ∧ t.walk t.working (components path) = .ok (.found l e) ∧
        ∀ c, e = .file c → endsInDirectory path = false := by
  rw [place_eq_ok]
  refine and_congr_right fun _ => and_congr_right fun _ => ⟨?_, ?_⟩
  · rintro hfile c rfl
    exact hfile l c rfl
  · rintro hfile m c heq
    exact hfile c (Place.found.inj heq).2

/-- What a path denotes in a directory is what has the name there. -/
theorem place_join {dir s : String} {l : Location} (hdir : t.place dir = .ok (.found l .directory))
    (hs : Path.IsName s) :
    t.place (join dir s) = .ok (match t.get? (l ++ [s]) with
      | some e => .found (l ++ [s]) e
      | none => .free (l ++ [s])) := by
  obtain ⟨hbase, hwalk, -⟩ := place_eq_found.mp hdir
  have hwalked : t.walk t.working (components (join dir s)) = t.walk l [.name s] := by
    rw [Path.components_join_name hs hbase]
    exact walk_append hwalk
  have hend : endsInDirectory (join dir s) = false := by
    rw [Path.endsInDirectory_join hs.isAbsolute hbase]
    exact hs.endsInDirectory
  have hne : join dir s ≠ "" := by
    intro hempty
    have hcomponents := Path.components_join_name hs hbase
    have hnone : components "" = [] := by decide
    rw [hempty, hnone] at hcomponents
    simp at hcomponents
  refine place_eq_ok.mpr ⟨hne, ?_, fun _ _ _ => hend⟩
  rw [hwalked, walk_name]

/-- The path of a file lies in a directory, unless it has no part above. -/
theorem Rooted.isDirectory_parent (ht : t.Rooted) {path above : String} {l : Location}
    {c : Content} (h : t.place path = .ok (.found l (.file c)))
    (habove : parent? path = some above) (hne : above ≠ "") : t.isDirectory above = true := by
  obtain ⟨-, hwalk, hend⟩ := place_eq_found.mp h
  obtain ⟨s, hcomponents⟩ := Path.components_of_parent? habove (hend c rfl)
  rw [hcomponents] at hwalk
  obtain ⟨d, hd⟩ := ht.exists_directory_of_walk ht.working hwalk
  have hplace : t.place above = .ok (.found d .directory) :=
    place_eq_found.mpr ⟨hne, hd, by simp⟩
  simp [isDirectory, find?, hplace]

theorem location_of_found {path : String} {l : Location} {e : Entry}
    (h : t.place path = .ok (.found l e)) : l = t.location path := (isAt_of_place h).1

theorem get?_of_found {path : String} {l : Location} {e : Entry}
    (h : t.place path = .ok (.found l e)) : t.get? l = some e :=
  location_of_found h ▸ (isAt_of_place h).2

theorem isFile_iff {path : String} :
    t.isFile path = true ↔ ∃ l c, t.place path = .ok (.found l (.file c)) := by
  unfold isFile find?
  cases hplace : t.place path with
  | error f => simp
  | ok p =>
      cases p with
      | free l => simp
      | found l e => cases e <;> simp

theorem exists_place_of_readText {path s : String} (h : t.readText path = .ok s) :
    ∃ l, t.place path = .ok (.found l (.file (.text s))) := by
  unfold readText at h
  split at h <;> simp only [reduceCtorEq, Except.ok.injEq] at h
  rename_i l found hplace
  exact ⟨l, h ▸ hplace⟩

/-! ## Faithful paths -/

/-- Where the walk along a path fails, nothing stands at its location. -/
def Faithful (t : Tree) (path : String) : Prop :=
  ∀ f, t.walk t.working (components path) = .error f → t.get? (t.location path) = none

/-- A path that never turns back is faithful. -/
theorem Rooted.faithful (ht : t.Rooted) {path : String} (hpath : Path.Descends path) :
    t.Faithful path := fun _ h => ht.get?_location hpath h

theorem follow_append (l : Location) (cs ds : List Component) :
    l.follow (cs ++ ds) = (l.follow cs).follow ds := by
  induction cs generalizing l with
  | nil => rfl
  | cons c rest ih => cases c <;> exact ih _

/-- A path without two dots that is read from a faithful one is faithful. -/
theorem Rooted.faithful_join (ht : t.Rooted) {dir path : String} (hdir : t.Faithful dir)
    (hpath : isAbsolute path = false) (hdots : ".." ∉ Text.split '/' path) :
    t.Faithful (join dir path) := by
  by_cases hbase : dir = ""
  · have hjoin : join dir path = path := by simp [join, hpath, hbase]
    rw [hjoin]
    exact ht.faithful (Path.not_parent_of_split hdots)
  · intro f hwalk
    have hnames := Path.name_of_mem_pieces hdots
    unfold location at *
    rw [Path.components_join hpath hbase] at hwalk ⊢
    rw [follow_append]
    generalize (Text.split '/' path).filterMap Path.component? = names at hwalk hnames ⊢
    cases names with
    | nil => exact hdir f (by simpa using hwalk)
    | cons c rest =>
        have hbelow (hl : t.get? (t.working.follow (components dir)) ≠ some .directory) :
            t.get? ((t.working.follow (components dir)).follow (c :: rest)) = none :=
          ht.get?_follow hnames (List.cons_ne_nil c rest) hl
        cases hbegin : t.walk t.working (components dir) with
        | error g =>
            have hnone : t.get? (t.working.follow (components dir)) = none := hdir g hbegin
            exact hbelow (by simp [hnone])
        | ok p =>
            have hat := isAt_of_walk hbegin
            cases p with
            | free m =>
                obtain ⟨rfl, -, hnone⟩ := hat
                exact hbelow (by simp [hnone])
            | found m e =>
                obtain ⟨rfl, hget⟩ := hat
                cases e with
                | file content => exact hbelow (by simp [hget])
                | directory =>
                    rw [walk_append hbegin] at hwalk
                    exact ht.get?_of_walk_error hnames hget hwalk

/-! ## Trees over others -/

/-- Whether a tree lies over another one: it has other files at some locations, where no directory
was, and new directories. -/
structure Overlay (at_ : Location → Prop) (t u : Tree) : Prop where
  working : u.working = t.working
  get? : ∀ l, u.get? l = t.get? l ∨
    (at_ l ∧ t.get? l ≠ some .directory ∧ ∃ c, u.get? l = some (.file c)) ∨
    (t.get? l = none ∧ u.get? l = some .directory)

namespace Overlay

variable {at_ : Location → Prop}

theorem refl (t : Tree) : Overlay at_ t t := ⟨rfl, fun _ => Or.inl rfl⟩

/-- A directory stays one. -/
theorem directory (h : Overlay at_ t u) {l : Location} (hl : t.get? l = some .directory) :
    u.get? l = some .directory := by
  rcases h.get? l with hsame | ⟨-, hne, -⟩ | ⟨hnone, -⟩
  · exact hsame.trans hl
  · exact absurd hl hne
  · rw [hl] at hnone
    cases hnone

/-- A file stays one, and stays the same away from the given locations. -/
theorem file (h : Overlay at_ t u) {l : Location} {c : Content}
    (hl : t.get? l = some (.file c)) :
    ∃ c', u.get? l = some (.file c') ∧ (¬ at_ l → c' = c) := by
  rcases h.get? l with hsame | ⟨hat, -, c', hc'⟩ | ⟨hnone, -⟩
  · exact ⟨c, hsame.trans hl, fun _ => rfl⟩
  · exact ⟨c', hc', fun hnot => absurd hat hnot⟩
  · rw [hl] at hnone
    cases hnone

/-- A file away from the given locations was there. -/
theorem file_below (h : Overlay at_ t u) {l : Location} {c : Content}
    (hl : u.get? l = some (.file c)) (hnot : ¬ at_ l) : t.get? l = some (.file c) := by
  rcases h.get? l with hsame | ⟨hat, -, -⟩ | ⟨-, hdir⟩
  · exact hsame.symm.trans hl
  · exact absurd hat hnot
  · rw [hl] at hdir
    cases hdir

/-- What stood somewhere still does. -/
theorem exists_entry (h : Overlay at_ t u) {l : Location} {e : Entry} (hl : t.get? l = some e) :
    ∃ e', u.get? l = some e' := by
  cases e with
  | directory => exact ⟨_, h.directory hl⟩
  | file c =>
      obtain ⟨c', hc', -⟩ := h.file hl
      exact ⟨_, hc'⟩

theorem trans (h : Overlay at_ t u) (k : Overlay at_ u v) : Overlay at_ t v := by
  refine ⟨k.working.trans h.working, fun l => ?_⟩
  rcases k.get? l with hsame | ⟨hat, hne, hfile⟩ | ⟨hnone, hdir⟩
  · rw [hsame]
    exact h.get? l
  · exact Or.inr (Or.inl ⟨hat, fun hdir => hne (h.directory hdir), hfile⟩)
  · refine Or.inr (Or.inr ⟨?_, hdir⟩)
    cases hget : t.get? l with
    | none => rfl
    | some e =>
        obtain ⟨e', he'⟩ := h.exists_entry hget
        rw [he'] at hnone
        cases hnone

theorem mono {other : Location → Prop} (h : Overlay at_ t u) (hsub : ∀ l, at_ l → other l) :
    Overlay other t u :=
  ⟨h.working, fun l => (h.get? l).imp_right (Or.imp_left fun hat => ⟨hsub l hat.1, hat.2⟩)⟩

theorem location (h : Overlay at_ t u) (path : String) : u.location path = t.location path :=
  location_eq_of_working h.working path

/-! ## What paths denote -/

/-- A walk that finds something still does. -/
theorem walk (h : Overlay at_ t u) {cs : List Component} {m : Location} {e : Entry} :
    ∀ {l : Location}, t.walk l cs = .ok (.found m e) →
      ∃ e', u.get? m = some e' ∧ u.walk l cs = .ok (.found m e') := by
  induction cs with
  | nil =>
      intro l hwalk
      obtain ⟨rfl, hget⟩ := isAt_of_walk hwalk
      obtain ⟨e', he'⟩ := h.exists_entry hget
      exact ⟨e', he', walk_nil he'⟩
  | cons c rest ih =>
      intro l hwalk
      cases c with
      | root | current | parent =>
          simp only [walk_root, walk_current, walk_parent] at hwalk ⊢
          exact ih hwalk
      | name s =>
          by_cases hrest : rest = []
          · subst hrest
            obtain ⟨rfl, hget⟩ := isAt_of_walk hwalk
            obtain ⟨e', he'⟩ := h.exists_entry hget
            refine ⟨e', he', ?_⟩
            rw [walk_name, show u.get? (l ++ [s]) = some e' from he']
            rfl
          · have hdir := directory_of_walk hrest hwalk
            rw [walk_directory hdir] at hwalk
            rw [walk_directory (h.directory hdir)]
            exact ih hwalk

/-- What a path denotes is of the same kind above. -/
theorem place (h : Overlay at_ t u) {path : String} {l : Location} {e : Entry}
    (hplace : t.place path = .ok (.found l e)) :
    ∃ e', u.get? l = some e' ∧ u.place path = .ok (.found l e') := by
  obtain ⟨hne, hwalk, hend⟩ := place_eq_found.mp hplace
  obtain ⟨e', he', hwalk'⟩ := h.walk hwalk
  rw [← h.working] at hwalk'
  refine ⟨e', he', place_eq_found.mpr ⟨hne, hwalk', ?_⟩⟩
  rintro c rfl
  cases e with
  | file old => exact hend old rfl
  | directory =>
      rw [h.directory (get?_of_found hplace)] at he'
      cases he'

theorem place_directory (h : Overlay at_ t u) {path : String} {l : Location}
    (hplace : t.place path = .ok (.found l .directory)) :
    u.place path = .ok (.found l .directory) := by
  obtain ⟨e', he', hfound⟩ := h.place hplace
  rw [h.directory (get?_of_found hplace)] at he'
  cases he'
  exact hfound

theorem place_file (h : Overlay at_ t u) {path : String} {l : Location} {c : Content}
    (hplace : t.place path = .ok (.found l (.file c))) :
    ∃ c', u.place path = .ok (.found l (.file c')) ∧ (¬ at_ l → c' = c) := by
  obtain ⟨e', he', hfound⟩ := h.place hplace
  obtain ⟨c', hc', hsame⟩ := h.file (get?_of_found hplace)
  rw [hc'] at he'
  cases he'
  exact ⟨c', hfound, hsame⟩

/-- A file that a faithful path denotes above is denoted below, unless it is at one of the given
locations. -/
theorem place_below (h : Overlay at_ t u) {path : String} (hpath : t.Faithful path) {l : Location}
    {c : Content} (hplace : u.place path = .ok (.found l (.file c))) (hnot : ¬ at_ l) :
    t.place path = .ok (.found l (.file c)) := by
  obtain ⟨hne, -, hend⟩ := place_eq_found.mp hplace
  have hl : l = t.location path := (location_of_found hplace).trans (h.location path)
  have hbelow : t.get? (t.location path) = some (.file c) :=
    hl ▸ h.file_below (get?_of_found hplace) hnot
  cases hwalk : t.walk t.working (components path) with
  | error f =>
      rw [hpath f hwalk] at hbelow
      cases hbelow
  | ok p =>
      have hat := isAt_of_walk hwalk
      cases p with
      | free m =>
          rw [show t.get? (t.location path) = none from hat.2.2] at hbelow
          cases hbelow
      | found m e =>
          have hentry : e = .file c := by
            have hget : t.get? (t.location path) = some e := hat.2
            rw [hbelow] at hget
            exact (Option.some.inj hget).symm
          have hm : m = l := hat.1.trans hl.symm
          rw [hentry, hm] at hwalk
          exact place_eq_found.mpr ⟨hne, hwalk, hend⟩

/-- A text that can be read can still be read, away from the given locations. -/
theorem readText (h : Overlay at_ t u) {path s : String} (hread : t.readText path = .ok s)
    (hnot : ¬ at_ (t.location path)) : u.readText path = .ok s := by
  obtain ⟨l, hplace⟩ := exists_place_of_readText hread
  obtain ⟨c', hplace', hsame⟩ := h.place_file hplace
  have hl : l = t.location path := (isAt_of_place hplace).1
  rw [hsame (hl ▸ hnot)] at hplace'
  simp [Tree.readText, hplace']

end Overlay

end Tree

end Stencil.Files
