import Stencil.Proofs.Document.Collected
import Stencil.Proofs.Files.Descents
import Stencil.Proofs.Files.PathOrder

/-!
# Directories that are scanned

A scan keeps a list of the directories that it still has to look into.  It takes the last one,
adds the directories in it to the list, and keeps the documents.  Whatever the order is in which
directories list their entries, the scan of a tree ends, and sorted by path order what it has
found are the documents that the directory stands for: those at any depth below it, each once.
-/

namespace Stencil.Document

open Files
open Files.Path (join descend)
open scoped List

/-! ## Scanning with a list of directories -/

/-- What a scan asks of a file system: whether a path leads to a directory, and the names of the
entries of a directory, in the order in which they are listed.  A link is what it leads to. -/
structure View where
  isDirectory : String → Bool
  names : String → List String

/-- A scan on its way: the directories to look into, the next one first, and what was found. -/
structure Search where
  pending : List String
  found : List String

namespace View

variable (v : View)

/-- The paths of the entries of a directory. -/
def entries (directory : String) : List String := (v.names directory).map (join directory)

/-- A scan that meets an entry: a directory has to be looked into, and a document is found. -/
def meet (s : Search) (path : String) : Search :=
  if v.isDirectory path then { s with pending := path :: s.pending }
  else if isDocument path then { s with found := s.found ++ [path] }
  else s

/-- Looks into directories until none is left. -/
inductive Ends : Search → List String → Prop
  | done {found : List String} : Ends ⟨[], found⟩ found
  | look {directory : String} {rest found result : List String}
      (h : Ends ((v.entries directory).foldl v.meet ⟨rest, found⟩) result) :
      Ends ⟨directory :: rest, found⟩ result

/-- The documents that a path stands for: itself, or what a scan of the directory finds, sorted. -/
inductive Collects : String → List String → Prop
  | itself {path : String} (h : v.isDirectory path = false) : Collects path [path]
  | scanned {path : String} {found : List String} (h : v.isDirectory path = true)
      (hends : v.Ends ⟨[path], []⟩ found) :
      Collects path (found.mergeSort fun p q => !Path.lt q p)

/-- A view shows what a tree has at a path and below it: the same paths lead to directories, and
these list the same names in some order. -/
structure Shows (t : Files.Tree) (base : String) : Prop where
  isDirectory : ∀ names, (∀ s ∈ names, Path.IsName s) →
    v.isDirectory (descend base names) = t.isDirectory (descend base names)
  names : ∀ names, (∀ s ∈ names, Path.IsName s) → t.isDirectory (descend base names) = true →
    (v.names (descend base names)).Perm ((t.list? (descend base names)).getD [])

variable {v}

/-- A scan ends in one way only. -/
theorem Ends.unique {s : Search} {result other : List String} (h : v.Ends s result)
    (k : v.Ends s other) : result = other := by
  induction h with
  | done =>
      cases k
      rfl
  | look _ ih =>
      cases k with
      | look k => exact ih k

theorem Collects.unique {path : String} {documents others : List String}
    (h : v.Collects path documents) (k : v.Collects path others) : documents = others := by
  cases h with
  | itself h =>
      cases k with
      | itself => rfl
      | scanned k => exact absurd (h.symm.trans k) Bool.false_ne_true
  | scanned h hends =>
      cases k with
      | itself k => exact absurd (k.symm.trans h) Bool.false_ne_true
      | scanned _ kends => rw [hends.unique kends]

/-! ## One turn -/

/-- Whether an entry is found: a document that is no directory. -/
def isFound (v : View) (path : String) : Bool := !v.isDirectory path && isDocument path

theorem foldl_meet (ps : List String) (s : Search) :
    ps.foldl v.meet s =
      ⟨(ps.filter v.isDirectory).reverse ++ s.pending, s.found ++ ps.filter v.isFound⟩ := by
  induction ps generalizing s with
  | nil => simp
  | cons p rest ih =>
      rw [List.foldl_cons, ih]
      cases hdirectory : v.isDirectory p <;> cases hdocument : isDocument p <;>
        simp [meet, isFound, hdirectory, hdocument]

/-- The scan comes to have found more when it has looked into these directories and all below. -/
def Clears (v : View) (directories more : List String) : Prop :=
  ∀ rest found result, v.Ends ⟨rest, found ++ more⟩ result →
    v.Ends ⟨directories ++ rest, found⟩ result

theorem Clears.nil : v.Clears [] [] := by
  intro rest found result h
  rwa [List.append_nil] at h

theorem Clears.append {ds es more others : List String} (h : v.Clears ds more)
    (k : v.Clears es others) : v.Clears (ds ++ es) (more ++ others) := by
  intro rest found result hends
  rw [← List.append_assoc] at hends
  rw [List.append_assoc]
  exact h _ _ _ (k _ _ _ hends)

/-- A directory is looked into when those in it have been. -/
theorem Clears.look {d : String} {more : List String}
    (h : v.Clears ((v.entries d).filter v.isDirectory).reverse more) :
    v.Clears [d] ((v.entries d).filter v.isFound ++ more) := by
  intro rest found result hends
  refine .look ?_
  rw [foldl_meet]
  refine h _ _ _ ?_
  rwa [List.append_assoc]

theorem Clears.ends {d : String} {more : List String} (h : v.Clears [d] more) :
    v.Ends ⟨[d], []⟩ more := h [] [] more .done

/-- Directories are looked into one after the other. -/
theorem exists_clears {f : String → List String} {ds : List String}
    (h : ∀ d ∈ ds, ∃ more, v.Clears [d] more ∧ more.Perm (f d)) :
    ∃ more, v.Clears ds more ∧ more.Perm (ds.flatMap f) := by
  induction ds with
  | nil => exact ⟨[], .nil, .nil⟩
  | cons d rest ih =>
      obtain ⟨first, hfirst, hperm⟩ := h d List.mem_cons_self
      obtain ⟨more, hmore, hrest⟩ := ih fun e he => h e (List.mem_cons_of_mem d he)
      exact ⟨first ++ more, hfirst.append hmore, hperm.append hrest⟩

end View

/-! ## What is below a directory -/

theorem isDocument_iff {path : String} :
    isDocument path = true ↔ ∃ e ∈ extensions, Path.extension? path = some e := by
  unfold isDocument
  cases Path.extension? path <;> simp

/-- A document below a directory: a file with one of the extensions, and the names that lead to
it. -/
structure Lies (t : Files.Tree) (directory : String) (l : Location) (names : List String)
    (p : String) : Prop where
  path : p = descend directory names
  file : ∃ c, t.get? (l ++ names) = some (.file c)
  extension : ∃ e ∈ extensions, Path.extension? p = some e

section Below

variable {t : Files.Tree} {directory p q s : String} {l : Location} {names others : List String}

theorem Lies.isName (h : Lies t directory l names p) (ht : t.Proper) :
    ∀ s ∈ names, Path.IsName s := by
  obtain ⟨c, hc⟩ := h.file
  exact ht.isName_below (by rw [hc]; rfl)

/-- A document has one place below a directory. -/
theorem Lies.names_eq (h : Lies t directory l names p) (k : Lies t directory l others q)
    (ht : t.Proper) (hbase : directory ≠ "") (heq : Path.components p = Path.components q) :
    names = others := by
  rw [h.path, k.path] at heq
  exact Path.names_eq_of_components hbase (h.isName ht) (k.isName ht) heq

theorem scanName_cases (ht : t.Proper) (hplace : t.place directory = .ok (.found l .directory))
    (hs : s ∈ t.names l) (depth : Nat) :
    (t.place (join directory s) = .ok (.found (l ++ [s]) .directory) ∧
      scanName t depth directory s = scan t depth (join directory s)) ∨
    ((∃ c, t.get? (l ++ [s]) = some (.file c)) ∧
      scanName t depth directory s =
        if isDocument (join directory s) then [join directory s] else []) := by
  obtain ⟨e, he⟩ := Option.isSome_iff_exists.mp (Tree.mem_names.mp hs)
  have hjoined := place_of_name ht hplace he
  cases e with
  | directory => exact .inl ⟨hjoined, scanName_of_directory hjoined⟩
  | file c => exact .inr ⟨⟨c, he⟩, scanName_of_file hjoined⟩

variable (ht : t.Proper)
include ht

/-- What a name in a directory gives goes down by that name first. -/
theorem lies_of_mem_scanName {depth : Nat}
    (hscan : ∀ {directory l}, t.place directory = .ok (.found l .directory) →
      p ∈ scan t depth directory → ∃ names, names ≠ [] ∧ Lies t directory l names p)
    (hplace : t.place directory = .ok (.found l .directory)) (hs : s ∈ t.names l)
    (hp : p ∈ scanName t depth directory s) : ∃ names, Lies t directory l (s :: names) p := by
  rcases scanName_cases ht hplace hs depth with ⟨hjoined, heq⟩ | ⟨hfile, heq⟩
  · rw [heq] at hp
    obtain ⟨names, -, hlies⟩ := hscan hjoined hp
    have hbelow := hlies.file
    rw [← List.append_cons] at hbelow
    exact ⟨names, hlies.path, hbelow, hlies.extension⟩
  · rw [heq] at hp
    split_ifs at hp with hdocument
    · cases List.mem_singleton.mp hp
      exact ⟨[], rfl, hfile, isDocument_iff.mp hdocument⟩
    · cases hp

/-- What a scan gives is a document below the directory. -/
theorem lies_of_mem_scan (depth : Nat) :
    ∀ {directory : String} {l : Location}, t.place directory = .ok (.found l .directory) →
      p ∈ scan t depth directory → ∃ names, names ≠ [] ∧ Lies t directory l names p := by
  induction depth with
  | zero => exact fun _ hp => nomatch hp
  | succ depth ih =>
      intro directory l hplace hp
      rw [scan_eq hplace] at hp
      obtain ⟨s, hs, hp⟩ := List.mem_flatMap.mp hp
      obtain ⟨names, hlies⟩ := lies_of_mem_scanName ht ih hplace hs hp
      exact ⟨s :: names, List.cons_ne_nil s names, hlies⟩

/-- A scan that goes deep enough gives all documents below the directory. -/
theorem mem_scan_of_lies (depth : Nat) :
    ∀ {directory : String} {l : Location} {names : List String},
      t.place directory = .ok (.found l .directory) →
      (∀ m, (t.get? m).isSome → m.length < depth + l.length) →
      names ≠ [] → Lies t directory l names p → p ∈ scan t depth directory := by
  induction depth with
  | zero =>
      intro directory l names hplace hdepth _ _
      have := hdepth l (by simp [Tree.get?_of_found hplace])
      omega
  | succ depth ih =>
      rintro directory l names hplace hdepth hne ⟨hpath, ⟨c, hfile⟩, hextension⟩
      obtain ⟨s, rest, rfl⟩ := List.exists_cons_of_ne_nil hne
      rw [List.append_cons] at hfile
      have hsome : (t.get? (l ++ [s] ++ rest)).isSome := by rw [hfile]; rfl
      rw [scan_eq hplace, List.mem_flatMap]
      by_cases hrest : rest = []
      · subst hrest
        rw [List.append_nil] at hfile hsome
        refine ⟨s, Tree.mem_names.mpr hsome, ?_⟩
        have hjoin : p = join directory s := hpath
        rw [scanName_of_file (place_of_name ht hplace hfile), ← hjoin,
          if_pos (isDocument_iff.mpr hextension)]
        exact List.mem_singleton_self p
      -- more names follow, so this one is a directory
      · have hdirectory := ht.directory_above hrest hsome
        have hjoined := place_of_name ht hplace hdirectory
        refine ⟨s, Tree.mem_names.mpr (by rw [hdirectory]; rfl), ?_⟩
        rw [scanName_of_directory hjoined]
        refine ih hjoined (fun m hm => ?_) hrest ⟨hpath, ⟨c, hfile⟩, hextension⟩
        have := hdepth m hm
        rw [List.length_append, List.length_singleton]
        omega

/-- Nothing is given twice, because what lies in two directories has different paths. -/
theorem nodup_scan (depth : Nat) :
    ∀ {directory : String} {l : Location}, t.place directory = .ok (.found l .directory) →
      (scan t depth directory).Nodup := by
  induction depth with
  | zero => exact fun _ => List.nodup_nil
  | succ depth ih =>
      intro directory l hplace
      have hbase := (Tree.place_eq_found.mp hplace).1
      rw [scan_eq hplace, List.nodup_flatMap]
      constructor
      · intro s hs
        rcases scanName_cases ht hplace hs depth with ⟨hjoined, heq⟩ | ⟨-, heq⟩
        · rw [heq]
          exact ih hjoined
        · rw [heq]
          split_ifs
          · exact List.nodup_singleton _
          · exact List.nodup_nil
      · refine (Tree.pairwise_names t l).imp_of_mem fun hs hr hlt p hp hq => ?_
        obtain ⟨names, hnames⟩ := lies_of_mem_scanName ht (lies_of_mem_scan ht depth) hplace hs hp
        obtain ⟨others, hothers⟩ := lies_of_mem_scanName ht (lies_of_mem_scan ht depth) hplace hr hq
        exact hlt.ne (List.cons.inj (hnames.names_eq hothers ht hbase rfl)).1

end Below

/-! ## Scanning a tree -/

/-- The documents among paths, and what there is in the directories among them, are what all of the
paths give. -/
theorem perm_flatMap_paths (directory document : String → Bool) (f : String → List String)
    (ps : List String) :
    ((ps.filter fun p => !directory p && document p) ++ (ps.filter directory).flatMap f).Perm
      (ps.flatMap fun p => if directory p then f p else if document p then [p] else []) := by
  induction ps with
  | nil => exact .nil
  | cons p rest ih =>
      cases hdirectory : directory p with
      | true =>
          simp only [List.filter_cons, List.flatMap_cons, hdirectory, Bool.not_true,
            Bool.false_and, Bool.false_eq_true, if_false, if_true]
          exact (List.perm_append_comm_assoc _ _ _).trans (ih.append_left (f p))
      | false =>
          cases hdocument : document p with
          | true => simpa [hdirectory, hdocument] using ih
          | false => simpa [hdirectory, hdocument] using ih

section Scanning

variable {t : Files.Tree} (ht : t.Proper) {v : View} {base path : String}
include ht

section Directory

variable {names : List String} {l : Location} (hv : v.Shows t base)
  (hnames : ∀ s ∈ names, Path.IsName s)
  (hplace : t.place (descend base names) = .ok (.found l .directory))
include hnames

/-- An entry of a directory goes down by one more name. -/
theorem isName_concat {s : String} (hs : s ∈ t.names l) : ∀ r ∈ names ++ [s], Path.IsName r := by
  intro r hr
  rcases List.mem_append.mp hr with hr | hr
  · exact hnames r hr
  · exact List.mem_singleton.mp hr ▸ ht.named l s (Tree.mem_names.mp hs)

include hv

theorem isDirectory_entry {s : String} (hs : s ∈ t.names l) :
    v.isDirectory (join (descend base names) s) = t.isDirectory (join (descend base names) s) := by
  rw [← Path.descend_concat]
  exact hv.isDirectory (names ++ [s]) (isName_concat ht hnames hs)

include hplace

omit ht in
theorem perm_entries :
    v.entries (descend base names) ~ (t.names l).map (join (descend base names)) := by
  have hlist : t.list? (descend base names) = some (t.names l) := by simp [Tree.list?, hplace]
  have hlisted := hv.names names hnames (by rw [isDirectory_of_place hplace]; rfl)
  rw [hlist] at hlisted
  exact hlisted.map _

/-- What is found in a directory, and what the directories in it give, is what a scan of it
gives. -/
theorem perm_scan {more : List String} {depth : Nat}
    (hmore : more ~ ((v.entries (descend base names)).filter v.isDirectory).flatMap
      (scan t depth)) :
    (v.entries (descend base names)).filter v.isFound ++ more ~
      scan t (depth + 1) (descend base names) := by
  have hentries := perm_entries hv hnames hplace
  have hdirectory := fun s => isDirectory_entry (s := s) (l := l) ht hv hnames
  generalize descend base names = d at hplace hmore hentries hdirectory ⊢
  calc (v.entries d).filter v.isFound ++ more
    _ ~ (v.entries d).filter v.isFound ++
          ((v.entries d).filter v.isDirectory).flatMap (scan t depth) := hmore.append_left _
    _ ~ (v.entries d).flatMap fun p =>
          if v.isDirectory p then scan t depth p else if isDocument p then [p] else [] :=
        perm_flatMap_paths v.isDirectory isDocument (scan t depth) (v.entries d)
    _ ~ ((t.names l).map (join d)).flatMap fun p =>
          if v.isDirectory p then scan t depth p else if isDocument p then [p] else [] :=
        hentries.flatMap_right _
    _ = scan t (depth + 1) d := by
        rw [scan_eq hplace, List.flatMap_map]
        refine List.flatMap_congr fun s hs => ?_
        rw [hdirectory s hs]
        rfl

end Directory

/-- What is pending when a directory has been looked into gives what a scan of it gives.  The depth
is that of the tree below, so no directory is left out. -/
theorem exists_clears_scan (hv : v.Shows t base) (depth : Nat) :
    ∀ {names : List String} {l : Location}, (∀ s ∈ names, Path.IsName s) →
      t.place (descend base names) = .ok (.found l .directory) →
      (∀ m, (t.get? m).isSome → m.length < depth + l.length) →
      ∃ more, v.Clears [descend base names] more ∧ more ~ scan t depth (descend base names) := by
  induction depth with
  | zero =>
      intro names l _ hplace hdepth
      have := hdepth l (by simp [Tree.get?_of_found hplace])
      omega
  | succ depth ih =>
      intro names l hnames hplace hdepth
      have hinside : ∀ e ∈ ((v.entries (descend base names)).filter v.isDirectory).reverse,
          ∃ more, v.Clears [e] more ∧ more ~ scan t depth e := by
        intro e he
        obtain ⟨he, hdirectory⟩ := List.mem_filter.mp (List.mem_reverse.mp he)
        obtain ⟨s, hs, rfl⟩ := List.mem_map.mp ((perm_entries hv hnames hplace).mem_iff.mp he)
        rw [isDirectory_entry ht hv hnames hs] at hdirectory
        rcases scanName_cases ht hplace hs depth with ⟨hjoined, -⟩ | ⟨⟨c, hfile⟩, -⟩
        · rw [← Path.descend_concat] at hjoined ⊢
          refine ih (isName_concat ht hnames hs) hjoined fun m hm => ?_
          have := hdepth m hm
          rw [List.length_append, List.length_singleton]
          omega
        · rw [isDirectory_of_place (place_of_name ht hplace hfile)] at hdirectory
          cases hdirectory
      obtain ⟨more, hclears, hmore⟩ := View.exists_clears hinside
      refine ⟨_, hclears.look, perm_scan ht hv hnames hplace ?_⟩
      exact hmore.trans ((List.reverse_perm _).flatMap_right _)

/-! ## The documents that a path stands for -/

omit ht in
theorem collect_itself (h : t.isDirectory path = false) : collect t path = [path] := by
  rw [collect, h, if_neg Bool.false_ne_true]

/-- A tree is no deeper than it has entries. -/
theorem length_lt_depth (l : Location) :
    ∀ m, (t.get? m).isSome → m.length < t.entries.length + 1 + l.length := by
  intro m hm
  have := ht.length_le hm
  omega

/-- What a directory stands for are the documents that a scan gives, in another order. -/
theorem collect_perm_scan (h : t.isDirectory path = true) :
    collect t path ~ scan t (t.entries.length + 1) path ∧
      (collect t path).Pairwise fun p q => Path.orderKey p < Path.orderKey q := by
  have hplace := Tree.place_of_isDirectory h
  have hcollect : collect t path =
      sortDistinct (keyLt Path.orderKey) (scan t (t.entries.length + 1) path) := by
    rw [collect, if_pos h, Path.lt_eq]
  have hkeys : ∀ p ∈ scan t (t.entries.length + 1) path,
      ∀ q ∈ scan t (t.entries.length + 1) path, Path.orderKey p = Path.orderKey q → p = q := by
    intro p hp q hq hkey
    obtain ⟨names, -, hnames⟩ := lies_of_mem_scan ht _ hplace hp
    obtain ⟨others, -, hothers⟩ := lies_of_mem_scan ht _ hplace hq
    have heq := hnames.names_eq hothers ht (Tree.place_eq_found.mp hplace).1
      (Path.components_eq_of_orderKey hkey)
    rw [hnames.path, hothers.path, heq]
  have hsorted : (sortDistinct (keyLt Path.orderKey) (scan t (t.entries.length + 1) path)).Pairwise
      fun p q => Path.orderKey p < Path.orderKey q := pairwise_sortDistinct _
  rw [hcollect]
  exact ⟨(List.perm_ext_iff_of_nodup (nodup_of_pairwise_key hsorted) (nodup_scan ht _ hplace)).mpr
    fun p => mem_sortDistinct hkeys, hsorted⟩

theorem mem_collect {p : String} (h : t.isDirectory path = true) :
    p ∈ collect t path ↔ ∃ names, names ≠ [] ∧ Lies t path (t.location path) names p := by
  have hplace := Tree.place_of_isDirectory h
  rw [(collect_perm_scan ht h).1.mem_iff]
  constructor
  · exact lies_of_mem_scan ht _ hplace
  · rintro ⟨names, hne, hlies⟩
    exact mem_scan_of_lies ht _ hplace (length_lt_depth ht _) hne hlies

/-- A search with a list of pending directories finds what the path stands for. -/
theorem collects_collect (hv : v.Shows t path) : v.Collects path (collect t path) := by
  have hnone : ∀ s ∈ ([] : List String), Path.IsName s := fun s hs => nomatch hs
  have hsame : v.isDirectory path = t.isDirectory path := hv.isDirectory [] hnone
  cases h : t.isDirectory path with
  | false =>
      rw [collect_itself h]
      exact .itself (hsame.trans h)
  | true =>
      have hplace := Tree.place_of_isDirectory h
      obtain ⟨hperm, hsorted⟩ := collect_perm_scan ht h
      obtain ⟨found, hclears, hfound⟩ :=
        exists_clears_scan ht hv (t.entries.length + 1) hnone hplace (length_lt_depth ht _)
      have hresult := mergeSort_eq_of_perm (hfound.trans hperm.symm) hsorted
      rw [← Path.lt_eq] at hresult
      rw [← hresult]
      exact .scanned (hsame.trans h) hclears.ends

/-- A path that is no directory stands for itself.  A directory stands for the files at any depth
below it whose extension is that of a document, each once and in strictly increasing path order.
Whatever the order is in which directories list their entries, a search with a list of pending
directories ends, and what it finds, sorted, is just that. -/
theorem collect_exact (path : String) :
    (t.isDirectory path = false → collect t path = [path]) ∧
    (t.isDirectory path = true →
      (∀ p, p ∈ collect t path ↔
        ∃ names, names ≠ [] ∧ Lies t path (t.location path) names p) ∧
      (collect t path).Pairwise (fun p q => Path.lt p q = true) ∧ (collect t path).Nodup) ∧
    ∀ v : View, v.Shows t path →
      ∀ documents, v.Collects path documents ↔ documents = collect t path := by
  refine ⟨collect_itself, fun h => ?_, fun v hv documents => ?_⟩
  · obtain ⟨-, hsorted⟩ := collect_perm_scan ht h
    exact ⟨fun p => mem_collect ht h, hsorted.imp fun hlt => Path.lt_iff.mpr hlt,
      nodup_of_pairwise_key hsorted⟩
  · have hcollects := collects_collect ht hv
    constructor
    · intro h
      exact h.unique hcollects
    · rintro rfl
      exact hcollects

end Scanning

/-- A directory with a directory that is called like a document, and a file that is no document. -/
def Sample.shelf : Files.Tree where
  entries := [
    (["docs", "b", "two.yml"], .file (.text "")),
    (["docs", "a.yaml", "one.json"], .file (.text "")),
    (["docs", "a.yaml", "notes.txt"], .file (.text "")),
    (["docs", "b"], .directory),
    (["docs", "a.yaml"], .directory),
    (["docs"], .directory)]
  working := []

/-- The view of a tree in which directories list their entries in reverse. -/
def Sample.backwards (t : Files.Tree) : View where
  isDirectory := t.isDirectory
  names path := ((t.list? path).getD []).reverse

theorem collect_exact_shelf :
    Sample.shelf.Proper ∧ Sample.shelf.isDirectory "docs" = true ∧
      (Sample.backwards Sample.shelf).Shows Sample.shelf "docs" ∧
      "docs/a.yaml/one.json" ∈ collect Sample.shelf "docs" ∧
      (Sample.backwards Sample.shelf).Collects "docs"
        ["docs/a.yaml/one.json", "docs/b/two.yml"] := by
  have hproper : Sample.shelf.Proper := Tree.proper_of_entries (by decide) (by decide)
  have hdirectory : Sample.shelf.isDirectory "docs" = true := by decide
  have hshows : (Sample.backwards Sample.shelf).Shows Sample.shelf "docs" :=
    ⟨fun _ _ => rfl, fun _ _ _ => List.reverse_perm _⟩
  obtain ⟨-, hscanned, hviews⟩ := collect_exact hproper "docs"
  refine ⟨hproper, hdirectory, hshows, ((hscanned hdirectory).1 _).mpr ?_,
    (hviews _ hshows _).mpr (by decide)⟩
  exact ⟨["a.yaml", "one.json"], by decide, by decide, ⟨_, rfl⟩, by decide⟩

end Stencil.Document
