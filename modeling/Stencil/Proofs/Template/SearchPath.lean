import Mathlib.Data.List.DropRight
import Mathlib.Data.List.Induction
import Stencil.Proofs.Files.Outputs
import Stencil.Template.Engine

/-!
# Where templates are read from

A template is the first file of its name in the search path.  The name of a template
has no two dots, so the file of a name that does not start at the root lies inside the
directory where it is found.  A name that starts at the root leads to one and the same
file from every directory, wherever that is.  Rules make such names of a template
with two slashes at its start, and of a source directory that starts at the root.
-/

namespace Stencil.Files

open Files.Path (components component? join isAbsolute)
open Text (split)

namespace Tree

variable {t : Tree}

/-- Whether a path denotes a file inside the directory that another path leads to. -/
def Inside (t : Tree) (dir path : String) : Prop :=
  ∃ l below c, t.walk t.working (components dir) = .ok (.found l .directory) ∧ below ≠ [] ∧
    t.place path = .ok (.found (l ++ below) (.file c))

/-! ## Walks down from a directory -/

/-- Names lead to a location below. -/
theorem exists_below_of_follow {cs : List Component} (hnames : ∀ c ∈ cs, ∃ s, c = .name s)
    (hne : cs ≠ []) (l : Location) : ∃ below, below ≠ [] ∧ l.follow cs = l ++ below := by
  induction cs generalizing l with
  | nil => exact absurd rfl hne
  | cons c rest ih =>
      obtain ⟨s, rfl⟩ := hnames c List.mem_cons_self
      rw [Location.follow]
      by_cases hrest : rest = []
      · exact ⟨[s], List.cons_ne_nil s [], by rw [hrest, Location.follow]⟩
      · obtain ⟨below, -, hbelow⟩ :=
          ih (fun c hc => hnames c (List.mem_cons_of_mem _ hc)) hrest (l ++ [s])
        exact ⟨s :: below, List.cons_ne_nil s below, by rw [hbelow, List.append_assoc]; rfl⟩

/-- A walk that ends with names has come to a directory before them. -/
theorem Rooted.exists_directory_of_names (ht : t.Rooted) {cs ds : List Component} {l : Location}
    {p : Place} (hl : t.get? l = some .directory) (hnames : ∀ c ∈ ds, ∃ s, c = .name s)
    (hne : ds ≠ []) (h : t.walk l (cs ++ ds) = .ok p) :
    ∃ d, t.walk l cs = .ok (.found d .directory) := by
  -- the names are taken off one by one from the end, where the walk has found something
  induction ds using List.reverseRecOn generalizing p with
  | nil => exact absurd rfl hne
  | append_singleton front c ih =>
      obtain ⟨s, rfl⟩ := hnames c (by simp)
      rw [← List.append_assoc] at h
      obtain ⟨d, hd⟩ := ht.exists_directory_of_walk hl h
      by_cases hfront : front = []
      · exact ⟨d, by simpa [hfront] using hd⟩
      · exact ih (fun c hc => hnames c (List.mem_append_left _ hc)) hfront hd

/-- A path that does not start at the root is walked piece by piece. -/
theorem walk_components {path : String} (h : isAbsolute path = false) (l : Location) :
    t.walk l (components path) = t.walk l ((split '/' path).filterMap component?) := by
  rw [Path.components_eq]
  cases hsplit : split '/' path with
  | nil => rfl
  | cons first rest =>
      have hroot : ¬ (first = "" ∧ rest ≠ []) := by
        intro hroot
        rw [(Path.isAbsolute_iff hsplit).mpr hroot] at h
        cases h
      have hsilent : component? "." = none := by decide
      show t.walk l ((if first = "" ∧ rest ≠ [] then _ else _) ++ _) = _
      rw [if_neg hroot, List.filterMap_cons]
      by_cases hdot : first = "."
      · rw [if_pos hdot, hdot, hsilent]
        exact walk_current
      · rw [if_neg hdot]
        cases component? first <;> rfl

/-- The walk along a path that is read from another one goes on where that one leads. -/
theorem walk_join {dir path : String} (h : isAbsolute path = false) :
    t.walk t.working (components (join dir path)) =
      t.walk t.working (components dir ++ (split '/' path).filterMap component?) := by
  by_cases hdir : dir = ""
  · have hjoin : join dir path = path := by simp [join, h, hdir]
    have hnone : components "" = [] := by decide
    rw [hjoin, walk_components h, hdir, hnone, List.nil_append]
  · rw [Path.components_join h hdir]

theorem endsInDirectory_of_join {dir path : String} (h : isAbsolute path = false) :
    endsInDirectory (join dir path) = endsInDirectory path := by
  by_cases hdir : dir = ""
  · have hjoin : join dir path = path := by simp [join, h, hdir]
    rw [hjoin]
  · exact Path.endsInDirectory_join h hdir

/-- A path that leads to a file has a name. -/
theorem filterMap_component?_ne_nil {path : String} (hend : endsInDirectory path = false) :
    (split '/' path).filterMap component? ≠ [] := by
  obtain ⟨before, last, hsplit⟩ := Path.exists_split_eq path
  have hlast := Path.component?_of_end hsplit hend
  rw [hsplit, List.filterMap_append]
  simp [hlast]

/-- A file that is found in a directory under a name without two dots lies inside the directory,
unless the name starts at the root. -/
theorem Rooted.inside_join (ht : t.Rooted) {dir name : String}
    (hname : isAbsolute name = false) (hdots : ".." ∉ split '/' name)
    (hfile : t.isFile (join dir name) = true) : t.Inside dir (join dir name) := by
  obtain ⟨m, c, hplace⟩ := isFile_iff.mp hfile
  obtain ⟨-, hwalk, hend⟩ := place_eq_found.mp hplace
  have hended : endsInDirectory name = false :=
    (endsInDirectory_of_join hname).symm.trans (hend c rfl)
  have hnames := Path.name_of_mem_pieces hdots
  have hne := filterMap_component?_ne_nil hended
  rw [walk_join hname] at hwalk
  obtain ⟨l, hl⟩ := ht.exists_directory_of_names ht.working hnames hne hwalk
  rw [walk_append hl] at hwalk
  obtain ⟨below, hbelow, hfollow⟩ := exists_below_of_follow hnames hne l
  have hm : m = l ++ below := (isAt_of_walk hwalk).1.trans hfollow
  exact ⟨l, below, c, hl, hbelow, hm ▸ hplace⟩

end Tree

end Stencil.Files

namespace Stencil.Template

open Files
open Files.Path (components join isAbsolute)

/-! ## The file of a template -/

theorem not_dots_of_isLocal {name : String} (h : Run.isLocal name = true) :
    ".." ∉ Text.split '/' name := by
  intro hdots
  have hpieces : Text.split '\\' ".." = [".."] := by decide
  have hmem : ".." ∈ (Text.split '/' name).flatMap (Text.split '\\') :=
    List.mem_flatMap.mpr ⟨"..", hdots, by simp [hpieces]⟩
  simp [Run.isLocal, hmem] at h

/-- The first directory of a search path that has a file of some name. -/
def FirstWith (t : Tree) (search : List String) (name dir : String) : Prop :=
  ∃ before after, search = before ++ dir :: after ∧
    (∀ d ∈ before, t.isFile (join d name) = false) ∧ t.isFile (join dir name) = true

/-- The file that is opened for a template. -/
def opened? (env : Env) (name : String) : Option String :=
  if Run.isLocal name then Run.locate? env.files env.searchPath name else none

theorem sourceText?_eq (env : Env) (name : String) :
    Run.sourceText? env name =
      match opened? env name with
      | none => .ok none
      | some path =>
          match env.files.readText path with
          | .ok text => .ok (some text)
          | .error _ => .error (.brokenTemplate path) := by
  unfold Run.sourceText? opened?
  cases Run.isLocal name <;> rfl

/-- A template has a text exactly if a file is opened for it and holds that text. -/
theorem sourceText?_eq_some {env : Env} {name text : String} :
    Run.sourceText? env name = .ok (some text) ↔
      ∃ path, opened? env name = some path ∧ env.files.readText path = .ok text := by
  rw [sourceText?_eq]
  cases hopened : opened? env name with
  | none => simp
  | some path => cases hread : env.files.readText path <;> simp [hread]

theorem firstWith_of_locate? {t : Tree} {search : List String} {name path : String}
    (h : Run.locate? t search name = some path) :
    ∃ dir, FirstWith t search name dir ∧ path = join dir name := by
  unfold Run.locate? at h
  rw [List.find?_map, Option.map_eq_some_iff] at h
  obtain ⟨dir, hfind, rfl⟩ := h
  obtain ⟨hfile, before, after, rfl, hbefore⟩ := List.find?_eq_some_iff_append.mp hfind
  refine ⟨dir, ⟨before, after, rfl, fun d hd => ?_, hfile⟩, rfl⟩
  simpa using hbefore d hd

/-! ## Names that rules make -/

theorem dropPrefix_eq_some {start s rest : String} :
    Text.dropPrefix start s = some rest ↔ s = start ++ rest := by
  unfold Text.dropPrefix
  rw [Option.map_eq_some_iff, ← String.toList_inj, String.toList_append]
  constructor
  · rintro ⟨cs, hcs, rfl⟩
    rw [Text.dropPrefixList_eq_some_iff.mp hcs, String.toList_ofList]
  · intro heq
    exact ⟨rest.toList, Text.dropPrefixList_eq_some_iff.mpr heq, String.ofList_toList⟩

theorem isAbsolute_iff_exists (s : String) : isAbsolute s = true ↔ ∃ rest, s = "/" ++ rest := by
  have hslash : "/".toList = ['/'] := by decide
  unfold isAbsolute
  simp only [← String.toList_inj, String.toList_append, hslash, decide_eq_true_eq]
  constructor
  · intro hhead
    obtain ⟨cs, hcs⟩ := List.head?_eq_some_iff.mp hhead
    exact ⟨String.ofList cs, by rw [hcs, String.toList_ofList]; rfl⟩
  · rintro ⟨rest, hrest⟩
    rw [hrest]
    rfl

/-- A directory without the slashes at its end still starts as it did, with a slash behind it. -/
theorem head?_withoutSlashes {cs : List Char} (hne : cs ≠ []) (rest : List Char) :
    ((cs.reverse.dropWhile (· = '/')).reverse ++ '/' :: rest).head? = some '/' ↔
      cs.head? = some '/' := by
  change (cs.rdropWhile (· = '/') ++ '/' :: rest).head? = some '/' ↔ _
  cases hkept : cs.rdropWhile (· = '/') with
  | nil =>
      have hall := List.rdropWhile_eq_nil_iff.mp hkept
      cases cs with
      | nil => exact absurd rfl hne
      | cons c cs => simpa using hall c List.mem_cons_self
  | cons c kept =>
      have hprefix : cs.rdropWhile (· = '/') <+: cs := List.rdropWhile_prefix _ cs
      rw [hkept] at hprefix
      obtain ⟨ending, rfl⟩ := hprefix
      rfl

/-- A rule makes a name that starts at the root exactly of a template with two slashes at its start,
and of a source directory that starts at the root. -/
theorem isAbsolute_templateName (source : Option String) (entry : String) :
    isAbsolute (templateName source entry) = true ↔
      (∃ rest, entry = "//" ++ rest) ∨
        isAbsolute entry = false ∧ ∃ dir, source = some dir ∧ isAbsolute dir = true := by
  unfold templateName
  cases hdrop : Text.dropPrefix "/" entry with
  | some rest =>
      obtain rfl := dropPrefix_eq_some.mp hdrop
      have hentry : isAbsolute ("/" ++ rest) = true := (isAbsolute_iff_exists _).mpr ⟨rest, rfl⟩
      have hslashes : (∃ more, "/" ++ rest = "//" ++ more) ↔ isAbsolute rest = true := by
        have htwo : "//" = "/" ++ "/" := by decide
        simp only [htwo, String.append_assoc, String.append_right_inj, isAbsolute_iff_exists]
      simp [hentry, hslashes]
  | none =>
      have hentry : isAbsolute entry = false := by
        rw [Bool.eq_false_iff]
        intro habsolute
        obtain ⟨rest, hrest⟩ := (isAbsolute_iff_exists entry).mp habsolute
        rw [dropPrefix_eq_some.mpr hrest] at hdrop
        cases hdrop
      have hslashes : ¬ ∃ rest, entry = "//" ++ rest := by
        rintro ⟨rest, rfl⟩
        have htwo : "//" = "/" ++ "/" := by decide
        rw [htwo, String.append_assoc, dropPrefix_eq_some.mpr rfl] at hdrop
        cases hdrop
      simp only [hslashes, hentry, false_or, true_and]
      split
      · simp [hentry]
      · have hempty : isAbsolute "" = false := by decide
        simp [hentry, hempty]
      · rename_i dir hnonempty
        have hne : dir.toList ≠ [] := by
          intro hnil
          exact hnonempty (String.toList_eq_nil_iff.mp hnil)
        have hslash : "/".toList = ['/'] := by decide
        have hstart := head?_withoutSlashes hne entry.toList
        simpa [isAbsolute, String.toList_append, hslash] using hstart

/-! ## Files in the search path -/

/-- The text of a template is that of the file of its name in the first directory that has one.  The
file lies inside this directory exactly if the name does not start at the root, or leads into the
directory by itself; and it lies outside every directory of the search path exactly if the name
starts at the root and leads into none of them.  Rules can make such names. -/
theorem inside_search_path_iff (env : Env) (ht : env.files.Rooted) (name : String) :
    (∀ text, Run.sourceText? env name = .ok (some text) ↔
      ∃ path, opened? env name = some path ∧ env.files.readText path = .ok text) ∧
    (∀ path, opened? env name = some path →
      ∃ dir, FirstWith env.files env.searchPath name dir ∧ path = join dir name ∧
        (env.files.Inside dir path ↔ isAbsolute name = false ∨ env.files.Inside dir name) ∧
        ((∃ d ∈ env.searchPath, env.files.Inside d path) ↔
          isAbsolute name = false ∨ ∃ d ∈ env.searchPath, env.files.Inside d name)) ∧
    ∀ source entry, isAbsolute (templateName source entry) = true ↔
      (∃ rest, entry = "//" ++ rest) ∨
        isAbsolute entry = false ∧ ∃ dir, source = some dir ∧ isAbsolute dir = true := by
  refine ⟨fun text => sourceText?_eq_some, fun path hopened => ?_, isAbsolute_templateName⟩
  unfold opened? at hopened
  obtain ⟨hlocal, hlocate⟩ := Option.ite_none_right_eq_some.mp hopened
  obtain ⟨dir, hfirst, rfl⟩ := firstWith_of_locate? hlocate
  refine ⟨dir, hfirst, rfl, ?_⟩
  obtain ⟨before, after, hsearch, -, hfile⟩ := hfirst
  have hdir : dir ∈ env.searchPath := by simp [hsearch]
  cases hname : isAbsolute name with
  | false =>
      have hinside : env.files.Inside dir (join dir name) :=
        ht.inside_join hname (not_dots_of_isLocal hlocal) hfile
      exact ⟨iff_of_true hinside (Or.inl rfl), iff_of_true ⟨dir, hdir, hinside⟩ (Or.inl rfl)⟩
  | true =>
      -- the directory plays no part in the path of a name that starts at the root
      have hjoin : join dir name = name := by simp [join, hname]
      simp [hjoin]

namespace Sample

/-- A working directory with a directory of templates, and a template beside it. -/
def workshop : Env where
  system := ⟨[]⟩
  files :=
    { entries :=
        [(["work"], .directory), (["work", "tpl"], .directory),
          (["work", "tpl", "part.tpl"], .file (.text "part\n")),
          (["secret.tpl"], .file (.text "secret\n"))]
      working := ["work"] }
  searchPath := ["own", "tpl"]
  filters := []
  globals := []

theorem workshop_rooted : workshop.files.Rooted :=
  (Tree.proper_of_entries rfl (by decide +kernel)).toRooted

end Sample

theorem inside_search_path_iff_part :
    Sample.workshop.files.Rooted ∧
      Run.sourceText? Sample.workshop "part.tpl" = .ok (some "part\n") ∧
      opened? Sample.workshop "part.tpl" = some "tpl/part.tpl" ∧
      ∃ dir ∈ Sample.workshop.searchPath, Sample.workshop.files.Inside dir "tpl/part.tpl" := by
  have hopened : opened? Sample.workshop "part.tpl" = some "tpl/part.tpl" := by decide +kernel
  have hread : Sample.workshop.files.readText "tpl/part.tpl" = .ok "part\n" := by decide +kernel
  have hname : isAbsolute "part.tpl" = false := by decide
  obtain ⟨htext, hinside, -⟩ :=
    inside_search_path_iff Sample.workshop Sample.workshop_rooted "part.tpl"
  obtain ⟨dir, -, -, -, hsearch⟩ := hinside _ hopened
  exact ⟨Sample.workshop_rooted, (htext _).mpr ⟨_, hopened, hread⟩, hopened,
    hsearch.mpr (Or.inl hname)⟩

/-- A name that starts at the root gives the text of a file outside the search path, although it has
no two dots.  A rule makes it of a template with two slashes at its start. -/
theorem not_inside_search_path :
    ¬ ∀ (env : Env) (source : Option String) (entry text : String), env.files.Rooted →
      Run.sourceText? env (templateName source entry) = .ok (some text) →
      ∃ dir ∈ env.searchPath, env.files.Inside dir (join dir (templateName source entry)) := by
  intro h
  have htext : Run.sourceText? Sample.workshop (templateName none "//secret.tpl") =
      .ok (some "secret\n") := by decide +kernel
  have hdirs : ∀ dir ∈ Sample.workshop.searchPath,
      (Sample.workshop.files.location dir).head? = some "work" := by decide +kernel
  have hfiles : ∀ dir ∈ Sample.workshop.searchPath,
      Sample.workshop.files.location (join dir (templateName none "//secret.tpl")) =
        ["secret.tpl"] := by decide +kernel
  obtain ⟨dir, hdir, l, below, c, hwalk, -, hplace⟩ :=
    h Sample.workshop none "//secret.tpl" "secret\n" Sample.workshop_rooted htext
  have hl : l = Sample.workshop.files.location dir := (Tree.isAt_of_walk hwalk).1
  have hhead : l.head? = some "work" := hl ▸ hdirs dir hdir
  have hfile : l ++ below = ["secret.tpl"] := (Tree.location_of_found hplace).trans (hfiles dir hdir)
  cases l with
  | nil => cases hhead
  | cons s rest =>
      cases hhead
      simp at hfile

end Stencil.Template
