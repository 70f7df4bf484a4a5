import Stencil.Proofs.Files.Volumes
import Stencil.Proofs.Generate.SameInput
import Stencil.Rules.RuleSet

/-!
# Templates that are found

A template is found in the first directory of the search path that has a rules file of it.  The
templates are in the order of these directories, and in each in the order of their names,
whatever the order is in which directories list their entries.

A name of a file that is no text names a template as it is read.  The directory of a template
leads back to the rules file by which it was found, if the name of that file is a text.
-/

namespace Stencil.Generate

open Files Report
open Files.Path (join)

/-- A file has the name of the rules file of a template.  A template has a name: a file that is
called like the extension alone has no extension. -/
def IsRulesFile (file : FileName) (name : String) : Prop :=
  ∃ stem ≠ [], file.bytes = stem ++ Text.utf8 ".yaml" ∧ name = Text.ofBytes stem

/-- A directory has a rules file of a template. -/
structure Offers (v : Volume) (directory name : String) : Prop where
  isDirectory : v.tree.isDirectory directory = true
  rules : ∃ file c, IsRulesFile file name ∧
    v.get? (v.tree.location directory) file = some (.file c)

/-- The first directory of a search path that offers a template. -/
structure FirstOffer (v : Volume) (search : List String) (name : String) (i : Nat)
    (directory : String) : Prop where
  place : search[i]? = some directory
  offers : Offers v directory name
  first : ∀ j other, j < i → search[j]? = some other → ¬ Offers v other name

/-- A template comes before another one: its directory does, or both are in one directory and its
name does. -/
def Ahead (v : Volume) (search : List String) (a b : String) : Prop :=
  ∃ i j d e, FirstOffer v search a i d ∧ FirstOffer v search b j e ∧ (i < j ∨ i = j ∧ a < b)

/-! ## Looking through directories -/

/-- The names of the templates in a directory, from its entries as they are listed.  Two files can
be read as one name. -/
def listedNames (v : Volume) (directory : String) (listed : List FileName) : List String :=
  (rulesStems v directory listed).mergeSort fun a b => !decide (b < a)

/-- A template that is found in a directory, unless it was found before. -/
def find (directory : String) (found : List (String × String)) (name : String) :
    List (String × String) :=
  if found.any (·.1 = name) then found else found ++ [(name, join directory name)]

/-- The templates of a search path, from directories that list their entries in some order. -/
def discover (v : Volume) (listed : String → List FileName) (search : List String) :
    List (String × String) :=
  search.foldl (fun found directory =>
    (listedNames v directory (listed directory)).foldl (find directory) found) []

theorem catalogue_eq (v : Volume) (search : List String) :
    catalogue v search = search.foldl (fun found directory =>
      (templateNames v directory).foldl (find directory) found) [] := by
  unfold catalogue find
  rw [List.foldl_flatMap]
  congr
  funext found directory
  rw [List.foldl_map]

section Find

variable {directory name : String} {names : List String} {found : List (String × String)}

theorem find_known (h : name ∈ found.map Prod.fst) : find directory found name = found := by
  unfold find
  rw [if_pos]
  simpa using h

theorem find_new (h : name ∉ found.map Prod.fst) :
    find directory found name = found ++ [(name, join directory name)] := by
  unfold find
  rw [if_neg]
  simpa using h

/-- The names that were found in a directory follow those that were known. -/
theorem foldl_find (hnames : names.Nodup) (found : List (String × String)) :
    names.foldl (find directory) found =
      found ++ (names.filter (· ∉ found.map Prod.fst)).map fun name =>
        (name, join directory name) := by
  induction names generalizing found with
  | nil => simp
  | cons name rest ih =>
      obtain ⟨hname, hrest⟩ := List.nodup_cons.mp hnames
      rw [List.foldl_cons, ih hrest]
      by_cases hknown : name ∈ found.map Prod.fst
      · rw [find_known hknown, List.filter_cons_of_neg (by simpa using hknown)]
      · -- the name does not come again
        have hfilter : rest.filter (· ∉ (found ++ [(name, join directory name)]).map Prod.fst) =
            rest.filter (· ∉ found.map Prod.fst) := by
          refine List.filter_congr fun other hother => ?_
          have hne : other ≠ name := fun heq => hname (heq ▸ hother)
          simp [hne]
        rw [find_new hknown, hfilter, List.filter_cons_of_pos (by simpa using hknown)]
        simp

theorem known_foldl_find (hname : name ∈ found.map Prod.fst ∨ name ∈ names) :
    name ∈ (names.foldl (find directory) found).map Prod.fst := by
  induction names generalizing found with
  | nil => simpa using hname
  | cons other rest ih =>
      refine ih ?_
      rw [List.mem_cons, ← or_assoc] at hname
      refine hname.imp_left fun hfound => ?_
      by_cases hknown : other ∈ found.map Prod.fst
      · rw [find_known hknown]
        rcases hfound with hfound | rfl
        · exact hfound
        · exact hknown
      · rw [find_new hknown]
        simpa using hfound

/-- A name that comes again is known. -/
theorem foldl_find_distinct (names : List String) :
    (distinct names).foldl (find directory) found = names.foldl (find directory) found := by
  refine apply_distinct (fun names => names.foldl (find directory) found)
    (fun xs ys name h => ?_) (fun xs name h => ?_) names
  · simp only [List.foldl_concat] at h ⊢
    rw [h]
  · simp only [List.foldl_concat]
    exact find_known (known_foldl_find (.inr h))

end Find

theorem pairwise_templateNames (v : Volume) (directory : String) :
    (templateNames v directory).Pairwise (· < ·) := pairwise_sortTexts _

theorem catalogue_concat (v : Volume) (search : List String) (directory : String) :
    catalogue v (search ++ [directory]) = catalogue v search ++
      ((templateNames v directory).filter (· ∉ (catalogue v search).map Prod.fst)).map
        fun name => (name, join directory name) := by
  rw [catalogue_eq, List.foldl_concat, ← catalogue_eq]
  exact foldl_find ((pairwise_templateNames v directory).imp fun hlt => hlt.ne) _

/-- The order in which the entries of a directory are listed does not matter. -/
theorem distinct_listedNames {v : Volume} {directory : String} {listed : List FileName}
    (h : listed.Perm ((v.list? directory).getD [])) :
    distinct (listedNames v directory listed) = templateNames v directory := by
  rw [listedNames, distinct_mergeSort, templateNames]
  exact sortTexts_congr fun name => ((h.filter _).filterMap _).mem_iff

theorem discover_eq {v : Volume} {listed : String → List FileName}
    (h : ∀ directory, (listed directory).Perm ((v.list? directory).getD []))
    (search : List String) : discover v listed search = catalogue v search := by
  rw [catalogue_eq, discover]
  congr
  funext found directory
  rw [← foldl_find_distinct, distinct_listedNames (h directory)]

/-! ## Rules files in a directory -/

section Rules

variable {v : Volume} {directory name : String} {file : FileName}

/-- A name has the stem and the extension of a rules file if it is that of one. -/
theorem isRulesFile_iff (hfile : ∀ s, file = .text s → Path.IsName s) :
    (file.stem? = some name ∧ file.hasExtension rulesExtension = true) ↔
      IsRulesFile file name := by
  obtain ⟨hstem, hextension⟩ := FileName.cut_bytes hfile rulesExtension
  have hdot : 0x2E ∉ Text.utf8 rulesExtension := by decide
  have hbytes : Text.utf8 ".yaml" = 0x2E :: Text.utf8 rulesExtension := by decide
  rw [hstem, hextension, Option.some_inj, IsRulesFile, hbytes]
  constructor
  · rintro ⟨rfl, hcut⟩
    obtain ⟨hne, hfile, -⟩ := FileName.cutBytes_eq_some.mp (Prod.ext rfl hcut)
    exact ⟨_, hne, hfile, rfl⟩
  · rintro ⟨stem, hne, hfile, rfl⟩
    rw [FileName.cutBytes_eq_some.mpr ⟨hne, hfile, hdot⟩]
    exact ⟨rfl, rfl⟩

/-- A text is the name of the rules file of a template if it is the name with the extension. -/
theorem isRulesFile_text {s : String} (hs : Path.IsName s) :
    IsRulesFile (.text s) name ↔ name ≠ "" ∧ s = name ++ ".yaml" := by
  have hdot : '.' ∉ rulesExtension.toList := by decide
  have htext : name ++ "." ++ rulesExtension = name ++ ".yaml" := by
    rw [String.append_assoc]
    rfl
  rw [← isRulesFile_iff (by rintro _ ⟨rfl⟩; exact hs), ← htext, FileName.hasExtension,
    decide_eq_true_eq, FileName.stem?, Path.stem?_and_extension? hs]
  simp [hdot]

/-- What a name denotes in a directory depends on the components of its path only. -/
theorem place_join_congr {t : Tree} {above s : String} (hs : Path.IsName s)
    (h : Path.components above = Path.components directory) {l : Location} {e : Entry} :
    t.place (join above s) = .ok (.found l e) ↔ t.place (join directory s) = .ok (.found l e) := by
  rw [Tree.place_eq_found, Tree.place_eq_found, Path.components_join_of_name hs,
    Path.components_join_of_name hs, h]
  simp only [Path.join_ne_empty hs, Path.endsInDirectory_join_of_name hs, ne_eq, not_false_eq_true]

/-- The name of a template is one of a file, if it is none that leads elsewhere. -/
theorem IsRulesFile.isName (h : IsRulesFile file name)
    (hfile : ∀ s, file = .text s → Path.IsName s) (hdot : name ≠ ".") (hdots : name ≠ "..") :
    Path.IsName name := by
  obtain ⟨stem, hne, hbytes, rfl⟩ := h
  have hseparator : 0x2F ∉ file.bytes := by
    cases file with
    | broken name => exact name.separator
    | text s => exact fun hmem => (hfile s rfl).separator ((Text.mem_utf8 (by decide) rfl).mp hmem)
  refine ⟨by simp [Path.component?, Text.ofBytes_ne_empty hne, hdot, hdots], fun hmem => ?_⟩
  refine hseparator ?_
  rw [hbytes]
  exact List.mem_append_left _
    (Text.spelled_of_mem_ofBytes (by decide) hmem (List.mem_singleton_self 0x2F))

variable (hv : v.tree.Proper)
include hv

theorem isName_of_get? {l : Location} (h : (v.get? l file).isSome) (s : String)
    (hs : file = .text s) : Path.IsName s := by
  subst hs
  exact hv.named l s h

theorem mem_templateNames : name ∈ templateNames v directory ↔ Offers v directory name := by
  unfold templateNames rulesStems
  simp only [mem_sortTexts, List.mem_filterMap, List.mem_filter, Bool.and_eq_true]
  constructor
  · rintro ⟨file, ⟨hlisted, hfile, hextension⟩, hstem⟩
    obtain ⟨hplace, c, hc⟩ := (Volume.listed_file_iff hv).mp ⟨hlisted, hfile⟩
    have hrules := (isRulesFile_iff (isName_of_get? hv (by rw [hc]; rfl))).mp ⟨hstem, hextension⟩
    exact ⟨Document.isDirectory_of_place hplace, file, c, hrules, hc⟩
  · rintro ⟨hdirectory, file, c, hrules, hc⟩
    obtain ⟨hstem, hextension⟩ :=
      (isRulesFile_iff (isName_of_get? hv (by rw [hc]; rfl))).mpr hrules
    obtain ⟨hlisted, hfile⟩ :=
      (Volume.listed_file_iff hv).mpr ⟨Tree.place_of_isDirectory hdirectory, c, hc⟩
    exact ⟨file, ⟨hlisted, hfile, hextension⟩, hstem⟩

end Rules

/-! ## The first directories -/

section First

variable {v : Volume} {search : List String} {name directory other : String} {i j : Nat}

theorem FirstOffer.lt_length (h : FirstOffer v search name i directory) : i < search.length :=
  (List.getElem?_eq_some_iff.mp h.place).1

/-- A template is found in one directory. -/
theorem FirstOffer.unique (h : FirstOffer v search name i directory)
    (k : FirstOffer v search name j other) : i = j ∧ directory = other := by
  have hij : i = j := by
    rcases lt_trichotomy i j with hlt | heq | hgt
    · exact absurd h.offers (k.first i directory hlt h.place)
    · exact heq
    · exact absurd k.offers (h.first j other hgt k.place)
  subst hij
  exact ⟨rfl, Option.some.inj (h.place.symm.trans k.place)⟩

/-- A directory at the end of the search path changes nothing for a template that is found
before. -/
theorem FirstOffer.concat (h : FirstOffer v search name i directory) (last : String) :
    FirstOffer v (search ++ [last]) name i directory where
  place := by rw [List.getElem?_append_left h.lt_length, h.place]
  offers := h.offers
  first j other hj hplace := by
    rw [List.getElem?_append_left (hj.trans h.lt_length)] at hplace
    exact h.first j other hj hplace

/-- The last directory is the first one for what no other offers. -/
theorem firstOffer_last (hoffers : Offers v directory name)
    (hnone : ∀ i other, ¬ FirstOffer v search name i other) :
    FirstOffer v (search ++ [directory]) name search.length directory where
  place := by simp
  offers := hoffers
  first := by
    -- a directory before that offers the template would not be the first one to do so
    intro j
    induction j using Nat.strong_induction_on with
    | _ j ih =>
        intro other hj hplace hother
        rw [List.getElem?_append_left hj] at hplace
        refine hnone j other ⟨hplace, hother, fun k before hk hbefore => ?_⟩
        refine ih k hk before (hk.trans hj) ?_
        rw [List.getElem?_append_left (hk.trans hj), hbefore]

theorem firstOffer_concat_iff {last : String} :
    FirstOffer v (search ++ [last]) name i directory ↔
      FirstOffer v search name i directory ∨
        (∀ i other, ¬ FirstOffer v search name i other) ∧ Offers v last name ∧
          i = search.length ∧ directory = last := by
  constructor
  · intro h
    by_cases hsome : ∃ i other, FirstOffer v search name i other
    · obtain ⟨j, other, hother⟩ := hsome
      obtain ⟨rfl, rfl⟩ := h.unique (hother.concat last)
      exact .inl hother
    · have hnone : ∀ i other, ¬ FirstOffer v search name i other :=
        fun i other hother => hsome ⟨i, other, hother⟩
      have hlt := h.lt_length
      rw [List.length_append, List.length_singleton] at hlt
      rcases Nat.lt_succ_iff_lt_or_eq.mp hlt with hbefore | rfl
      · refine absurd ⟨?_, h.offers, fun j other hj hplace => ?_⟩ (hnone i directory)
        · rw [← h.place, List.getElem?_append_left hbefore]
        · refine h.first j other hj ?_
          rw [List.getElem?_append_left (hj.trans hbefore), hplace]
      · have hplace := h.place
        rw [List.getElem?_concat_length, Option.some_inj] at hplace
        subst hplace
        exact .inr ⟨hnone, h.offers, rfl, rfl⟩
  · rintro (h | ⟨hnone, hoffers, rfl, rfl⟩)
    · exact h.concat last
    · exact firstOffer_last hoffers hnone

theorem Ahead.concat {a b : String} (h : Ahead v search a b) (last : String) :
    Ahead v (search ++ [last]) a b := by
  obtain ⟨i, j, d, e, ha, hb, hlt⟩ := h
  exact ⟨i, j, d, e, ha.concat last, hb.concat last, hlt⟩

end First

/-! ## The catalogue -/

/-- The names that are known are those that some directory offers. -/
theorem mem_names_iff {v : Volume} {search : List String} {name : String}
    {found : List (String × String)}
    (h : ∀ path, (name, path) ∈ found ↔
      ∃ i directory, FirstOffer v search name i directory ∧ path = join directory name) :
    name ∈ found.map Prod.fst ↔ ∃ i directory, FirstOffer v search name i directory := by
  rw [List.mem_map]
  constructor
  · rintro ⟨⟨_, path⟩, hmem, rfl⟩
    obtain ⟨i, directory, hfirst, -⟩ := (h path).mp hmem
    exact ⟨i, directory, hfirst⟩
  · rintro ⟨i, directory, hfirst⟩
    exact ⟨(name, join directory name), (h _).mpr ⟨i, directory, hfirst, rfl⟩, rfl⟩

section Catalogue

variable {v : Volume} (hv : v.tree.Proper) {search : List String} {name path : String}
include hv

/-- The catalogue has each template with its first directory.  A directory at the end of the search
path adds the templates that no other one offers. -/
theorem mem_catalogue :
    (name, path) ∈ catalogue v search ↔
      ∃ i directory, FirstOffer v search name i directory ∧ path = join directory name := by
  induction search using List.reverseRecOn generalizing name path with
  | nil =>
      refine iff_of_false (fun h => nomatch h) ?_
      rintro ⟨i, directory, h, -⟩
      exact absurd h.lt_length (Nat.not_lt_zero i)
  | append_singleton search last ih =>
      rw [catalogue_concat, List.mem_append, ih, List.mem_map]
      constructor
      · rintro (⟨i, directory, h, rfl⟩ | ⟨new, hnew, heq⟩)
        · exact ⟨i, directory, h.concat last, rfl⟩
        · cases heq
          obtain ⟨hname, hfresh⟩ := List.mem_filter.mp hnew
          have hnone : ∀ i other, ¬ FirstOffer v search name i other := fun i other h =>
            of_decide_eq_true hfresh ((mem_names_iff fun _ => ih).mpr ⟨i, other, h⟩)
          exact ⟨_, last, firstOffer_last ((mem_templateNames hv).mp hname) hnone, rfl⟩
      · rintro ⟨i, directory, h, rfl⟩
        rcases firstOffer_concat_iff.mp h with h | ⟨hnone, hoffers, -, rfl⟩
        · exact .inl ⟨i, directory, h, rfl⟩
        · refine .inr ⟨name, List.mem_filter.mpr ⟨(mem_templateNames hv).mpr hoffers, ?_⟩, rfl⟩
          refine decide_eq_true fun hmem => ?_
          obtain ⟨i, other, hother⟩ := (mem_names_iff fun _ => ih).mp hmem
          exact hnone i other hother

theorem mem_catalogue_names :
    name ∈ (catalogue v search).map Prod.fst ↔
      ∃ i directory, FirstOffer v search name i directory := mem_names_iff fun _ => mem_catalogue hv

/-- Templates of the last directory come after all others, in the order of their names. -/
theorem pairwise_catalogue :
    ((catalogue v search).map Prod.fst).Pairwise (Ahead v search) := by
  induction search using List.reverseRecOn with
  | nil => exact .nil
  | append_singleton search last ih =>
      have hnew : ∀ name ∈ (templateNames v last).filter (· ∉ (catalogue v search).map Prod.fst),
          FirstOffer v (search ++ [last]) name search.length last := by
        intro name hname
        obtain ⟨hname, hfresh⟩ := List.mem_filter.mp hname
        exact firstOffer_last ((mem_templateNames hv).mp hname) fun i other h =>
          of_decide_eq_true hfresh ((mem_catalogue_names hv).mpr ⟨i, other, h⟩)
      rw [catalogue_concat, List.map_append, List.map_map, Function.comp_def, List.map_id']
      refine List.pairwise_append.mpr ⟨ih.imp fun h => h.concat last, ?_, ?_⟩
      · refine ((pairwise_templateNames v last).filter _).imp_of_mem fun ha hb hlt => ?_
        exact ⟨_, _, last, last, hnew _ ha, hnew _ hb, .inr ⟨rfl, hlt⟩⟩
      · intro a ha b hb
        obtain ⟨i, directory, h⟩ := (mem_catalogue_names hv).mp ha
        exact ⟨i, _, directory, last, h.concat last, hnew b hb, .inl h.lt_length⟩

theorem nodup_catalogue : ((catalogue v search).map Prod.fst).Nodup := by
  refine (pairwise_catalogue hv).imp ?_
  rintro a b ⟨i, j, d, e, ha, hb, hlt⟩ rfl
  obtain ⟨rfl, -⟩ := ha.unique hb
  rcases hlt with hlt | ⟨-, hlt⟩
  · exact lt_irrefl i hlt
  · exact lt_irrefl a hlt

theorem lookup_catalogue :
    (catalogue v search).lookup name = some path ↔ (name, path) ∈ catalogue v search := by
  have hmem : ∀ {found}, (catalogue v search).lookup name = some found →
      (name, found) ∈ catalogue v search := by
    intro found h
    obtain ⟨before, after, hsplit, -⟩ := List.lookup_eq_some_iff.mp h
    rw [hsplit]
    exact List.mem_append_right before List.mem_cons_self
  refine ⟨hmem, fun h => ?_⟩
  cases hlookup : (catalogue v search).lookup name with
  | none =>
      have hnone := List.lookup_eq_none_iff.mp hlookup (name, path) h
      simp at hnone
  | some found =>
      obtain ⟨i, d, hd, rfl⟩ := (mem_catalogue hv).mp (hmem hlookup)
      obtain ⟨j, e, he, rfl⟩ := (mem_catalogue hv).mp h
      rw [(hd.unique he).2]

/-! ## Directories of templates -/

/-- The directory of a template leads back to its rules file with a text for a name. -/
theorem place_rulesPath {directory : String} (h : Offers v directory name) (hdot : name ≠ ".")
    (hdots : name ≠ "..") :
    Path.components (Rules.rulesPath (join directory name)) =
        Path.components (join directory (name ++ ".yaml")) ∧
      ∀ l c, v.tree.place (Rules.rulesPath (join directory name)) = .ok (.found l (.file c)) ↔
        ∃ s, IsRulesFile (.text s) name ∧ l = v.tree.location directory ++ [s] ∧
          v.tree.get? l = some (.file c) := by
  obtain ⟨hdirectory, file, c, hrules, hc⟩ := h
  have hplace := Tree.place_of_isDirectory hdirectory
  have hname : Path.IsName name :=
    hrules.isName (isName_of_get? hv (by rw [hc]; rfl)) hdot hdots
  have hfile : Path.IsName (name ++ ".yaml") := by
    refine Path.isName_of_mem (c := 'y') (by simp) (by decide) ?_
    simpa using hname.separator
  obtain ⟨above, habove, hcomponents⟩ : ∃ above, Path.parent? (join directory name) = some above ∧
      Path.components above = Path.components directory := Path.components_parent?_join hname
  have hpath : Rules.rulesPath (join directory name) = join above (name ++ ".yaml") := by
    rw [Rules.rulesPath, habove, Path.fileName?_join hname]
    rfl
  have hsame : Path.components (join above (name ++ ".yaml")) =
      Path.components (join directory (name ++ ".yaml")) := by
    rw [Path.components_join_of_name hfile, Path.components_join_of_name hfile, hcomponents]
  rw [hpath]
  refine ⟨hsame, fun l c => ?_⟩
  rw [place_join_congr hfile hcomponents, Tree.place_join hplace hfile]
  constructor
  · intro hfound
    cases hget : v.tree.get? (v.tree.location directory ++ [name ++ ".yaml"]) with
    | none => simp [hget] at hfound
    | some e =>
        rw [hget] at hfound
        cases hfound
        exact ⟨_, (isRulesFile_text hfile).mpr ⟨hname.ne_empty, rfl⟩, rfl, hget⟩
  · rintro ⟨s, hrules, rfl, hget⟩
    obtain ⟨-, rfl⟩ := (isRulesFile_text (hv.named _ s (by rw [hget]; rfl))).mp hrules
    rw [hget]

theorem templateDirectory_of_first {i : Nat} {directory : String}
    (h : FirstOffer v search name i directory) :
    templateDirectory v name search = .ok (join directory name) := by
  have hmem : (name, join directory name) ∈ catalogue v search :=
    (mem_catalogue hv).mpr ⟨i, directory, h, rfl⟩
  simp only [templateDirectory, (lookup_catalogue hv).mpr hmem]

theorem templateDirectory_of_none (h : ∀ directory ∈ search, ¬ Offers v directory name) :
    templateDirectory v name search =
      if v.tree.exists_ name then .ok name
      else .error (.unknownTemplate name ((catalogue v search).map Prod.fst)) := by
  have hlookup : (catalogue v search).lookup name = none := by
    rw [Option.eq_none_iff_forall_ne_some]
    intro path hpath
    obtain ⟨i, directory, hfirst, -⟩ := (mem_catalogue hv).mp ((lookup_catalogue hv).mp hpath)
    exact h directory (List.mem_of_getElem? hfirst.place) hfirst.offers
  simp only [templateDirectory, hlookup]

/-- The catalogue of a search path has each template that a directory offers, with the first such
directory, and no other.  It is in the order of these directories and in each in the order of the
names, whatever the order is in which directories list their entries.  A template in it is
resolved to its directory, whatever else has its name.  The path of its rules file has the name of
the template with the extension: there is the file that made the template known if that one has a
text for a name, and no file if none has.  Another text is a path, or no template. -/
theorem templates_shadowed (search : List String) :
    (∀ s name, Path.IsName s →
      (IsRulesFile (.text s) name ↔ name ≠ "" ∧ s = name ++ ".yaml")) ∧
    (∀ name path, (name, path) ∈ catalogue v search ↔
      ∃ i directory, FirstOffer v search name i directory ∧ path = join directory name) ∧
    ((catalogue v search).map Prod.fst).Nodup ∧
    ((catalogue v search).map Prod.fst).Pairwise (Ahead v search) ∧
    (∀ listed : String → List FileName,
      (∀ directory, (listed directory).Perm ((v.list? directory).getD [])) →
        discover v listed search = catalogue v search) ∧
    (∀ name i directory, FirstOffer v search name i directory →
      templateDirectory v name search = .ok (join directory name) ∧
      (name ≠ "." → name ≠ ".." →
        Path.components (Rules.rulesPath (join directory name)) =
            Path.components (join directory (name ++ ".yaml")) ∧
          ∀ l c, v.tree.place (Rules.rulesPath (join directory name)) =
              .ok (.found l (.file c)) ↔
            ∃ s, IsRulesFile (.text s) name ∧ l = v.tree.location directory ++ [s] ∧
              v.tree.get? l = some (.file c))) ∧
    ∀ name, (∀ directory ∈ search, ¬ Offers v directory name) →
      templateDirectory v name search =
        if v.tree.exists_ name then .ok name
        else .error (.unknownTemplate name ((catalogue v search).map Prod.fst)) :=
  ⟨fun _ _ hs => isRulesFile_text hs, fun _ _ => mem_catalogue hv, nodup_catalogue hv,
    pairwise_catalogue hv, fun _ h => discover_eq h search,
    fun _ _ _ h => ⟨templateDirectory_of_first hv h, place_rulesPath hv h.offers⟩,
    fun _ h => templateDirectory_of_none hv h⟩

end Catalogue

/-- A name of a rules file that is no text. -/
def Sample.unreadable : BrokenName := ⟨0xFF :: Text.utf8 ".yaml", by decide, by decide⟩

/-- Two directories of templates, of which the first shadows one of the second, and a file with the
name of a template.  The second has a file that is called like the extension alone and one whose
name is no text. -/
def Sample.stocked : Volume where
  tree := {
    entries := [
      (["work", "first", "qml.yaml"], .file (.text "")),
      (["work", "second", "qml.yaml"], .file (.text "")),
      (["work", "second", "app.v2.yaml"], .file (.text "")),
      (["work", "second", ".yaml"], .file (.text "")),
      (["work", "app.v2"], .file (.text "")),
      (["work", "first"], .directory),
      (["work", "second"], .directory),
      (["work"], .directory)]
    working := ["work"] }
  broken := [((["work", "second"], Sample.unreadable), .file (.text ""))]

theorem proper_stocked : Sample.stocked.tree.Proper :=
  Tree.proper_of_entries (by decide) (by decide)

/-- What is known is not told by texts: the replacement character is known though there is no rules
file of that name, neither in the directory nor where its template leads, and the empty text is not
though there is a file called like the extension. -/
theorem not_known_by_texts :
    Sample.stocked.tree.Proper ∧
      ¬ (∀ name path, (name, path) ∈ catalogue Sample.stocked ["second"] ↔
        path = join "second" name ∧
          Sample.stocked.tree.isFile (join "second" (name ++ ".yaml")) = true) ∧
      ("\uFFFD", "second/\uFFFD") ∈ catalogue Sample.stocked ["second"] ∧
      Sample.stocked.tree.exists_ "second/\uFFFD.yaml" = false ∧
      Rules.rulesPath "second/\uFFFD" = "second/\uFFFD.yaml" ∧
      "" ∉ (catalogue Sample.stocked ["second"]).map Prod.fst ∧
      Sample.stocked.tree.isFile "second/.yaml" = true := by
  have hknown : ("\uFFFD", "second/\uFFFD") ∈ catalogue Sample.stocked ["second"] := by decide
  refine ⟨proper_stocked, fun h => ?_, hknown, by decide, by decide, by decide, by decide⟩
  exact absurd ((h _ _).mp hknown).2 (by decide)

theorem templates_shadowed_stocked :
    Sample.stocked.tree.Proper ∧
      discover Sample.stocked (fun d => ((Sample.stocked.list? d).getD []).reverse)
          ["first/", "second"] =
        [("qml", "first/qml"), ("app.v2", "second/app.v2"), ("\uFFFD", "second/\uFFFD")] ∧
      Sample.stocked.tree.exists_ "app.v2" = true ∧
      templateDirectory Sample.stocked "app.v2" ["first/", "second"] = .ok "second/app.v2" ∧
      (∃ c, Sample.stocked.tree.place (Rules.rulesPath "second/app.v2") =
        .ok (.found ["work", "second", "app.v2.yaml"] (.file c))) ∧
      templateDirectory Sample.stocked "plain" ["first/", "second"] =
        .error (.unknownTemplate "plain" ["qml", "app.v2", "\uFFFD"]) := by
  obtain ⟨htexts, hmem, -, -, hlisted, hfound, hunknown⟩ :=
    templates_shadowed proper_stocked ["first/", "second"]
  obtain ⟨i, directory, hfirst, hpath⟩ := (hmem "app.v2" "second/app.v2").mp (by decide)
  obtain ⟨hresolved, hrules⟩ := hfound _ _ _ hfirst
  have hdirectory : directory = "second" := by
    have hplace := hfirst.place
    match i with
    | 0 =>
        cases hplace
        exact absurd hpath (by decide)
    | 1 =>
        cases hplace
        rfl
    | i + 2 => cases hplace
  subst hdirectory
  obtain ⟨-, hplaced⟩ := hrules (by decide) (by decide)
  have happ : IsRulesFile (.text "app.v2.yaml") "app.v2" :=
    (htexts _ _ (by decide)).mpr ⟨by decide, by decide⟩
  have hleads := (hplaced ["work", "second", "app.v2.yaml"] (.text "")).mpr
    ⟨_, happ, by decide, by decide⟩
  refine ⟨proper_stocked, (hlisted _ fun d => List.reverse_perm _).trans (by decide), by decide,
    hresolved, ⟨_, hleads⟩, (hunknown "plain" fun d hd hoffers => ?_).trans (by decide)⟩
  have hnone : ∀ d ∈ ["first/", "second"], "plain" ∉ templateNames Sample.stocked d := by decide
  exact hnone d hd ((mem_templateNames proper_stocked).mpr hoffers)

end Stencil.Generate
