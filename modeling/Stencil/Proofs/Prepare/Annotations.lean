import Stencil.Proofs.Fallible
import Stencil.Proofs.Model.Merge
import Stencil.Proofs.Model.QualifiedNames
import Stencil.Proofs.Prepare.Kept

/-!
# The entries of an annotation document

The entries of a document do not see each other: an entry is counted, complained
about or left aside for what the system was before, and merged into the tags of the
one node that its key names.  So the order of the entries does not matter.
-/

namespace Stencil

/-! ## Documents that were read -/

namespace Document

variable {strict : Bool}

/-- The mappings that some members hold have distinct keys. -/
def DistinctInside (ms : Members) : Prop :=
  ∀ key (inner : Members), (key, Json.object inner) ∈ ms → inner.Distinct

theorem distinct_ofPairs {pairs : Members} (h : DistinctInside pairs) :
    (Members.ofPairs pairs).Distinct := by
  obtain ⟨hkeys, hmem⟩ := Members.ofPairs_spec pairs
  exact .intro hkeys fun key inner hinner => h key inner (hmem _ hinner)

theorem jsonOf?_ne_object (m : Yaml.Meaning) (ms : Members) :
    Yaml.Node.jsonOf? m ≠ some (.object ms) := by
  intro h
  cases m with
  | float d => by_cases hd : d.isFinite <;> simp [Yaml.Node.jsonOf?, hd] at h
  | _ => cases h

mutual
/-- A mapping that is read has no key twice, whatever was written. -/
theorem distinct_json? : ∀ (n : Yaml.Node) {ms : Members},
    Yaml.Node.json? strict n = some (.object ms) → ms.Distinct
  | .scalar tag style text, ms, h => by
      obtain ⟨m, -, hm⟩ := Option.bind_eq_some_iff.mp h
      exact absurd hm (jsonOf?_ne_object m ms)
  | .sequence tag items, ms, h => by
      simp [Yaml.Node.json?] at h
  | .mapping tag entries, ms, h => by
      rw [Yaml.Node.json?] at h
      split at h
      · cases h
      · obtain ⟨pairs, hpairs, hms⟩ := Option.map_eq_some_iff.mp h
        cases hms
        exact distinct_ofPairs (distinct_jsonEntries? entries hpairs)
  | .unreadable, ms, h => by
      cases h

/-- So it is with the mappings under the keys of some entries. -/
theorem distinct_jsonEntries? : ∀ (entries : List (Yaml.Node × Yaml.Node)) {pairs : Members},
    Yaml.Node.jsonEntries? strict entries = some pairs → DistinctInside pairs
  | [], pairs, h => by
      cases h
      intro key inner hmem
      cases hmem
  | (k, v) :: rest, pairs, h => by
      rw [Yaml.Node.jsonEntries?] at h
      split at h
      · next p ps hp hps =>
          cases h
          intro key inner hmem
          rcases List.mem_cons.mp hmem with rfl | hmem
          · rw [Yaml.Node.jsonEntry?] at hp
            split at hp
            · next hvalue =>
                cases hp
                exact distinct_json? v hvalue
            · cases hp
          · exact distinct_jsonEntries? rest hps key inner hmem
      · cases h
end

theorem distinct_of_annotationsOfText? {text : String} {ms : Members}
    (h : annotationsOfText? text = some ms) : ms.Distinct := by
  have hempty : Members.Distinct [] := .intro List.nodup_nil fun key inner hmem => nomatch hmem
  unfold annotationsOfText? at h
  split at h
  · cases h
    exact hempty
  split at h
  · cases h
  split at h
  · cases h
  · cases h
    exact hempty
  · obtain ⟨pairs, hpairs, rfl⟩ := Option.map_eq_some_iff.mp h
    exact distinct_ofPairs (distinct_jsonEntries? _ hpairs)
  · cases h

/-- The annotations in a file have distinct keys, so that no entry of them hides another. -/
theorem distinct_of_loadAnnotations {t : Files.Tree} {path : String} {ms : Members}
    (h : loadAnnotations t path = .ok ms) : ms.Distinct := by
  obtain ⟨origin, -, hread⟩ := bind_eq_ok.mp h
  cases htext : annotationsOfText? origin.text with
  | none => simp [htext, throw, throwThe, MonadExceptOf.throw] at hread
  | some read =>
      rw [htext] at hread
      cases hread
      exact distinct_of_annotationsOfText? htext

end Document

namespace Prepare

open Model
open Report (Reporter)

/-! ## What becomes of an entry -/

/-- Whether the entry gives tags to a node: a node has its key for a name, and its value is a
mapping. -/
def counts (s : System) (entry : String × Json) : Bool :=
  (s.lookup? entry.1).isSome && entry.2.members?.isSome

/-- Whether no node has the key of the entry for a name. -/
def isUnknown (s : System) (entry : String × Json) : Bool := (s.lookup? entry.1).isNone

/-- Whether the entry names a node, but its value is neither a mapping nor null. -/
def isMisshapen (s : System) (entry : String × Json) : Bool :=
  (s.lookup? entry.1).isSome && entry.2.members?.isNone && decide (entry.2 ≠ .null)

/-- The entry merges a mapping into the tags at an address. -/
def Reaches (s : System) (entry : String × Json) (a : Address) (ms : Members) : Prop :=
  s.find? entry.1 = some a ∧ entry.2 = .object ms

theorem isSome_lookup? (s : System) (name : String) :
    (s.lookup? name).isSome = (s.find? name).isSome := by
  rcases s.cases_of_find? name with ⟨hfind, hread⟩ | ⟨a, n, hfind, hread, -⟩
  · rw [hfind, hread]
    rfl
  · rw [hfind, hread]
    rfl

theorem counts_iff {s : System} {entry : String × Json} :
    counts s entry = true ↔ ∃ a ms, Reaches s entry a ms := by
  unfold counts Reaches
  rw [isSome_lookup?]
  cases s.find? entry.1 <;> cases entry.2 <;> simp [Json.members?]

/-- Two entries with different keys do not reach the same node. -/
theorem Reaches.key_eq {s : System} {e f : String × Json} {a : Address} {ms ns : Members}
    (he : Reaches s e a ms) (hf : Reaches s f a ns) : e.1 = f.1 :=
  System.qualified_eq_of_find? he.1 hf.1

/-- The mapping of an entry has distinct keys if the document has. -/
theorem Reaches.distinct {s : System} {e : String × Json} {a : Address} {ms document : Members}
    (he : Reaches s e a ms) (h : document.Distinct) (hmem : e ∈ document) : ms.Distinct := by
  obtain ⟨key, value⟩ := e
  obtain ⟨-, rfl⟩ := he
  cases h with
  | intro _ hnested => exact hnested key ms hmem

section Entry

variable (origin : String) (a : Annotated) (entry : String × Json)

theorem merged_annotateEntry : (annotateEntry origin a entry).merged =
    a.merged + (counts a.system entry).toNat := by
  unfold annotateEntry counts
  rw [isSome_lookup?]
  cases hfind : a.system.find? entry.1 with
  | none => simp [hfind]
  | some address => cases hvalue : entry.2 <;> simp [hfind, hvalue, Json.members?]

theorem warnings_annotateEntry : (annotateEntry origin a entry).reporter.warnings =
    a.reporter.warnings +
      ((isUnknown a.system entry).toNat + (isMisshapen a.system entry).toNat) := by
  have hunknown : isUnknown a.system entry = (a.system.find? entry.1).isNone := by
    rw [isUnknown, ← Option.not_isSome, isSome_lookup?, Option.not_isSome]
  rw [hunknown]
  unfold annotateEntry isMisshapen
  rw [isSome_lookup?]
  cases hfind : a.system.find? entry.1 with
  | none => simp [hfind, Reporter.warnAt]
  | some address => cases hvalue : entry.2 <;> simp [hfind, hvalue, Json.members?, Reporter.warnAt]

variable {a entry} {b : Address} {ms : Members}

theorem system_of_reaches (h : Reaches a.system entry b ms) :
    (annotateEntry origin a entry).system = a.system.modifyTags b (Tags.merge ms) := by
  unfold annotateEntry
  simp only [h.1, h.2]

theorem system_of_not_counts (h : counts a.system entry = false) :
    (annotateEntry origin a entry).system = a.system := by
  unfold counts at h
  rw [isSome_lookup?] at h
  unfold annotateEntry
  cases hfind : a.system.find? entry.1 with
  | none => simp [hfind]
  | some address => cases hvalue : entry.2 <;> simp_all [Json.members?]

theorem tags?_of_reaches (h : Reaches a.system entry b ms) :
    (annotateEntry origin a entry).system.tags? b = (a.system.tags? b).map (Tags.merge ms) := by
  rw [system_of_reaches origin h, System.tags?_modifyTags, if_pos rfl]

theorem tags?_of_not_reaches (h : ∀ ms, ¬ Reaches a.system entry b ms) :
    (annotateEntry origin a entry).system.tags? b = a.system.tags? b := by
  cases hcounts : counts a.system entry with
  | false => rw [system_of_not_counts origin hcounts]
  | true =>
      obtain ⟨c, ms, hreaches⟩ := counts_iff.mp hcounts
      have hbc : b ≠ c := by
        rintro rfl
        exact h ms hreaches
      rw [system_of_reaches origin hreaches, System.tags?_modifyTags, if_neg hbc]

end Entry

/-! ## Tags do not matter

What an entry stands for is told by the names in the system, and these stay. -/

section Untagged

variable {s t : System} (h : s.untagged = t.untagged)
include h

theorem find?_of_untagged (name : String) : s.find? name = t.find? name := by
  rw [← s.find?_untagged, h, t.find?_untagged]

theorem isSome_lookup?_of_untagged (name : String) :
    (s.lookup? name).isSome = (t.lookup? name).isSome := by
  rw [isSome_lookup?, isSome_lookup?, find?_of_untagged h]

theorem reaches_of_untagged (entry : String × Json) (a : Address) (ms : Members) :
    Reaches s entry a ms ↔ Reaches t entry a ms := by
  unfold Reaches
  rw [find?_of_untagged h]

theorem counts_of_untagged (entry : String × Json) : counts s entry = counts t entry := by
  rw [counts, counts, isSome_lookup?_of_untagged h]

theorem isUnknown_of_untagged (entry : String × Json) : isUnknown s entry = isUnknown t entry := by
  rw [isUnknown, isUnknown, ← Option.not_isSome, ← Option.not_isSome, isSome_lookup?_of_untagged h]

theorem isMisshapen_of_untagged (entry : String × Json) :
    isMisshapen s entry = isMisshapen t entry := by
  rw [isMisshapen, isMisshapen, isSome_lookup?_of_untagged h]

end Untagged

/-! ## What becomes of a document -/

section Document

variable {origin : String} {document : Members} {s : System}

theorem untagged_annotateEntry (origin : String) (a : Annotated) (entry : String × Json) :
    (annotateEntry origin a entry).system.untagged = a.system.untagged :=
  kept_annotateEntry System.untagged_modifyTags origin a entry

theorem merged_foldl : ∀ {a : Annotated}, a.system.untagged = s.untagged →
    (document.foldl (annotateEntry origin) a).merged = a.merged + document.countP (counts s) := by
  induction document with
  | nil => exact fun _ => rfl
  | cons entry rest ih =>
      intro a h
      rw [List.foldl_cons, ih ((untagged_annotateEntry origin a entry).trans h),
        merged_annotateEntry, counts_of_untagged h, List.countP_cons]
      cases counts s entry <;> simp
      omega

theorem warnings_foldl : ∀ {a : Annotated}, a.system.untagged = s.untagged →
    (document.foldl (annotateEntry origin) a).reporter.warnings = a.reporter.warnings +
      (document.countP (isUnknown s) + document.countP (isMisshapen s)) := by
  induction document with
  | nil => exact fun _ => rfl
  | cons entry rest ih =>
      intro a h
      rw [List.foldl_cons, ih ((untagged_annotateEntry origin a entry).trans h),
        warnings_annotateEntry, isUnknown_of_untagged h, isMisshapen_of_untagged h,
        List.countP_cons, List.countP_cons]
      cases isUnknown s entry <;> cases isMisshapen s entry <;> simp <;> omega

variable {b : Address} {ms : Members}

theorem tags?_foldl_of_not_reached : ∀ {a : Annotated}, a.system.untagged = s.untagged →
    (∀ entry ∈ document, ∀ ms, ¬ Reaches s entry b ms) →
    (document.foldl (annotateEntry origin) a).system.tags? b = a.system.tags? b := by
  induction document with
  | nil => exact fun _ _ => rfl
  | cons entry rest ih =>
      intro a h hrest
      have hentry : ∀ ms, ¬ Reaches a.system entry b ms := fun ms hreaches =>
        hrest entry List.mem_cons_self ms ((reaches_of_untagged h entry b ms).mp hreaches)
      rw [List.foldl_cons, ih ((untagged_annotateEntry origin a entry).trans h)
        (fun e he => hrest e (List.mem_cons_of_mem entry he)), tags?_of_not_reaches origin hentry]

/-- The tags that an entry reaches are reached by no other, before or after it. -/
theorem tags?_foldl_of_reached (hkeys : document.keys.Nodup) {e : String × Json}
    (he : e ∈ document) (hreaches : Reaches s e b ms) :
    ∀ {a : Annotated}, a.system.untagged = s.untagged →
      (document.foldl (annotateEntry origin) a).system.tags? b =
        (a.system.tags? b).map (Tags.merge ms) := by
  induction document with
  | nil => cases he
  | cons entry rest ih =>
      intro a h
      obtain ⟨hnew, hrest⟩ := List.nodup_cons.mp hkeys
      have hnext := (untagged_annotateEntry origin a entry).trans h
      rw [List.foldl_cons]
      rcases List.mem_cons.mp he with rfl | hmem
      -- the entry itself: what comes after it has other keys
      · have hother : ∀ f ∈ rest, ∀ ns, ¬ Reaches s f b ns := by
          intro f hf ns hagain
          exact hnew (hreaches.key_eq hagain ▸ List.mem_map_of_mem hf)
        rw [tags?_foldl_of_not_reached hnext hother,
          tags?_of_reaches origin ((reaches_of_untagged h e b ms).mpr hreaches)]
      -- an entry before it, which has another key too
      · have hother : ∀ ns, ¬ Reaches a.system entry b ns := by
          intro ns hagain
          have hentry := (reaches_of_untagged h entry b ns).mp hagain
          exact hnew (hentry.key_eq hreaches ▸ List.mem_map_of_mem hmem)
        rw [ih hrest hmem hnext, tags?_of_not_reaches origin hother]

end Document

/-! ## Entries are independent -/

/-- What merging a document into a system comes to, said of each entry by itself. -/
structure EntryByEntry (s : System) (warnings : Nat) (document : Members) (result : Annotated) :
    Prop where
  merged : result.merged = document.countP (counts s)
  warned : result.reporter.warnings =
    warnings + (document.countP (isUnknown s) + document.countP (isMisshapen s))
  reached : ∀ entry, counts s entry = true ↔ ∃ a ms, Reaches s entry a ms
  tags : ∀ entry ∈ document, ∀ a ms, Reaches s entry a ms → ∃ old new,
    s.lookup? entry.1 = some old ∧ s.node? a = some old ∧ result.system.node? a = some new ∧
      Merged old.tags.members ms new.tags.members
  others : ∀ a, (∀ entry ∈ document, ∀ ms, ¬ Reaches s entry a ms) →
    result.system.tags? a = s.tags? a
  untagged : result.system.untagged = s.untagged

/-- Two results that differ in nothing but the order of their reports. -/
structure SameOutcome (result other : Annotated) : Prop where
  system : result.system = other.system
  merged : result.merged = other.merged
  warnings : result.reporter.warnings = other.reporter.warnings

/-- A document with the place it was read from, as the file names it. -/
structure Loads (t : Files.Tree) (file : String) (document : String × Members) : Prop where
  path : document.1 = absolutePath t file
  exists_ : t.exists_ document.1 = true
  members : Document.loadAnnotations t document.1 = .ok document.2

/-- A draft into which a document is merged. -/
def Draft.annotated (d : Draft) (document : String × Members) : Draft :=
  let a := annotate document.2 document.1 d.system d.reporter
  { d with system := a.system, reporter := a.reporter }

theorem distinct_of_perm {document permuted : Members} (h : document.Distinct)
    (hperm : permuted.Perm document) : permuted.Distinct := by
  cases h with
  | intro hkeys hnested =>
      exact .intro ((hperm.map Prod.fst).nodup_iff.mpr hkeys) fun key inner hmem =>
        hnested key inner (hperm.mem_iff.mp hmem)

section Independent

variable {document : Members} (origin : String) (s : System) (reporter : Reporter)

theorem untagged_annotate :
    (annotate document origin s reporter).system.untagged = s.untagged :=
  kept_annotate System.untagged_modifyTags document origin s reporter

theorem tags?_annotate_of_reached (h : document.Distinct) {entry : String × Json}
    (hentry : entry ∈ document) {a : Address} {ms : Members} (hreaches : Reaches s entry a ms) :
    (annotate document origin s reporter).system.tags? a = (s.tags? a).map (Tags.merge ms) :=
  tags?_foldl_of_reached h.nodup_keys hentry hreaches rfl

theorem tags?_annotate_of_not_reached {a : Address}
    (h : ∀ entry ∈ document, ∀ ms, ¬ Reaches s entry a ms) :
    (annotate document origin s reporter).system.tags? a = s.tags? a :=
  tags?_foldl_of_not_reached rfl h

theorem entryByEntry_annotate (h : document.Distinct) :
    EntryByEntry s reporter.warnings document (annotate document origin s reporter) where
  merged := (merged_foldl rfl).trans (Nat.zero_add _)
  warned := warnings_foldl rfl
  reached _ := counts_iff
  tags entry hentry a ms hreaches := by
    have htags := tags?_annotate_of_reached origin s reporter h hentry hreaches
    rcases s.cases_of_find? entry.1 with ⟨hfind, -⟩ | ⟨b, old, hfind, hread, hnode, -⟩
    · rw [hreaches.1] at hfind
      cases hfind
    · rw [hreaches.1] at hfind
      cases hfind
      rw [← System.map_tags_node?, ← System.map_tags_node?, hnode] at htags
      obtain ⟨new, hnew, hmerge⟩ := Option.map_eq_some_iff.mp htags
      refine ⟨old, new, hread, hnode, hnew, ?_⟩
      rw [hmerge]
      exact merged_mergeMembers (hreaches.distinct h hentry) old.tags.members
  others _ ha := tags?_annotate_of_not_reached origin s reporter ha
  untagged := untagged_annotate origin s reporter

/-- The order of the entries does not matter. -/
theorem sameOutcome_of_perm (h : document.Distinct) {permuted : Members}
    (hperm : permuted.Perm document) :
    SameOutcome (annotate permuted origin s reporter) (annotate document origin s reporter) := by
  have hpermuted := distinct_of_perm h hperm
  have hresult := entryByEntry_annotate origin s reporter h
  have hother := entryByEntry_annotate origin s reporter hpermuted
  -- the systems differ in tags at most, and these are compared address by address
  refine ⟨System.eq_of_untagged (hother.untagged.trans hresult.untagged.symm) fun a => ?_, ?_, ?_⟩
  · by_cases hreached : ∃ entry ∈ document, ∃ ms, Reaches s entry a ms
    · obtain ⟨entry, hentry, ms, hreaches⟩ := hreached
      rw [tags?_annotate_of_reached origin s reporter h hentry hreaches,
        tags?_annotate_of_reached origin s reporter hpermuted (hperm.mem_iff.mpr hentry) hreaches]
    · have hnot : ∀ entry ∈ document, ∀ ms, ¬ Reaches s entry a ms :=
        fun entry hentry ms hreaches => hreached ⟨entry, hentry, ms, hreaches⟩
      rw [hresult.others a hnot, hother.others a fun entry hentry =>
        hnot entry (hperm.mem_iff.mp hentry)]
  · rw [hresult.merged, hother.merged, hperm.countP_eq]
  · rw [hresult.warned, hother.warned, hperm.countP_eq, hperm.countP_eq]

theorem annotateFiles_loaded {t : Files.Tree} {files : List String}
    {documents : List (String × Members)} (h : List.Forall₂ (Loads t) files documents)
    (rest : List String) (d : Draft) : annotateFiles t (files ++ rest) d =
      annotateFiles t rest (documents.foldl Draft.annotated d) := by
  induction h generalizing d with
  | nil => rfl
  | @cons file document files documents hfile _ ih =>
      have hstep : annotateFiles t (file :: (files ++ rest)) d =
          annotateFiles t (files ++ rest) (d.annotated document) := by
        -- the document was read at the path that stands for the file
        have hexists := hfile.exists_
        have hmembers := hfile.members
        rw [hfile.path] at hexists hmembers
        rw [annotateFiles]
        simp [hexists, hmembers, Draft.annotated, hfile.path]
      rw [List.cons_append, hstep, ih, List.foldl_cons]

end Independent

theorem distinct_of_loaded {t : Files.Tree} {files : List String}
    {documents : List (String × Members)} (h : List.Forall₂ (Loads t) files documents) :
    ∀ document ∈ documents, document.2.Distinct := by
  induction h with
  | nil => exact fun document hdocument => nomatch hdocument
  | cons hfile _ ih =>
      exact List.forall_mem_cons.mpr ⟨Document.distinct_of_loadAnnotations hfile.members, ih⟩

/-- The entries of a document are independent.  They may come in any order: the system, the count and
the number of warnings are the same, and they are what each entry comes to by itself.  Documents
that are loaded in turn are merged in turn, from left to right, up to one that cannot be loaded. -/
theorem annotate_entries_independent :
    (∀ (document : Members) (origin : String) (s : System) (reporter : Reporter),
      document.Distinct →
        EntryByEntry s reporter.warnings document (annotate document origin s reporter) ∧
        ∀ permuted : Members, permuted.Perm document →
          SameOutcome (annotate permuted origin s reporter)
            (annotate document origin s reporter)) ∧
    ∀ (t : Files.Tree) (files rest : List String) (documents : List (String × Members)) (d : Draft),
      List.Forall₂ (Loads t) files documents →
        (∀ document ∈ documents, document.2.Distinct) ∧
        annotateFiles t (files ++ rest) d =
          annotateFiles t rest (documents.foldl Draft.annotated d) := by
  refine ⟨fun document origin s reporter h => ⟨?_, fun permuted hperm => ?_⟩, ?_⟩
  · exact entryByEntry_annotate origin s reporter h
  · exact sameOutcome_of_perm origin s reporter h hperm
  · intro t files rest documents d h
    exact ⟨distinct_of_loaded h, annotateFiles_loaded h rest d⟩

namespace Sample

/-- A module with an interface that has a setting. -/
def annotated : System :=
  ⟨[{ (default : Module) with
      name := "m"
      interfaces := [{ (default : Interface) with
        name := "Echo"
        tags := ⟨[("config", .object [("qml_name", .string "A"), ("zoned", .bool true)])]⟩ }] }]⟩

/-- A new value for a setting, a name that nothing has, and a value that is no mapping. -/
def notes : Members :=
  [("m.Echo", .object [("config", .object [("qml_name", .string "B")])]),
    ("m.Gone", .object []), ("m", .int 1)]

/-- A working directory with these annotations in a file. -/
def desk : Files.Tree where
  entries :=
    [(["work"], .directory),
      (["work", "notes.yaml"], .file (.text
        "m.Echo:\n  config:\n    qml_name: B\nm.Gone: \x7b\x7d\nm: 1\n"))]
  working := ["work"]

theorem loads_notes : Loads desk "notes.yaml" ("/work/notes.yaml", notes) where
  path := by decide +kernel
  exists_ := by decide +kernel
  members := by decide +kernel

end Sample

theorem annotate_entries_independent_notes :
    List.Forall₂ (Loads Sample.desk) ["notes.yaml"] [("/work/notes.yaml", Sample.notes)] ∧
      Sample.notes.Distinct ∧
      annotateFiles Sample.desk ["notes.yaml"] ⟨Sample.annotated, "m.yaml", default, []⟩ =
        (none, Draft.annotated ⟨Sample.annotated, "m.yaml", default, []⟩
          ("/work/notes.yaml", Sample.notes)) ∧
      SameOutcome (annotate Sample.notes.reverse "notes.yaml" Sample.annotated default)
        (annotate Sample.notes "notes.yaml" Sample.annotated default) ∧
      (annotate Sample.notes "notes.yaml" Sample.annotated default).merged = 1 ∧
      (annotate Sample.notes "notes.yaml" Sample.annotated default).reporter.warnings = 2 := by
  have hloads : List.Forall₂ (Loads Sample.desk) ["notes.yaml"]
      [("/work/notes.yaml", Sample.notes)] := .cons Sample.loads_notes .nil
  obtain ⟨hdistinct, hfiles⟩ := annotate_entries_independent.2 Sample.desk ["notes.yaml"] []
    [("/work/notes.yaml", Sample.notes)] ⟨Sample.annotated, "m.yaml", default, []⟩ hloads
  have hnotes : Sample.notes.Distinct := hdistinct _ List.mem_cons_self
  obtain ⟨heach, hperm⟩ := annotate_entries_independent.1 Sample.notes "notes.yaml"
    Sample.annotated default hnotes
  refine ⟨hloads, hnotes, hfiles, hperm _ (List.reverse_perm _), ?_, ?_⟩
  · rw [heach.merged]
    decide +kernel
  · rw [heach.warned]
    decide +kernel

end Prepare

end Stencil
