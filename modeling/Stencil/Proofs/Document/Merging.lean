import Stencil.Proofs.Document.Repetition
import Stencil.Proofs.Document.UnknownKeys
import Stencil.Proofs.Prepare.Annotations

/-!
# Documents of one module

What each part of a module is made of, if several documents describe it.  Nothing of
them is lost: declarations are put one after another, imports are collected, tags are
merged, and the documents have to agree on the version.
-/

namespace Stencil.Document

open Model (Module Tags Version)

/-! ## First appearances -/

/-- The elements of a list, each once, in the order in which they appear first. -/
structure FirstAppearances {α : Type} [DecidableEq α] (all once : List α) : Prop where
  same : ∀ x, x ∈ once ↔ x ∈ all
  inOrder : once.Pairwise fun x y => all.idxOf x < all.idxOf y

theorem firstAppearances_distinct {α : Type} [DecidableEq α] (xs : List α) :
    FirstAppearances xs (distinct xs) := by
  refine ⟨fun x => mem_distinct, ?_⟩
  induction xs using List.reverseRec with
  | nil => exact List.Pairwise.nil
  | append_singleton xs x ih =>
      -- an element added at the end does not move those that are there
      have hkept : ∀ y ∈ xs, (xs ++ [x]).idxOf y = xs.idxOf y :=
        fun y hy => List.idxOf_append_of_mem hy
      have hold : (distinct xs).Pairwise fun y z => (xs ++ [x]).idxOf y < (xs ++ [x]).idxOf z := by
        refine ih.imp_of_mem fun {y z} hy hz hyz => ?_
        rw [hkept y (mem_distinct.mp hy), hkept z (mem_distinct.mp hz)]
        exact hyz
      by_cases hx : x ∈ xs
      · rw [distinct_repeated hx]
        exact hold
      · rw [distinct_fresh hx, List.pairwise_append]
        refine ⟨hold, List.pairwise_singleton _ _, fun y hy z hz => ?_⟩
        have hy := mem_distinct.mp hy
        rw [List.mem_singleton.mp hz, hkept y hy, List.idxOf_append_of_notMem hx]
        have := List.idxOf_lt_length_of_mem hy
        omega

/-- The first text that is not empty, or the empty one if there is none. -/
inductive FirstNonEmpty (texts : List String) : String → Prop
  | none (h : ∀ t ∈ texts, t = "") : FirstNonEmpty texts ""
  | found {before after : List String} {t : String} (htexts : texts = before ++ t :: after)
      (hbefore : ∀ u ∈ before, u = "") (ht : t ≠ "") : FirstNonEmpty texts t

theorem firstNonEmpty_find? (texts : List String) :
    FirstNonEmpty texts ((texts.find? (!·.isEmpty)).getD "") := by
  cases h : texts.find? (!·.isEmpty) with
  | none =>
      refine .none fun t ht => ?_
      simpa using List.find?_eq_none.mp h t ht
  | some t =>
      obtain ⟨ht, before, after, htexts, hbefore⟩ := List.find?_eq_some_iff_append.mp h
      refine .found htexts (fun u hu => ?_) ?_
      · simpa using hbefore u hu
      · simpa using ht

/-! ## Tags -/

/-- The mappings among the tags of documents. -/
def tagMappings (docs : List Source) : List Members :=
  docs.filterMap fun s => s.document.tags.bind Json.members?

/-- Mappings that are merged one after another into another one. -/
inductive MergedAll : Members → List Members → Members → Prop
  | nil {old : Members} : MergedAll old [] old
  | cons {old new next result : Members} {rest : List Members} (h : Model.Merged old new next)
      (hrest : MergedAll next rest result) : MergedAll old (new :: rest) result

theorem moduleTags_eq (docs : List Source) (start : Tags) :
    (docs.map (·.document)).foldl (fun t d =>
        match d.tags with
        | some (.object ms) => t.merge ms
        | _ => t) start =
      (tagMappings docs).foldl (fun t ms => t.merge ms) start := by
  induction docs generalizing start with
  | nil => rfl
  | cons s rest ih =>
      rw [List.map_cons, List.foldl_cons, ih, tagMappings, tagMappings, List.filterMap_cons]
      cases htags : s.document.tags with
      | none => rfl
      | some v => cases v <;> rfl

theorem mergedAll_foldl {mappings : List Members} (h : ∀ ms ∈ mappings, ms.Distinct) :
    ∀ start : Tags, MergedAll start.members mappings
      (mappings.foldl (fun t ms => t.merge ms) start).members := by
  induction mappings with
  | nil => exact fun _ => .nil
  | cons ms rest ih =>
      intro start
      obtain ⟨hms, hrest⟩ := List.forall_mem_cons.mp h
      exact .cons (Model.merged_mergeMembers hms start.members) (ih hrest (start.merge ms))

theorem distinct_of_tags? {r : Yaml.Record} {ms : Members}
    (h : tags? r = some (some (.object ms))) : ms.Distinct := by
  unfold tags? Yaml.Record.optional? at h
  split at h
  · unfold Yaml.Node.orNothing? at h
    split at h
    · cases h
    · cases h
    · obtain ⟨v, hv, heq⟩ := Option.map_eq_some_iff.mp h
      cases heq
      exact distinct_json? _ hv
  · cases h

theorem distinct_tags_of_ofNode? {n : Yaml.Node} {d : Document} {ms : Members}
    (h : ofNode? n = some d) (htags : d.tags = some (.object ms)) : ms.Distinct := by
  obtain ⟨r, -, -, -, -, -, hread, -⟩ := document_eq_some.mp h
  exact distinct_of_tags? (hread.trans (congrArg some htags))

/-- The tags of documents that were read have distinct keys. -/
theorem distinct_tagMappings {t : Files.Tree} {paths : List String} {docs : List Source}
    (h : paths.mapM (readSource t) = .ok docs) : ∀ ms ∈ tagMappings docs, ms.Distinct := by
  intro ms hms
  obtain ⟨s, hs, htags⟩ := List.mem_filterMap.mp hms
  obtain ⟨path, -, hread⟩ := exists_of_mem_values h hs
  obtain ⟨v, hv, hobject⟩ := Option.bind_eq_some_iff.mp htags
  cases v with
  | object inner =>
      cases hobject
      obtain ⟨origin, -, hdocument⟩ := bind_eq_ok.mp hread
      cases htext : ofText? origin.text with
      | none => simp [htext] at hdocument
      | some d =>
          rw [htext] at hdocument
          cases hdocument
          unfold ofText? at htext
          cases hnode : Yaml.Node.ofText origin.text with
          | error e => simp [hnode] at htext
          | ok n =>
              rw [hnode] at htext
              exact distinct_tags_of_ofNode? htext hv
  | _ => cases hobject

/-! ## Versions -/

/-- A document declares a version. -/
def Source.Declares (s : Source) (v : Version) : Prop := s.version? = .ok (some v)

/-- The version that documents agree on, or the first one of all if none of them declares any. -/
inductive AgreedVersion (docs : List Source) : Version → Prop
  | undeclared (h : ∀ s ∈ docs, s.version? = .ok none) : AgreedVersion docs ⟨1, 0⟩
  | declared {v : Version} (hsome : ∃ s ∈ docs, s.Declares v)
      (h : ∀ s ∈ docs, s.version? = .ok none ∨ s.Declares v) : AgreedVersion docs v

/-- Two documents, one before the other, declare different versions. -/
def Disagree (docs : List Source) (first second : Version) : Prop :=
  first ≠ second ∧ ∃ before between after a b,
    docs = before ++ a :: (between ++ b :: after) ∧ a.Declares first ∧ b.Declares second

variable {name : String}

/-- A version that is found was there before or is declared by one of the documents. -/
theorem declares_of_versionOf {found : Option Version} {v : Version} {docs : List Source}
    (h : versionOf name found docs = .ok (some v)) :
    found = some v ∨ ∃ s ∈ docs, s.Declares v := by
  induction docs generalizing found with
  | nil => exact .inl (Except.ok.inj h)
  | cons s rest ih =>
      rw [versionOf_cons] at h
      obtain ⟨next, hnext, hrest⟩ := bind_eq_ok.mp h
      rcases ih hrest with rfl | ⟨a, ha, hdeclares⟩
      · rcases (version_of_versionWith hnext).2 with hnone | hdeclares
        · -- a document without a version leaves what was found
          rw [versionWith_same name (.inl hnone)] at hnext
          exact .inl (Except.ok.inj hnext)
        · exact .inr ⟨s, List.mem_cons_self, hdeclares⟩
      · exact .inr ⟨a, List.mem_cons_of_mem s ha, hdeclares⟩

theorem agreedVersion_of_versionOf {version : Option Version} {docs : List Source}
    (h : versionOf name none docs = .ok version) : AgreedVersion docs (version.getD ⟨1, 0⟩) := by
  have hall := (version_of_versionOf h).2
  cases version with
  | none => exact .undeclared fun s hs => (hall s hs).elim id id
  | some v =>
      rcases declares_of_versionOf h with hfound | hsome
      · cases hfound
      · exact .declared hsome hall

/-- A conflict is that of a document with the version that was found before. -/
theorem conflict_of_versionWith {found : Option Version} {s : Source} {n : String}
    {first second : Version}
    (h : versionWith name found s = .error (.versionConflict n first second)) :
    n = name ∧ found = some first ∧ s.Declares second ∧ first ≠ second := by
  unfold versionWith at h
  cases hs : s.version? with
  | error e =>
      rw [hs] at h
      cases h
      -- a text that is no version is a flaw of its document
      unfold Source.version? at hs
      split at hs
      · cases hs
      · split at hs <;> cases hs
  | ok declared =>
      rw [hs] at h
      cases declared with
      | none => cases h
      | some v =>
          cases found with
          | none => cases h
          | some there =>
              by_cases heq : there = v
              · simp only [if_pos heq] at h
                cases h
              · simp only [if_neg heq] at h
                cases h
                exact ⟨rfl, rfl, hs, heq⟩

theorem conflict_of_versionOf {found : Option Version} {docs : List Source} {n : String}
    {first second : Version}
    (h : versionOf name found docs = .error (.versionConflict n first second)) :
    n = name ∧ first ≠ second ∧ ∃ before b after, docs = before ++ b :: after ∧
      b.Declares second ∧ (found = some first ∨ ∃ a ∈ before, a.Declares first) := by
  induction docs generalizing found with
  | nil => cases h
  | cons s rest ih =>
      rw [versionOf_cons] at h
      cases hnext : versionWith name found s with
      | error e =>
          rw [hnext] at h
          cases h
          obtain ⟨hname, hfound, hdeclares, hne⟩ := conflict_of_versionWith hnext
          exact ⟨hname, hne, [], s, rest, rfl, hdeclares, .inl hfound⟩
      | ok next =>
          rw [hnext] at h
          obtain ⟨hname, hne, before, b, after, hrest, hdeclares, hfirst⟩ := ih h
          refine ⟨hname, hne, s :: before, b, after, congrArg (s :: ·) hrest, hdeclares, ?_⟩
          rcases hfirst with rfl | ⟨a, ha, hfirst⟩
          · -- the first of the two was found before this document or is declared by it
            have hone : versionOf name found [s] = .ok (some first) := by
              rw [versionOf_cons, hnext]
              rfl
            rcases declares_of_versionOf hone with hfound | ⟨a, ha, hfirst⟩
            · exact .inl hfound
            · exact .inr ⟨a, List.mem_cons.mpr (.inl (List.mem_singleton.mp ha)), hfirst⟩
          · exact .inr ⟨a, List.mem_cons_of_mem s ha, hfirst⟩

theorem disagree_of_versionOf {docs : List Source} {n : String} {first second : Version}
    (h : versionOf name none docs = .error (.versionConflict n first second)) :
    n = name ∧ Disagree docs first second := by
  obtain ⟨hname, hne, before, b, after, rfl, hsecond, hnone | ⟨a, ha, hfirst⟩⟩ :=
    conflict_of_versionOf h
  · cases hnone
  · obtain ⟨front, between, rfl⟩ := List.append_of_mem ha
    refine ⟨hname, hne, front, between, after, a, b, ?_, hfirst, hsecond⟩
    rw [List.append_assoc, List.cons_append]

/-! ## Errors of modules -/

/-- Declarations are refused for their types only. -/
theorem contents_ne_conflict {scope : Scope} {s : Source} {n : String} {first second : Version} :
    contents scope s ≠ .error (.versionConflict n first second) := by
  intro h
  have hfails : failure? (contents scope s) = some (.versionConflict n first second) :=
    failure?_eq_some.mpr h
  rw [failure?_contents] at hfails
  obtain ⟨spelling, -, htype⟩ := List.exists_of_findSome?_eq_some hfails
  rw [type_eq, failure?_mapError] at htype
  obtain ⟨fault, -, hfault⟩ := Option.map_eq_some_iff.mp htype
  cases fault <;> cases hfault

theorem disagree_of_assemble {table : Symbols} {docs : List Source} {n : String}
    {first second : Version}
    (h : assemble table name docs = .error (.versionConflict n first second)) :
    n = name ∧ Disagree docs first second := by
  rw [assemble_eq] at h
  cases hversion : versionOf name none docs with
  | error e =>
      rw [hversion] at h
      cases h
      exact disagree_of_versionOf hversion
  | ok version =>
      rw [hversion] at h
      cases hparts : docs.mapM (contents (scopeOf table name docs)) with
      | ok parts =>
          simp only [hparts, bind, Except.bind] at h
          cases h
      | error e =>
          simp only [hparts, bind, Except.bind] at h
          cases h
          have hfails := failure?_eq_some.mpr hparts
          rw [failure?_mapM] at hfails
          obtain ⟨s, -, hs⟩ := List.exists_of_findSome?_eq_some hfails
          exact absurd (failure?_eq_some.mp hs) contents_ne_conflict

theorem disagree_of_build {sources : List Source} {first second : Version}
    (h : build sources = .error (.versionConflict name first second)) :
    Disagree (group sources name) first second := by
  have hfails := failure?_eq_some.mpr h
  rw [build_eq] at hfails
  have hmodules := (failure?_bind_pure _ Model.System.mk).symm.trans hfails
  rw [failure?_mapM] at hmodules
  obtain ⟨other, -, hother⟩ := List.exists_of_findSome?_eq_some hmodules
  obtain ⟨rfl, hdisagree⟩ := disagree_of_assemble (failure?_eq_some.mp hother)
  exact hdisagree

/-! ## Modules -/

/-- A list that has a part for each document, in order: what its entries are read as in the view of
their module. -/
def ReadInOrder {α β : Type} (scope : Scope) (docs : List Source) (written : Document → List α)
    (read : Reading → α → Except Error β) (all : List β) : Prop :=
  ∃ parts, parts.flatten = all ∧
    List.Forall₂ (fun s part => List.Forall₂ (fun w x => read ⟨scope, s.origin⟩ w = .ok x)
      (written s.document) part) docs parts

theorem readInOrder_of_contents {α β : Type} {scope : Scope} {docs : List Source}
    {parts : List Contents} {written : Document → List α} {read : Reading → α → Except Error β}
    {part : Contents → List β} (hparts : docs.mapM (contents scope) = .ok parts)
    (h : ∀ s c, contents scope s = .ok c →
      (written s.document).mapM (read ⟨scope, s.origin⟩) = .ok (part c)) :
    ReadInOrder scope docs written read (parts.flatMap part) := by
  refine ⟨parts.map part, (List.flatMap_def).symm, List.forall₂_map_right_iff.mpr ?_⟩
  exact (mapM_eq_ok_iff.mp hparts).imp fun s c hc => mapM_eq_ok_iff.mp (h s c hc)

/-- What a module is that some documents describe, in the order in which they were loaded.  Mappings
have distinct keys; for tags that were read this is `distinct_tagMappings`. -/
structure MergedFrom (table : Symbols) (docs : List Source) (m : Module) : Prop where
  interfaces : ReadInOrder ⟨table, m.name, m.imports⟩ docs (·.interfaces) Reading.interface
    m.interfaces
  structs : ReadInOrder ⟨table, m.name, m.imports⟩ docs (·.structs) Reading.struct m.structs
  enums : m.enums = docs.flatMap fun s => s.document.enums.map Enum.resolve
  imports : FirstAppearances (docs.flatMap (·.document.imports)) m.imports
  comment : FirstNonEmpty (docs.map (·.document.comment)) m.comment
  tags : (∀ ms ∈ tagMappings docs, ms.Distinct) → MergedAll [] (tagMappings docs) m.tags.members
  source : ∃ first rest, docs = first :: rest ∧ m.source = some first.origin.file
  version : AgreedVersion docs m.version

theorem mergedFrom_of_assemble {table : Symbols} {docs : List Source} {m : Module}
    (hdocs : docs ≠ []) (h : assemble table name docs = .ok m) : MergedFrom table docs m := by
  obtain ⟨version, parts, hversion, hparts, rfl⟩ := assemble_eq_ok.mp h
  constructor
  case interfaces =>
    exact readInOrder_of_contents hparts fun s c hc => (contents_eq_ok.mp hc).1
  case structs =>
    exact readInOrder_of_contents hparts fun s c hc => (contents_eq_ok.mp hc).2.1
  case enums =>
    exact flatMap_of_mapM (fun s c hc => (contents_eq_ok.mp hc).2.2.symm) hparts
  case imports =>
    rw [← List.flatMap_map]
    exact firstAppearances_distinct _
  case comment =>
    change FirstNonEmpty (docs.map ((·.comment) ∘ (·.document))) _
    rw [← List.map_map]
    exact firstNonEmpty_find? _
  case tags =>
    intro hdistinct
    have htags := mergedAll_foldl hdistinct .empty
    rwa [← moduleTags_eq] at htags
  case source =>
    cases docs with
    | nil => exact absurd rfl hdocs
    | cons first rest => exact ⟨first, rest, rfl, rfl⟩
  case version => exact agreedVersion_of_versionOf hversion

/-- How the documents of a system are merged: the modules stand in the order of their first
documents, each is made of all its documents, and these have to agree on its version.  The tags of
documents that are loaded are merged without any condition. -/
structure Merging (sources : List Source) : Prop where
  order : ∀ system, build sources = .ok system →
    FirstAppearances (sources.map (·.document.module)) system.names
  merged : ∀ system, build sources = .ok system → ∀ m ∈ system.modules,
    MergedFrom (symbols (sources.map (·.document))) (group sources m.name) m
  agreed : ∀ system, build sources = .ok system → ∀ name first second,
    ¬ Disagree (group sources name) first second
  conflict : ∀ name first second,
    build sources = .error (.versionConflict name first second) →
      Disagree (group sources name) first second
  loaded : ∀ (t : Files.Tree) (paths : List String), paths.mapM (readSource t) = .ok sources →
    ∀ system, build sources = .ok system → ∀ m ∈ system.modules,
      MergedAll [] (tagMappings (group sources m.name)) m.tags.members

theorem not_disagree_of_agreed {docs : List Source} {v first second : Version}
    (h : AgreedVersion docs v) : ¬ Disagree docs first second := by
  rintro ⟨hne, before, between, after, a, b, rfl, ha, hb⟩
  have hmemA : a ∈ before ++ a :: (between ++ b :: after) := by simp
  have hmemB : b ∈ before ++ a :: (between ++ b :: after) := by simp
  cases h with
  | undeclared hnone => exact nomatch ha.symm.trans (hnone a hmemA)
  | declared _ hall =>
      have hsame : ∀ s ∈ before ++ a :: (between ++ b :: after), ∀ w, s.Declares w → w = v := by
        intro s hs w hw
        rcases hall s hs with hnone | hv
        · exact nomatch hw.symm.trans hnone
        · exact Option.some.inj (Except.ok.inj (hw.symm.trans hv))
      exact hne ((hsame a hmemA first ha).trans (hsame b hmemB second hb).symm)

theorem mergedFrom_of_build {sources : List Source} {system : Model.System} {m : Module}
    (h : build sources = .ok system) (hm : m ∈ system.modules) :
    MergedFrom (symbols (sources.map (·.document))) (group sources m.name) m := by
  refine mergedFrom_of_assemble ?_ (assemble_of_mem_modules h hm)
  -- a module has the name of one of the documents
  have hname : m.name ∈ moduleNames sources := names_of_build h ▸ List.mem_map_of_mem hm
  obtain ⟨s, hs, hsname⟩ := List.mem_map.mp (mem_distinct.mp hname)
  exact List.ne_nil_of_mem (List.mem_filter.mpr ⟨hs, decide_eq_true hsname⟩)

/-- Documents of one module are merged without loss. -/
theorem documents_merged (sources : List Source) : Merging sources where
  order system h := by
    rw [names_of_build h]
    exact firstAppearances_distinct _
  merged system h m hm := mergedFrom_of_build h hm
  agreed system h name first second hdisagree := by
    obtain ⟨-, before, between, after, a, b, hgroup, -⟩ := id hdisagree
    have ha : a ∈ group sources name := by simp [hgroup]
    obtain ⟨hmem, hname⟩ := List.mem_filter.mp ha
    obtain ⟨m, hm, hassemble⟩ := exists_of_mem_steps (build_eq_ok.mp h)
      (mem_distinct.mpr (List.mem_map_of_mem (f := (·.document.module)) hmem))
    rw [of_decide_eq_true hname] at hassemble
    have hmerged := mergedFrom_of_assemble (List.ne_nil_of_mem ha) hassemble
    exact not_disagree_of_agreed hmerged.version hdisagree
  conflict name first second h := disagree_of_build h
  loaded t paths hread system h m hm := by
    refine (mergedFrom_of_build h hm).tags fun ms hms => distinct_tagMappings hread ms ?_
    -- the documents of one module are some of those that were read
    exact (List.filter_sublist.filterMap _).subset hms

namespace Sample

/-- What a document sets. -/
def frontTags : Members := [("config", .object [("port", .int 1)])]

/-- What another one sets. -/
def backTags : Members := [("config", .object [("host", .string "h")])]

/-- A document of a module that declares its version. -/
def depotFront : Source where
  origin := ⟨"front.yaml",
    "module: depot\nversion: '1.2'\nimports: [base]\ntags: \x7bconfig: \x7bport: 1\x7d\x7d\n"⟩
  document := { (default : Document) with
    module := "depot", version := some "1.2", imports := ["base"], tags := some (.object frontTags) }

/-- Another document of the module, with a comment. -/
def depotBack : Source where
  origin := ⟨"back.yaml",
    "module: depot\nimports: [base, more]\ncomment: stock\ntags: \x7bconfig: \x7bhost: h\x7d\x7d\n"⟩
  document := { (default : Document) with
    module := "depot", imports := ["base", "more"], comment := "stock",
    tags := some (.object backTags) }

/-- The files of both. -/
def depotFiles : Files.Tree where
  entries := [(["front.yaml"], .file (.text depotFront.origin.text)),
    (["back.yaml"], .file (.text depotBack.origin.text))]
  working := []

/-- The module that they describe. -/
def depot : Module where
  name := "depot"
  version := ⟨1, 2⟩
  imports := ["base", "more"]
  comment := "stock"
  tags := ⟨[("config", .object [("port", .int 1), ("host", .string "h")])]⟩
  source := some "front.yaml"

end Sample

theorem documents_merged_depot :
    let sources := [Sample.depotFront, Sample.depotBack]
    ["front.yaml", "back.yaml"].mapM (readSource Sample.depotFiles) = .ok sources ∧
      build sources = .ok ⟨[Sample.depot]⟩ ∧
      MergedFrom (symbols (sources.map (·.document))) sources Sample.depot ∧
      MergedAll [] [Sample.frontTags, Sample.backTags] Sample.depot.tags.members := by
  intro sources
  have hread : ["front.yaml", "back.yaml"].mapM (readSource Sample.depotFiles) = .ok sources := by
    decide +kernel
  have hbuild : build sources = .ok ⟨[Sample.depot]⟩ := by decide +kernel
  have hmerging := documents_merged sources
  exact ⟨hread, hbuild, hmerging.merged _ hbuild _ List.mem_cons_self,
    hmerging.loaded _ _ hread _ hbuild _ List.mem_cons_self⟩

end Stencil.Document
