import Stencil.Document.Load
import Stencil.Proofs.Document.Assembly
import Stencil.Proofs.Document.Refusal

/-!
# Documents that are loaded more than once

A document may be reached by several paths of a request.  Repetitions change neither
whether and why documents are refused nor the versions, imports and comments of
modules.  The module of a repeated document, however, lists its declarations again,
and the annotations of the document are merged into those of the module again.
-/

namespace Stencil.Document

/-! ## What repetitions leave alone -/

/-- The version of a module after one more of its documents. -/
def versionWith (name : String) (found : Option Model.Version) (s : Source) :
    Except Error (Option Model.Version) :=
  match s.version?, found with
  | .error e, _ => .error e
  | .ok none, _ => .ok found
  | .ok (some v), none => .ok (some v)
  | .ok (some v), some first =>
      if first = v then .ok found else .error (.versionConflict name first v)

theorem versionOf_cons (name : String) (found : Option Model.Version) (s : Source)
    (rest : List Source) :
    versionOf name found (s :: rest) =
      versionWith name found s >>= fun version => versionOf name version rest := by
  conv_lhs => unfold versionOf
  unfold versionWith
  cases s.version? with
  | error e => rfl
  | ok declared =>
      cases declared with
      | none => cases found <;> rfl
      | some v =>
          cases found with
          | none => rfl
          | some first =>
              by_cases heq : first = v
              · simp only [if_pos heq]
                rfl
              · simp only [if_neg heq]
                rfl

theorem versionOf_append (name : String) (found : Option Model.Version) (xs ys : List Source) :
    versionOf name found (xs ++ ys) =
      versionOf name found xs >>= fun version => versionOf name version ys := by
  induction xs generalizing found with
  | nil => rfl
  | cons x rest ih =>
      rw [List.cons_append, versionOf_cons, versionOf_cons]
      cases versionWith name found x with
      | error e => rfl
      | ok version => exact ih version

/-- A document declares no version or the one of its module, which never changes. -/
theorem version_of_versionWith {name : String} {found version : Option Model.Version} {s : Source}
    (h : versionWith name found s = .ok version) :
    (found = none ∨ version = found) ∧ (s.version? = .ok none ∨ s.version? = .ok version) := by
  unfold versionWith at h
  cases hs : s.version? with
  | error e =>
      rw [hs] at h
      cases h
  | ok declared =>
      rw [hs] at h
      cases declared with
      | none =>
          cases h
          exact ⟨Or.inr rfl, Or.inl rfl⟩
      | some v =>
          cases found with
          | none =>
              cases h
              exact ⟨Or.inl rfl, Or.inr rfl⟩
          | some first =>
              by_cases heq : first = v
              · simp only [if_pos heq] at h
                cases h
                exact ⟨Or.inr rfl, Or.inr (by rw [heq])⟩
              · simp only [if_neg heq] at h
                cases h

theorem version_of_versionOf {name : String} {found version : Option Model.Version}
    {xs : List Source} (h : versionOf name found xs = .ok version) :
    (found = none ∨ version = found) ∧
      ∀ x ∈ xs, x.version? = .ok none ∨ x.version? = .ok version := by
  induction xs generalizing found with
  | nil =>
      cases h
      exact ⟨Or.inr rfl, fun x hx => nomatch hx⟩
  | cons x rest ih =>
      rw [versionOf_cons] at h
      obtain ⟨next, hnext, hrest⟩ := bind_eq_ok.mp h
      obtain ⟨hfound, hx⟩ := version_of_versionWith hnext
      obtain ⟨hkept, hall⟩ := ih hrest
      constructor
      · rcases hfound with hnone | rfl
        · exact Or.inl hnone
        · exact hkept
      · intro y hy
        rcases List.mem_cons.mp hy with rfl | hy
        · rcases hx with hnone | hsome
          · exact Or.inl hnone
          · rcases hkept with rfl | rfl
            · exact Or.inl hsome
            · exact Or.inr hsome
        · exact hall y hy

theorem versionWith_same (name : String) {version : Option Model.Version} {s : Source}
    (h : s.version? = .ok none ∨ s.version? = .ok version) :
    versionWith name version s = .ok version := by
  unfold versionWith
  rcases h with h | h
  · rw [h]
  · rw [h]
    cases version with
    | none => rfl
    | some v => exact if_pos rfl

theorem versionOf_distinct (name : String) (xs : List Source) :
    versionOf name none (distinct xs) = versionOf name none xs := by
  refine apply_distinct (versionOf name none) ?_ ?_ xs
  · intro xs ys x h
    rw [versionOf_append, versionOf_append, h]
  · intro xs x hx
    rw [versionOf_append]
    cases h : versionOf name none xs with
    | error e => rfl
    | ok version =>
        change versionOf name version [x] = .ok version
        rw [versionOf_cons, versionWith_same name ((version_of_versionOf h).2 x hx)]
        rfl

theorem group_distinct (sources : List Source) (name : String) :
    group (distinct sources) name = distinct (group sources name) :=
  filter_distinct _ sources

theorem moduleNames_distinct (sources : List Source) :
    moduleNames (distinct sources) = moduleNames sources :=
  distinct_map_distinct _ sources

theorem importsOf_distinct (sources : List Source) :
    importsOf (distinct sources) = importsOf sources := by
  unfold importsOf
  rw [List.flatMap_map, List.flatMap_map]
  exact distinct_flatMap_distinct _ sources

theorem scopeOf_distinct (table : Symbols) (name : String) (sources : List Source) :
    scopeOf table name (distinct sources) = scopeOf table name sources := by
  unfold scopeOf
  rw [importsOf_distinct]

theorem comment_distinct (sources : List Source) :
    (((distinct sources).map (·.document)).map (·.comment)).find? (!·.isEmpty) =
      ((sources.map (·.document)).map (·.comment)).find? (!·.isEmpty) := by
  simp only [List.find?_map, find?_distinct]

/-- A name is known exactly if a document of the module declares it. -/
theorem isSome_symbols_iff {docs : List Document} {module name : String} :
    (symbols docs module name).isSome ↔
      ∃ doc ∈ docs, doc.module = module ∧ ∃ d, (name, d) ∈ declarations doc := by
  constructor
  · intro h
    obtain ⟨d, hd⟩ := Option.isSome_iff_exists.mp h
    obtain ⟨doc, hdoc, hmodule, hdeclared⟩ := exists_declaration_of_symbols hd
    exact ⟨doc, hdoc, hmodule, d, hdeclared⟩
  · rintro ⟨doc, hdoc, hmodule, d, hdeclared⟩
    refine List.lookup_isSome_iff.mpr ⟨(name, d), List.mem_reverse.mpr ?_, beq_self_eq_true name⟩
    exact List.mem_flatMap.mpr
      ⟨doc, List.mem_filter.mpr ⟨hdoc, decide_eq_true hmodule⟩, hdeclared⟩

theorem sameNames_distinct (sources : List Source) :
    (symbols (sources.map (·.document))).SameNames
      (symbols ((distinct sources).map (·.document))) := by
  intro module name
  rw [Bool.eq_iff_iff, isSome_symbols_iff, isSome_symbols_iff]
  simp only [List.mem_map, mem_distinct]

/-! ## Refusals -/

theorem failure?_assemble {a b : Symbols} (h : a.SameNames b) (name : String)
    (sources : List Source) :
    failure? (assemble b name (distinct sources)) = failure? (assemble a name sources) := by
  rw [assemble_eq, assemble_eq, versionOf_distinct, scopeOf_distinct]
  refine failure?_bind_congr rfl ?_
  intro _ _ _ _
  refine failure?_bind_congr ?_ fun _ _ _ _ => rfl
  rw [failure?_mapM_distinct]
  show failure? (sources.mapM (contents ((scopeOf a name sources).withSymbols b))) = _
  exact failure?_mapM_congr fun s _ => failure?_contents_withSymbols h s

/-- Documents are refused with the same error, however often each of them is loaded. -/
theorem failure?_build_distinct (sources : List Source) :
    failure? (build (distinct sources)) = failure? (build sources) := by
  rw [build_eq, build_eq, moduleNames_distinct]
  refine failure?_bind_congr (failure?_mapM_congr ?_) fun _ _ _ _ => rfl
  intro name _
  rw [group_distinct]
  exact failure?_assemble (sameNames_distinct sources) name (group sources name)

/-! ## Repetitions that are seen -/

/-- Repetitions are not seen: what is loaded again declares nothing, and no module gets other
annotations from it. -/
structure Unseen (sources : List Source) : Prop where
  declarations : ∀ s, 1 < sources.count s → declarations s.document = []
  tags : ∀ name ∈ moduleNames sources,
    moduleTags ((distinct (group sources name)).map (·.document)) =
      moduleTags ((group sources name).map (·.document))

theorem count_of_group {sources : List Source} {name : String} {s : Source}
    (h : 1 < (group sources name).count s) : 1 < sources.count s :=
  Nat.lt_of_lt_of_le h (List.filter_sublist.count_le s)

theorem symbols_distinct {sources : List Source}
    (h : ∀ s, 1 < sources.count s → declarations s.document = []) :
    symbols ((distinct sources).map (·.document)) = symbols (sources.map (·.document)) := by
  funext module name
  rw [symbols_eq, symbols_eq, group_distinct]
  rw [flatMap_distinct fun s hs => h s (count_of_group hs)]

/-- A document without declarations gives a module no contents. -/
theorem contents_of_declarations {scope : Scope} {s : Source} {c : Contents}
    (h : declarations s.document = []) (hc : contents scope s = .ok c) :
    c.interfaces = [] ∧ c.structs = [] ∧ c.enums = [] := by
  unfold declarations at h
  simp only [List.append_eq_nil_iff, List.map_eq_nil_iff] at h
  obtain ⟨⟨henums, hstructs⟩, hinterfaces⟩ := h
  obtain ⟨hi, hs, he⟩ := contents_eq_ok.mp hc
  rw [hinterfaces] at hi
  rw [hstructs] at hs
  rw [henums] at he
  exact ⟨(Except.ok.inj hi).symm, (Except.ok.inj hs).symm, he.symm⟩

/-- A module is the same with and without repetitions if its declarations and its annotations
are. -/
theorem moduleOf_distinct {name : String} {sources : List Source} {version : Option Model.Version}
    {once parts : List Contents}
    (hinterfaces : once.flatMap (·.interfaces) = parts.flatMap (·.interfaces))
    (hstructs : once.flatMap (·.structs) = parts.flatMap (·.structs))
    (henums : once.flatMap (·.enums) = parts.flatMap (·.enums))
    (htags : moduleTags ((distinct sources).map (·.document)) =
      moduleTags (sources.map (·.document))) :
    moduleOf name (distinct sources) version once = moduleOf name sources version parts := by
  unfold moduleOf
  rw [importsOf_distinct, comment_distinct, head?_distinct, hinterfaces, hstructs, henums, htags]

theorem assemble_distinct (table : Symbols) (name : String) {sources : List Source}
    (hnil : ∀ s, 1 < sources.count s → declarations s.document = [])
    (htags : moduleTags ((distinct sources).map (·.document)) =
      moduleTags (sources.map (·.document))) :
    assemble table name (distinct sources) = assemble table name sources := by
  rw [assemble_eq, assemble_eq, versionOf_distinct, scopeOf_distinct]
  cases versionOf name none sources with
  | error e => rfl
  | ok version =>
      have hfails := failure?_mapM_distinct (contents (scopeOf table name sources)) sources
      cases hall : sources.mapM (contents (scopeOf table name sources)) with
      | error e =>
          rw [hall] at hfails
          rw [failure?_eq_some.mp hfails]
          rfl
      | ok parts =>
          cases honce : (distinct sources).mapM (contents (scopeOf table name sources)) with
          | error e =>
              rw [hall, honce] at hfails
              cases hfails
          | ok once =>
              -- the scope is that of all documents, so only what the repetitions declare matters
              have hempty : ∀ s c, 1 < sources.count s →
                  contents (scopeOf table name sources) s = .ok c →
                    c.interfaces = [] ∧ c.structs = [] ∧ c.enums = [] :=
                fun s c hs hc => contents_of_declarations (hnil s hs) hc
              refine congrArg Except.ok (moduleOf_distinct ?_ ?_ ?_ htags)
              · exact flatMap_values_distinct hall honce fun s c hs hc => (hempty s c hs hc).1
              · exact flatMap_values_distinct hall honce fun s c hs hc => (hempty s c hs hc).2.1
              · exact flatMap_values_distinct hall honce fun s c hs hc => (hempty s c hs hc).2.2

theorem build_distinct {sources : List Source} (h : Unseen sources) :
    build (distinct sources) = build sources := by
  rw [build_eq, build_eq, symbols_distinct h.declarations, moduleNames_distinct]
  have hmodules : (moduleNames sources).mapM (fun name =>
        assemble (symbols (sources.map (·.document))) name (group (distinct sources) name)) =
      (moduleNames sources).mapM (fun name =>
        assemble (symbols (sources.map (·.document))) name (group sources name)) := by
    refine mapM_congr ?_
    intro name hname
    rw [group_distinct]
    exact assemble_distinct _ name (fun s hs => h.declarations s (count_of_group hs))
      (h.tags name hname)
  rw [hmodules]

/-- If a module lists the same declarations with and without repetitions, these have none. -/
theorem declarations_of_lists {m : Model.Module} {sources : List Source}
    (hall : Lists m (sources.map (·.document)))
    (honce : Lists m ((distinct sources).map (·.document))) {s : Source}
    (hs : 1 < sources.count s) : declarations s.document = [] := by
  have hinterfaces := congrArg List.length (honce.interfaces.symm.trans hall.interfaces)
  have hstructs := congrArg List.length (honce.structs.symm.trans hall.structs)
  have henums := congrArg List.length (honce.enums.symm.trans hall.enums)
  rw [List.flatMap_map, List.flatMap_map] at hinterfaces hstructs henums
  have hi := List.map_eq_nil_iff.mp (part_eq_nil_of_length hinterfaces hs)
  have hst := List.map_eq_nil_iff.mp (part_eq_nil_of_length hstructs hs)
  have he := List.map_eq_nil_iff.mp (part_eq_nil_of_length henums hs)
  unfold declarations
  rw [hi, hst, he]
  rfl

theorem tags_of_assemble {table : Symbols} {name : String} {sources : List Source}
    {m : Model.Module} (h : assemble table name sources = .ok m) :
    m.tags = moduleTags (sources.map (·.document)) := by
  obtain ⟨version, parts, -, -, rfl⟩ := assemble_eq_ok.mp h
  rfl

/-- If documents give the same system with and without repetitions, these are not seen. -/
theorem unseen_of_build {sources : List Source} {system : Model.System}
    (hall : build sources = .ok system) (honce : build (distinct sources) = .ok system) :
    Unseen sources := by
  -- one module is put together from the documents of its name, once with repetitions and once
  -- without; the tables of names may differ
  have hmodule : ∀ s ∈ sources, ∃ m table table',
      assemble table s.document.module (group sources s.document.module) = .ok m ∧
      assemble table' s.document.module (distinct (group sources s.document.module)) = .ok m := by
    intro s hs
    obtain ⟨m, hm⟩ := exists_module_of_document hall hs
    obtain ⟨hmem, hname⟩ := mem_of_module? hm
    have hassembled := assemble_of_mem_modules hall hmem
    have hassembled' := assemble_of_mem_modules honce hmem
    rw [hname] at hassembled
    rw [hname, group_distinct] at hassembled'
    exact ⟨m, _, _, hassembled, hassembled'⟩
  constructor
  · intro s hs
    have hmem : s ∈ sources := List.count_pos_iff.mp (by omega)
    obtain ⟨m, table, table', hassembled, hassembled'⟩ := hmodule s hmem
    have hcount : (group sources s.document.module).count s = sources.count s :=
      List.count_filter (by simp)
    exact declarations_of_lists (lists_of_assemble hassembled) (lists_of_assemble hassembled')
      (hcount ▸ hs)
  · intro name hname
    obtain ⟨s, hs, rfl⟩ := List.mem_map.mp (mem_distinct.mp hname)
    obtain ⟨m, table, table', hassembled, hassembled'⟩ := hmodule s hs
    rw [← tags_of_assemble hassembled, ← tags_of_assemble hassembled']

/-! ## Loading -/

theorem file_of_readSource {t : Files.Tree} {path : String} {s : Source}
    (h : readSource t path = .ok s) : s.origin.file = path := by
  obtain ⟨origin, horigin, hs⟩ := bind_eq_ok.mp h
  have hfile : origin.file = path := by
    unfold read at horigin
    split at horigin
    · cases horigin
      rfl
    · cases horigin
  cases hdocument : ofText? origin.text with
  | none =>
      rw [hdocument] at hs
      cases hs
  | some document =>
      rw [hdocument] at hs
      cases hs
      exact hfile

/-- Different paths give different sources, so repeated paths are repeated sources. -/
theorem load_distinct (t : Files.Tree) (paths : List String) :
    load t (distinct paths) =
      paths.mapM (readSource t) >>= fun sources => build (distinct sources) := by
  unfold load
  rw [mapM_distinct]
  · cases paths.mapM (readSource t) <;> rfl
  · intro x y s hx hy
    rw [← file_of_readSource hx, file_of_readSource hy]

/-- Loading documents repeatedly and once gives the same system or the same error, except where
repetitions are seen in a system that is built. -/
theorem load_eq_load_distinct_iff (t : Files.Tree) (paths : List String) :
    load t paths = load t (distinct paths) ↔
      ∀ sources system, paths.mapM (readSource t) = .ok sources →
        build sources = .ok system → Unseen sources := by
  rw [load_distinct]
  unfold load
  cases paths.mapM (readSource t) with
  | error e =>
      constructor
      · intro _ sources system hread
        cases hread
      · intro _
        rfl
  | ok sources =>
      change build sources = build (distinct sources) ↔ _
      constructor
      · intro hsame read system hread hbuild
        cases hread
        exact unseen_of_build hbuild (hsame ▸ hbuild)
      · intro hunseen
        cases hbuild : build sources with
        | ok system =>
            rw [build_distinct (hunseen sources system rfl hbuild), hbuild]
        | error e =>
            have hfails := failure?_build_distinct sources
            rw [hbuild] at hfails
            exact (failure?_eq_some.mp hfails).symm

end Stencil.Document
