import Stencil.Document.Load
import Stencil.Proofs.Document.Assembly

/-!
# The names of the modules

Two readers look at a document: one reads it in full, the other reads only the name
of its module and skips whatever else stands there.  They agree on every document
that can be read in full, so that the names which the second one gives are those of
the modules of the system.
-/

namespace Stencil.Document

open Yaml (Node Record)

/-! ## Fields of a record -/

theorem insert?_eq_some {name : String} {v : Node} {r next : Record} :
    r.insert? name v = some next ↔ r.lookup name = none ∧ next = r ++ [(name, v)] := by
  unfold Record.insert?
  cases r.lookup name with
  | none => simp [eq_comm]
  | some w => simp

/-- The first entry of a mapping that is read with known fields only is a new one of them. -/
theorem exists_field_of_closed {known : List String} {k v : Node} {rest : List (Node × Node)}
    {r last : Record} (h : Record.ofEntries? false known ((k, v) :: rest) r = some last) :
    ∃ field ∈ known, k.text? = some field ∧ r.lookup field = none ∧
      Record.ofEntries? false known rest (r ++ [(field, v)]) = some last := by
  rw [Record.ofEntries?] at h
  cases hk : k.text? with
  | none => simp [hk] at h
  | some field =>
      simp only [hk] at h
      by_cases hknown : known.contains field = true
      · rw [if_pos hknown] at h
        obtain ⟨next, hnext, hrest⟩ := Option.bind_eq_some_iff.mp h
        obtain ⟨hfresh, rfl⟩ := insert?_eq_some.mp hnext
        exact ⟨field, List.contains_iff_mem.mp hknown, rfl, hfresh, hrest⟩
      · rw [if_neg hknown] at h
        simp at h

/-- A record that skips unknown fields has the same fields as one that refuses them, as far as it
knows them. -/
theorem exists_open_of_closed {known : List String} (wanted : List String)
    {entries : List (Node × Node)} :
    ∀ {r last skipping : Record}, Record.ofEntries? false known entries r = some last →
      (∀ name ∈ wanted, skipping.lookup name = r.lookup name) →
        ∃ fields, Record.ofEntries? true wanted entries skipping = some fields ∧
          ∀ name ∈ wanted, fields.lookup name = last.lookup name := by
  induction entries with
  | nil =>
      intro r last skipping h hsame
      cases h
      exact ⟨skipping, rfl, hsame⟩
  | cons entry rest ih =>
      intro r last skipping h hsame
      obtain ⟨k, v⟩ := entry
      obtain ⟨field, -, hk, hfresh, hrest⟩ := exists_field_of_closed h
      rw [Record.ofEntries?]
      simp only [hk]
      by_cases hfield : field ∈ wanted
      · have hinsert : skipping.insert? field v = some (skipping ++ [(field, v)]) :=
          insert?_eq_some.mpr ⟨(hsame field hfield).trans hfresh, rfl⟩
        rw [if_pos (List.contains_iff_mem.mpr hfield), hinsert, Option.bind_some]
        refine ih hrest fun name hname => ?_
        rw [List.lookup_append, List.lookup_append, hsame name hname]
      · rw [if_neg (mt List.contains_iff_mem.mp hfield), if_pos trivial]
        refine ih hrest fun name hname => ?_
        -- the skipped field is none of those that are wanted
        have hother : name ≠ field := fun heq => hfield (heq ▸ hname)
        rw [hsame name hname, List.lookup_append, List.lookup_cons, beq_false_of_ne hother]
        simp

/-! ## One document -/

/-- The name of the module is read from every document that can be read in full. -/
theorem moduleName?_of_ofNode? {n : Node} {d : Document} (h : ofNode? n = some d) :
    moduleName? n = some d.module := by
  obtain ⟨r, hr, h⟩ := Option.bind_eq_some_iff.mp h
  obtain ⟨name, hname, h⟩ := Option.bind_eq_some_iff.mp h
  have hmodule : d.module = name := by
    simp only [Option.bind_eq_bind, Option.bind_eq_some_iff, pure, Option.some.injEq] at h
    obtain ⟨_, -, _, -, _, -, _, -, _, -, _, -, _, -, rfl⟩ := h
    rfl
  obtain ⟨entries, hentries, hclosed⟩ := Option.bind_eq_some_iff.mp hr
  have hempty : ∀ name ∈ ["module"], List.lookup name ([] : Record) = List.lookup name [] :=
    fun _ _ => rfl
  obtain ⟨fields, hfields, hsame⟩ := exists_open_of_closed ["module"] hclosed hempty
  have hopen : Record.open? ["module"] n = some fields := by
    rw [Record.open?, hentries, Option.bind_some, hfields]
  have hfield : fields.required? "module" Node.text? = some name := by
    rw [Record.required?, hsame "module" (by simp)]
    exact hname
  rw [moduleName?, hopen, hmodule]
  exact hfield

theorem readModuleName_of_readSource {t : Files.Tree} {path : String} {s : Source}
    (h : readSource t path = .ok s) : readModuleName t path = .ok s.document.module := by
  obtain ⟨origin, horigin, h⟩ := bind_eq_ok.mp h
  cases hdocument : ofText? origin.text with
  | none => simp [hdocument] at h
  | some d =>
      rw [hdocument] at h
      cases h
      have hname : moduleNameOfText? origin.text = some d.module := by
        unfold ofText? at hdocument
        unfold moduleNameOfText?
        cases hnode : Node.ofText origin.text with
        | error e => simp [hnode] at hdocument
        | ok n =>
            rw [hnode] at hdocument
            exact moduleName?_of_ofNode? hdocument
      unfold readModuleName
      rw [horigin]
      simp [bind, Except.bind, hname, pure, Except.pure]

/-! ## All documents -/

/-- The names that are read from documents are those of the modules that they describe. -/
theorem loadModuleNames_of_read {t : Files.Tree} {paths : List String} {sources : List Source}
    (h : paths.mapM (readSource t) = .ok sources) :
    loadModuleNames t paths = .ok (moduleNames sources) := by
  have hnames : paths.mapM (readModuleName t) = .ok (sources.map (·.document.module)) := by
    rw [mapM_eq_ok_iff, List.forall₂_map_right_iff]
    exact (mapM_eq_ok_iff.mp h).imp fun _ _ => readModuleName_of_readSource
  unfold loadModuleNames
  rw [hnames]
  rfl

/-- A built system has a module for each of these names, in this order. -/
theorem names_of_build {sources : List Source} {s : Model.System} (h : build sources = .ok s) :
    s.names = moduleNames sources := by
  have hname : ∀ name m, assemble (symbols (sources.map (·.document))) name
      (group sources name) = .ok m → m.name = id name := by
    intro name m hm
    obtain ⟨version, parts, -, -, rfl⟩ := assemble_eq_ok.mp hm
    rfl
  have hnames := map_of_mapM hname (build_eq_ok.mp h)
  rwa [List.map_id] at hnames

/-- The names that are read from the documents of a system are those of its modules, in order. -/
theorem loadModuleNames_of_load {t : Files.Tree} {paths : List String} {s : Model.System}
    (h : load t paths = .ok s) : loadModuleNames t paths = .ok s.names := by
  obtain ⟨sources, hsources, hbuild⟩ := bind_eq_ok.mp h
  rw [loadModuleNames_of_read hsources, names_of_build hbuild]

end Stencil.Document
