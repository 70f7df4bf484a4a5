import Stencil.Proofs.Json.Updates
import Stencil.Proofs.Spelling.Conforming

/-!
# The simulation data of a module

The simulation data of an interface are its own entries, over which the entries of its
properties are laid one after the other.  Each entry of a property is a converted annotation
value, zone by zone if the interface has zones.  The data fail with the first conversion that
fails.
-/

namespace Stencil

theorem findSome?_flatMap {α β γ : Type} (f : α → List β) (g : β → Option γ) (xs : List α) :
    (xs.flatMap f).findSome? g = xs.findSome? fun x => (f x).findSome? g := by
  induction xs with
  | nil => rfl
  | cons x rest ih =>
      rw [List.flatMap_cons, List.findSome?_append, List.findSome?_cons, ih]
      cases (f x).findSome? g <;> rfl

namespace Spelling

open Model (Interface Module Property PropertySimulation Symbol)

/-! ## What the data are -/

/-- An annotation value under a key in its converted form; only `unsupported` is not converted. -/
def convertUnder (x : Mapper) (s : Symbol) (key : String) (v : Json) : Except Error Json :=
  if key = "unsupported" then .ok v else x.simulationValue s v

/-- The entries that an interface has of its own. -/
def ownEntries (i : Interface) : Members := i.config.simulator.getD []

/-- The properties of an interface that have simulator metadata. -/
def simulated (i : Interface) : List (Property × PropertySimulation) :=
  i.properties.filterMap fun p => p.config.simulator.map (p, ·)

/-- The mapping under a name, empty if there is none. -/
def heldUnder (name : String) (data : Members) : Members :=
  match Members.get? name data with
  | some (.object ms) => ms
  | _ => []

/-- One entry of a property, from its annotation value.  If there are zones, an object becomes the
object of its entries for these, in their order, and for all others; else the value is converted as
a whole. -/
inductive EntryOf (x : Mapper) (zones : List String) (s : Symbol) (key : String) :
    Json → Json → Prop
  | zoned {ms out : Members} (hzones : zones ≠ [])
      (keys : out.keys = (distinct (zones ++ ["="])).filter (· ∈ ms.keys))
      (values : ∀ zone v w, ms.get? zone = some v → out.get? zone = some w →
        convertUnder x s key v = .ok w) : EntryOf x zones s key (.object ms) (.object out)
  | whole {v w : Json} (h : zones = [] ∨ v.members? = none)
      (hw : convertUnder x s key v = .ok w) : EntryOf x zones s key v w

/-- The mapping of a property, updated with the entries of its metadata: the keys that were there
come first, and each key of the metadata has its converted value. -/
structure Updated (x : Mapper) (zones : List String) (s : Symbol)
    (simulation : PropertySimulation) (old new : Members) : Prop where
  keys : new.keys = old.keys ++ simulation.entries.keys.filter (· ∉ old.keys)
  kept : ∀ key, key ∉ simulation.entries.keys → new.get? key = old.get? key
  converted : ∀ key v, simulation.entries.get? key = some v →
    ∃ w, new.get? key = some w ∧ EntryOf x zones s key v w

/-- Data over which the entries of some properties are laid in turn: under the name of each comes
its mapping, updated from what is held there so far. -/
inductive Overlaid (x : Mapper) (m : Module) (i : Interface) :
    List (Property × PropertySimulation) → Members → Members → Prop
  | nil (data : Members) : Overlaid x m i [] data data
  | cons {p : Property} {simulation : PropertySimulation}
      {rest : List (Property × PropertySimulation)} {data entries out : Members}
      (h : Updated x i.config.zones (.ofProperty m i p) simulation (heldUnder p.name data) entries)
      (hrest : Overlaid x m i rest (data.set p.name (.object entries)) out) :
      Overlaid x m i ((p, simulation) :: rest) data out

/-- The data of an interface: its own keys, then the names of the properties with metadata that are
not among them; other keys keep their values. -/
structure InterfaceData (x : Mapper) (m : Module) (i : Interface) (data : Members) : Prop where
  keys : data.keys = (ownEntries i).keys ++
    (distinct ((simulated i).map (·.1.name))).filter (· ∉ (ownEntries i).keys)
  kept : ∀ key, key ∉ (simulated i).map (·.1.name) → data.get? key = (ownEntries i).get? key
  overlaid : Overlaid x m i (simulated i) (ownEntries i) data

/-- The data of a module: its interfaces in order of their first declaration, with the data of the
last one of each name. -/
structure ModuleData (x : Mapper) (m : Module) (data : Members) : Prop where
  keys : data.keys = distinct (m.interfaces.map (·.name))
  last : ∀ front i back, m.interfaces = front ++ i :: back → (∀ j ∈ back, j.name ≠ i.name) →
    ∃ entries, data.get? i.name = some (.object entries) ∧ InterfaceData x m i entries

/-- The values that are converted for one entry: those for the zones and for all others, or the
whole. -/
def partsFor (zones : List String) : Json → List Json
  | .object ms =>
      if zones.isEmpty then [.object ms] else (zones ++ ["="]).filterMap (Members.get? · ms)
  | v => [v]

/-- A value that is converted for the simulation. -/
structure Conversion where
  symbol : Symbol
  key : String
  value : Json

/-- The outcome of a conversion. -/
def Conversion.run (x : Mapper) (c : Conversion) : Except Error Json :=
  convertUnder x c.symbol c.key c.value

/-- The conversions that the data of a module need, in order. -/
def conversions (m : Module) : List Conversion :=
  m.interfaces.flatMap fun i => (simulated i).flatMap fun (p, simulation) =>
    simulation.entries.flatMap fun (key, v) =>
      (partsFor i.config.zones v).map (⟨.ofProperty m i p, key, ·⟩)

variable {x : Mapper} {m : Module} {i : Interface} {s : Symbol}

/-! ## Entries that are converted -/

/-- Values that are converted under their keys stand under the same keys again. -/
theorem keys_of_converted (convert : String → Json → Except Error Json) {pairs values : Members}
    (h : (pairs.mapM fun p => (convert p.1 p.2).map (p.1, ·)) = .ok values) :
    values.keys = pairs.keys := by
  refine map_of_mapM (fun p q hq => ?_) h
  obtain ⟨w, -, rfl⟩ := map_eq_ok.mp hq
  rfl

theorem exists_of_mem_converted (convert : String → Json → Except Error Json)
    {pairs values : Members}
    (h : (pairs.mapM fun p => (convert p.1 p.2).map (p.1, ·)) = .ok values) {key : String}
    {w : Json} (hw : (key, w) ∈ values) : ∃ v, (key, v) ∈ pairs ∧ convert key v = .ok w := by
  obtain ⟨⟨k, v⟩, hmem, hp⟩ := exists_of_mem_values h hw
  obtain ⟨u, hu, heq⟩ := map_eq_ok.mp hp
  cases heq
  exact ⟨v, hmem, hu⟩

/-! ## Zones -/

/-- The entries of a mapping for some zones, and then the one for all others. -/
def zoneEntries (zones : List String) (ms : Members) : Members :=
  (zones ++ ["="]).filterMap fun zone => (Members.get? zone ms).map (zone, ·)

theorem zoned_eq (convert : Json → Except Error Json) (ms : Members) (zones : List String) :
    Mapper.zoned convert ms zones =
      ((zoneEntries zones ms).mapM fun p => (convert p.2).map (p.1, ·)).map
        (Members.setAll · []) := by
  have hfold := foldlM_map_eq (fun (p : String × Json) => (convert p.2).map (p.1, ·))
    (fun (out : Members) q => Members.set q.1 q.2 out) (zoneEntries zones ms) []
  refine Eq.trans ?_ hfold
  -- zones without an entry are skipped by the fold, and left out of the list before it
  rw [zoneEntries, List.foldlM_filterMap]
  unfold Mapper.zoned
  congr 1
  funext out zone
  cases Members.get? zone ms with
  | none => rfl
  | some v =>
      dsimp only [Option.map]
      cases convert v <;> rfl

theorem keys_zoneEntries (zones : List String) (ms : Members) :
    (zoneEntries zones ms).keys = (zones ++ ["="]).filter (· ∈ ms.keys) := by
  change List.map Prod.fst (zoneEntries zones ms) = _
  rw [zoneEntries, List.map_filterMap, ← List.filterMap_eq_filter]
  congr 1
  funext zone
  cases hzone : Members.get? zone ms with
  | none => simp [Option.guard, Members.get?_eq_none_iff.mp hzone]
  | some v => simp [Option.guard, Members.mem_keys_iff.mpr ⟨v, hzone⟩]

theorem get?_of_mem_zoneEntries {zones : List String} {ms : Members} {zone : String} {v : Json}
    (h : (zone, v) ∈ zoneEntries zones ms) : ms.get? zone = some v := by
  obtain ⟨z, -, hz⟩ := List.mem_filterMap.mp h
  obtain ⟨u, hu, heq⟩ := Option.map_eq_some_iff.mp hz
  cases heq
  exact hu

theorem simulationEntry_object (zones : List String) (s : Symbol) (key : String) (ms : Members) :
    x.simulationEntry zones s key (.object ms) =
      if zones.isEmpty then convertUnder x s key (.object ms)
      else (Mapper.zoned (convertUnder x s key) ms zones).map .object := rfl

theorem simulationEntry_whole {zones : List String} {key : String} {v : Json}
    (h : zones = [] ∨ v.members? = none) :
    x.simulationEntry zones s key v = convertUnder x s key v := by
  cases v with
  | object ms =>
      rcases h with rfl | h
      · rfl
      · cases h
  | _ => rfl

theorem entryOf_of_simulationEntry {zones : List String} {key : String} {v w : Json}
    (h : x.simulationEntry zones s key v = .ok w) : EntryOf x zones s key v w := by
  by_cases hwhole : zones = [] ∨ v.members? = none
  · rw [simulationEntry_whole hwhole] at h
    exact .whole hwhole h
  · obtain ⟨hzones, hmembers⟩ := not_or.mp hwhole
    cases v with
    | object ms =>
        rw [simulationEntry_object, if_neg (by simpa using hzones), zoned_eq, map_eq_ok] at h
        obtain ⟨_, hout, rfl⟩ := h
        obtain ⟨values, hvalues, rfl⟩ := map_eq_ok.mp hout
        have hkeys := keys_of_converted (fun _ => convertUnder x s key) hvalues
        refine .zoned hzones ?_ fun zone v w hv hw => ?_
        · rw [Members.keys_setAll, hkeys, keys_zoneEntries, ← filter_distinct]
          simp
        · have hmem := Members.mem_of_get? hw
          rw [← Members.ofPairs_eq_setAll] at hmem
          obtain ⟨u, hu, hconvert⟩ := exists_of_mem_converted (fun _ => convertUnder x s key)
            hvalues ((Members.ofPairs_spec values).2 _ hmem)
          cases (get?_of_mem_zoneEntries hu).symm.trans hv
          exact hconvert
    | _ => exact absurd rfl hmembers

theorem partsFor_object {zones : List String} (h : zones ≠ []) (ms : Members) :
    partsFor zones (.object ms) = (zoneEntries zones ms).map Prod.snd := by
  unfold partsFor zoneEntries
  dsimp only
  rw [if_neg (by simpa using h), List.map_filterMap]
  congr 1
  funext zone
  cases Members.get? zone ms <;> rfl

theorem failure?_simulationEntry (zones : List String) (s : Symbol) (key : String) (v : Json) :
    failure? (x.simulationEntry zones s key v) =
      (partsFor zones v).findSome? fun w => failure? (convertUnder x s key w) := by
  by_cases hwhole : zones = [] ∨ v.members? = none
  · have hparts : partsFor zones v = [v] := by
      cases v with
      | object ms =>
          rcases hwhole with rfl | h
          · rfl
          · cases h
      | _ => rfl
    rw [simulationEntry_whole hwhole, hparts]
    simp
  · obtain ⟨hzones, hmembers⟩ := not_or.mp hwhole
    cases v with
    | object ms =>
        rw [simulationEntry_object, if_neg (by simpa using hzones), failure?_map, zoned_eq,
          failure?_map, failure?_mapM, partsFor_object hzones, List.findSome?_map]
        congr 1
        funext p
        exact failure?_map _ _
    | _ => exact absurd rfl hmembers

/-! ## The entries of a property -/

theorem keys_entries (simulation : PropertySimulation) :
    simulation.entries.keys = (simulation.all.filter (·.2.isSome)).map Prod.fst := by
  have hall : ∀ pairs : List (String × Option Json),
      (pairs.filterMap fun p => p.2.map (p.1, ·)).map Prod.fst =
        (pairs.filter (·.2.isSome)).map Prod.fst := by
    intro pairs
    induction pairs with
    | nil => rfl
    | cons p rest ih =>
        obtain ⟨key, value⟩ := p
        cases value with
        | none => simpa using ih
        | some v => simpa using ih
  exact hall simulation.all

theorem nodup_keys_entries (simulation : PropertySimulation) :
    simulation.entries.keys.Nodup := by
  rw [keys_entries]
  have hall : (simulation.all.map Prod.fst).Nodup := by
    change ["range", "domain", "minimum", "maximum", "default", "unsupported"].Nodup
    decide
  exact hall.sublist (List.filter_sublist.map Prod.fst)

/-- The converted entries of a property. -/
def convertedEntries (x : Mapper) (m : Module) (i : Interface) (p : Property)
    (simulation : PropertySimulation) : Except Error Members :=
  simulation.entries.mapM fun e =>
    (x.simulationEntry i.config.zones (.ofProperty m i p) e.1 e.2).map (e.1, ·)

/-- The data with the entries of a property laid over them. -/
def layOver (data : Members) (u : String × Members) : Members :=
  data.set u.1 (.object (Members.setAll u.2 (heldUnder u.1 data)))

theorem updated_of_convertedEntries {p : Property} {simulation : PropertySimulation}
    {entries : Members} (h : convertedEntries x m i p simulation = .ok entries) (old : Members) :
    Updated x i.config.zones (.ofProperty m i p) simulation old (Members.setAll entries old) := by
  have hkeys : entries.keys = simulation.entries.keys :=
    keys_of_converted (x.simulationEntry i.config.zones (.ofProperty m i p)) h
  have hnodup := nodup_keys_entries simulation
  refine ⟨?_, fun key hkey => ?_, fun key v hv => ?_⟩
  · rw [Members.keys_setAll, hkeys, distinct_of_nodup hnodup]
  · exact Members.get?_setAll_of_not_mem (hkeys ▸ hkey) old
  · have hmem : key ∈ entries.keys := hkeys ▸ Members.mem_keys_iff.mpr ⟨v, hv⟩
    obtain ⟨w, hw, hset⟩ := Members.exists_pair_of_setAll hmem old
    obtain ⟨u, hu, hentry⟩ :=
      exists_of_mem_converted (x.simulationEntry i.config.zones (.ofProperty m i p)) h hw
    -- each key comes once in the metadata, so the value that was converted is the one found
    cases (Members.get?_of_mem hnodup hu).symm.trans hv
    exact ⟨w, hset, entryOf_of_simulationEntry hentry⟩

/-! ## The data of an interface -/

/-- Setting each entry as it is converted sets all converted entries in turn. -/
theorem foldlM_entries_eq (p : Property) (simulation : PropertySimulation) (old : Members) :
    (simulation.entries.foldlM (fun entries (e : String × Json) => do
        let value ← x.simulationEntry i.config.zones (.ofProperty m i p) e.1 e.2
        return Members.set e.1 value entries) old) =
      (convertedEntries x m i p simulation).map (Members.setAll · old) := by
  have hfold := foldlM_map_eq (fun (e : String × Json) =>
      (x.simulationEntry i.config.zones (.ofProperty m i p) e.1 e.2).map (e.1, ·))
    (fun (entries : Members) q => Members.set q.1 q.2 entries) simulation.entries old
  refine Eq.trans ?_ hfold
  congr 1
  funext entries e
  cases x.simulationEntry i.config.zones (.ofProperty m i p) e.1 e.2 <;> rfl

theorem interfaceData_eq :
    x.interfaceData m i =
      ((simulated i).mapM fun q => (convertedEntries x m i q.1 q.2).map (q.1.name, ·)).map
        fun updates => updates.foldl layOver (ownEntries i) := by
  have hfold := foldlM_map_eq
    (fun (q : Property × PropertySimulation) => (convertedEntries x m i q.1 q.2).map (q.1.name, ·))
    layOver (simulated i) (ownEntries i)
  refine Eq.trans ?_ hfold
  rw [simulated, List.foldlM_filterMap]
  unfold Mapper.interfaceData
  congr 1
  funext data p
  cases p.config.simulator with
  | none => rfl
  | some simulation =>
      have hentries := foldlM_entries_eq (x := x) (m := m) (i := i) p simulation
        (heldUnder p.name data)
      refine (congrArg (· >>= fun entries =>
        pure (Members.set p.name (.object entries) data)) hentries).trans ?_
      dsimp only [Option.map]
      cases convertedEntries x m i p simulation <;> rfl

theorem overlaid_of_converted {ps : List (Property × PropertySimulation)}
    {updates : List (String × Members)}
    (h : (ps.mapM fun q => (convertedEntries x m i q.1 q.2).map (q.1.name, ·)) = .ok updates)
    (data : Members) : Overlaid x m i ps data (updates.foldl layOver data) := by
  have hall := mapM_eq_ok_iff.mp h
  clear h
  induction hall generalizing data with
  | nil => exact .nil data
  | @cons q u ps updates hq _ ih =>
      obtain ⟨entries, hentries, rfl⟩ := map_eq_ok.mp hq
      exact .cons (updated_of_convertedEntries hentries (heldUnder q.1.name data)) (ih _)

/-- Laying entries over data sets the names of their properties in turn. -/
theorem Overlaid.exists_setAll {ps : List (Property × PropertySimulation)} {data out : Members}
    (h : Overlaid x m i ps data out) :
    ∃ pairs : Members, pairs.keys = ps.map (·.1.name) ∧ out = Members.setAll pairs data := by
  induction h with
  | nil data => exact ⟨[], rfl, rfl⟩
  | @cons p simulation rest data entries out _ _ ih =>
      obtain ⟨pairs, hkeys, hout⟩ := ih
      refine ⟨(p.name, .object entries) :: pairs, ?_, hout⟩
      rw [Members.keys_cons, hkeys]
      rfl

theorem interfaceData_of_overlaid {data : Members}
    (h : Overlaid x m i (simulated i) (ownEntries i) data) : InterfaceData x m i data := by
  obtain ⟨pairs, hkeys, rfl⟩ := h.exists_setAll
  refine ⟨?_, fun key hkey => ?_, h⟩
  · rw [Members.keys_setAll, hkeys]
  · exact Members.get?_setAll_of_not_mem (hkeys ▸ hkey) (ownEntries i)

theorem interfaceData_of_ok {data : Members} (h : x.interfaceData m i = .ok data) :
    InterfaceData x m i data := by
  rw [interfaceData_eq] at h
  obtain ⟨updates, hupdates, rfl⟩ := map_eq_ok.mp h
  exact interfaceData_of_overlaid (overlaid_of_converted hupdates (ownEntries i))

theorem failure?_interfaceData :
    failure? (x.interfaceData m i) = (simulated i).findSome? fun q =>
      q.2.entries.findSome? fun e =>
        (partsFor i.config.zones e.2).findSome? fun v =>
          failure? (convertUnder x (.ofProperty m i q.1) e.1 v) := by
  rw [interfaceData_eq, failure?_map, failure?_mapM]
  congr 1
  funext q
  rw [failure?_map, convertedEntries, failure?_mapM]
  congr 1
  funext e
  rw [failure?_map, failure?_simulationEntry]

/-! ## The data of a module -/

theorem simulationMembersOf_eq :
    x.simulationMembersOf m =
      (m.interfaces.mapM fun i => (x.interfaceData m i).map fun d => (i.name, Json.object d)).map
        (Members.setAll · []) := by
  have hfold := foldlM_map_eq
    (fun (i : Interface) => (x.interfaceData m i).map fun d => (i.name, Json.object d))
    (fun (data : Members) q => Members.set q.1 q.2 data) m.interfaces []
  refine Eq.trans ?_ hfold
  unfold Mapper.simulationMembersOf
  congr 1
  funext data i
  cases x.interfaceData m i <;> rfl

theorem moduleData_of_ok {data : Members} (h : x.simulationMembersOf m = .ok data) :
    ModuleData x m data := by
  rw [simulationMembersOf_eq] at h
  obtain ⟨pairs, hpairs, rfl⟩ := map_eq_ok.mp h
  have hname : ∀ i q, ((x.interfaceData m i).map fun d => (i.name, Json.object d)) = .ok q →
      q.1 = i.name := by
    intro i q hq
    obtain ⟨d, -, rfl⟩ := map_eq_ok.mp hq
    rfl
  refine ⟨?_, fun front i back hsplit hlast => ?_⟩
  · rw [Members.keys_setAll]
    have hkeys : Members.keys pairs = m.interfaces.map (·.name) := map_of_mapM hname hpairs
    simp [hkeys]
  · rw [hsplit, List.mapM_append, List.mapM_cons] at hpairs
    simp only [bind_eq_ok, pure, Except.pure, Except.ok.injEq] at hpairs
    obtain ⟨before, -, -, ⟨q, hq, behind, hbehind, rfl⟩, rfl⟩ := hpairs
    obtain ⟨entries, hentries, rfl⟩ := map_eq_ok.mp hq
    -- no later interface sets the entry under this name again
    have hfresh : i.name ∉ Members.keys behind := by
      intro hmem
      have hkeys : Members.keys behind = back.map (·.name) := map_of_mapM hname hbehind
      obtain ⟨j, hj, hji⟩ := List.mem_map.mp (hkeys ▸ hmem)
      exact hlast j hj hji
    exact ⟨entries, Members.get?_setAll_of_last hfresh [], interfaceData_of_ok hentries⟩

theorem failure?_simulationData :
    failure? (x.simulationData m) = (conversions m).findSome? fun c => failure? (c.run x) := by
  unfold Mapper.simulationData conversions
  rw [failure?_bind_pure, simulationMembersOf_eq, failure?_map, failure?_mapM, findSome?_flatMap]
  congr 1
  funext i
  rw [failure?_map, failure?_interfaceData, findSome?_flatMap]
  congr 1
  funext q
  rw [findSome?_flatMap]
  congr 1
  funext e
  rw [List.findSome?_map]
  rfl

/-- The data of a module are those of its interfaces, each overlaid with the entries of its
properties, and its document is their text.  They fail exactly if one of the conversions does, with
the error of the first that fails. -/
theorem simulation_data_overlaid (x : Mapper) (m : Module) :
    (∀ text, x.simulationData m = .ok text →
      ∃ data, x.simulationMembersOf m = .ok data ∧ text = (Json.object data).prettyText ∧
        ModuleData x m data) ∧
    ((∃ e, x.simulationData m = .error e) ↔ ∃ c ∈ conversions m, ∃ e, c.run x = .error e) ∧
    failure? (x.simulationData m) = (conversions m).findSome? fun c => failure? (c.run x) := by
  refine ⟨fun text h => ?_, ?_, failure?_simulationData⟩
  · obtain ⟨data, hdata, htext⟩ := bind_eq_ok.mp h
    cases htext
    exact ⟨data, hdata, rfl, moduleData_of_ok hdata⟩
  · simp only [← failure?_eq_some, ← Option.isSome_iff_exists]
    rw [failure?_simulationData, List.findSome?_isSome_iff]

namespace Sample

/-- A point by the names of its fields. -/
def namedPoint : Json := .object [("x", .int 1), ("y", .int 2)]

/-- Metadata for such points, of which only one entry tells the zones apart. -/
def originEntries : PropertySimulation :=
  .ofMembers [("default", namedPoint),
    ("minimum", .object [("=", .array [.int 0, .int 0]), ("Left", .array [.int 0, .int 1])])]

/-- The property of a point with this metadata. -/
def zonedOrigin : Property := { origin with config := { simulator := some originEntries } }

/-- A board with one zone. -/
def zonedBoard : Interface where
  name := "Board"
  properties := [zonedOrigin]
  config := {
    simulator := some [("origin", .object [("note", .string "top")]),
      ("zones", .array [.string "Left"])] }

/-- The module with this board. -/
def zonedModule : Module := { boardModule with interfaces := [zonedBoard] }

/-- Its simulation data. -/
def zonedData : Members :=
  [("Board", .object [
    ("origin", .object [
      ("note", .string "top"),
      ("minimum", .object [
        ("Left", .object [("type", .string "Point"), ("value", .array [.int 0, .int 1])]),
        ("=", .object [("type", .string "Point"), ("value", .array [.int 0, .int 0])])]),
      ("default", .object [])]),
    ("zones", .array [.string "Left"])])]

end Sample

theorem simulation_data_overlaid_zoned :
    let x : Mapper := ⟨⟨[Sample.zonedModule]⟩, ""⟩
    x.simulationData Sample.zonedModule = .ok (Json.object Sample.zonedData).prettyText ∧
      ModuleData x Sample.zonedModule Sample.zonedData := by
  intro x
  have htext : x.simulationData Sample.zonedModule =
      .ok (Json.object Sample.zonedData).prettyText := rfl
  obtain ⟨data, hdata, -, hmodule⟩ := (simulation_data_overlaid x Sample.zonedModule).1 _ htext
  have hsame : data = Sample.zonedData :=
    Except.ok.inj (hdata.symm.trans
      (show x.simulationMembersOf Sample.zonedModule = .ok Sample.zonedData from rfl))
  exact ⟨htext, hsame ▸ hmodule⟩

end Spelling

end Stencil
