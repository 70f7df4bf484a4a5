import Stencil.Proofs.Spelling.NormalForm
import Stencil.Proofs.Spelling.SimulationData

/-!
# Zones and struct values

A struct value may be written as an object, and so are the entries for zones.  Where an interface
has zones, an object is always taken for the latter: one that names no zone leaves nothing.
-/

namespace Stencil.Spelling

open Model (Interface Module Property PropertySimulation Symbol SymbolRef)

/-- The annotation value is written as an object with entries for none of the zones, nor for all
others. -/
def NamesNoZone (zones : List String) (v : Json) : Prop :=
  ∀ ms : Members, v = .object ms → ∀ zone ∈ zones ++ ["="], zone ∉ ms.keys

/-- The value under the key of a property of an interface in the data of a module. -/
def valueUnder (interface property key : String) (data : Members) : Option Json :=
  Members.get? key (heldUnder property (heldUnder interface data))

/-- The interface supplies the data under its name, and the property the value under the key, as no
later one of the same name does. -/
structure Supplies (m : Module) (i : Interface) (p : Property) (key : String) (v : Json) :
    Prop where
  interface : ∃ front back, m.interfaces = front ++ i :: back ∧ ∀ j ∈ back, j.name ≠ i.name
  property : ∃ front simulation back, simulated i = front ++ (p, simulation) :: back ∧
    simulation.entries.get? key = some v ∧
    ∀ q ∈ back, q.1.name = p.name → key ∉ q.2.entries.keys

variable {x : Mapper} {m : Module} {i : Interface} {s : Symbol} {r : SymbolRef} {key : String}
  {v : Json} {zones : List String}

/-! ## Data that are overlaid -/

theorem heldUnder_set_self (name : String) (ms data : Members) :
    heldUnder name (data.set name (.object ms)) = ms := by
  unfold heldUnder
  rw [Members.get?_set_self]

theorem heldUnder_set_ne {name other : String} (h : name ≠ other) (value : Json)
    (data : Members) : heldUnder name (data.set other value) = heldUnder name data := by
  unfold heldUnder
  rw [Members.get?_set_ne _ _ h]

theorem Overlaid.append {front back : List (Property × PropertySimulation)} {data out : Members}
    (h : Overlaid x m i (front ++ back) data out) :
    ∃ mid, Overlaid x m i front data mid ∧ Overlaid x m i back mid out := by
  induction front generalizing data with
  | nil => exact ⟨data, .nil data, h⟩
  | cons q front ih =>
      cases h with
      | cons h hrest =>
          obtain ⟨mid, hfront, hback⟩ := ih hrest
          exact ⟨mid, .cons h hfront, hback⟩

/-- A value stays if no property sets it. -/
theorem Overlaid.get?_heldUnder {ps : List (Property × PropertySimulation)} {name : String}
    {data out : Members} (h : Overlaid x m i ps data out)
    (hfresh : ∀ q ∈ ps, q.1.name = name → key ∉ q.2.entries.keys) :
    Members.get? key (heldUnder name out) = Members.get? key (heldUnder name data) := by
  induction h with
  | nil data => rfl
  | @cons p simulation rest data entries out h _ ih =>
      rw [ih fun q hq => hfresh q (List.mem_cons_of_mem _ hq)]
      by_cases hname : p.name = name
      · subst hname
        rw [heldUnder_set_self]
        exact h.kept key (hfresh (p, simulation) List.mem_cons_self rfl)
      · rw [heldUnder_set_ne (Ne.symm hname)]

theorem valueUnder_of_supplies {p : Property} {data : Members} (h : Supplies m i p key v)
    (hdata : ModuleData x m data) :
    ∃ w, valueUnder i.name p.name key data = some w ∧
      EntryOf x i.config.zones (.ofProperty m i p) key v w := by
  obtain ⟨front, back, hsplit, hlast⟩ := h.interface
  obtain ⟨before, simulation, after, hsimulated, hv, hfresh⟩ := h.property
  obtain ⟨entries, hentries, hi⟩ := hdata.last front i back hsplit hlast
  have hoverlaid := hi.overlaid
  rw [hsimulated] at hoverlaid
  -- what the earlier properties leave does not matter: this one sets the value
  obtain ⟨mid, -, hrest⟩ := hoverlaid.append
  cases hrest with
  | cons hupdated hafter =>
      obtain ⟨w, hw, hentry⟩ := hupdated.converted key v hv
      refine ⟨w, ?_, hentry⟩
      have hheld : heldUnder i.name data = entries := by
        unfold heldUnder
        rw [hentries]
      unfold valueUnder
      rw [hheld, hafter.get?_heldUnder hfresh, heldUnder_set_self]
      exact hw

/-! ## Objects that name no zone -/

theorem not_normalForm_struct_empty : ¬ NormalForm x (.struct r) v (.object []) := by
  intro h
  cases h with
  | same h => cases h

theorem zoneEntries_eq_nil {ms : Members} (h : NamesNoZone zones (.object ms)) :
    zoneEntries zones ms = [] := by
  refine List.filterMap_eq_nil_iff.mpr fun zone hzone => ?_
  rw [Members.get?_eq_none_iff.mpr (h ms rfl zone hzone)]
  rfl

theorem simulationEntry_of_namesNoZone {ms : Members} (hzones : zones ≠ [])
    (h : NamesNoZone zones (.object ms)) :
    x.simulationEntry zones s key (.object ms) = .ok (.object []) := by
  rw [simulationEntry_object, if_neg (by simpa using hzones), zoned_eq, zoneEntries_eq_nil h]
  rfl

theorem EntryOf.of_namesNoZone {w : Json} (h : EntryOf x zones s key v w)
    (hfree : NamesNoZone zones v) :
    ((zones = [] ∨ v.members? = none) ∧ convertUnder x s key v = .ok w) ∨
      (zones ≠ [] ∧ v.members? ≠ none) ∧ w = .object [] := by
  cases h with
  | @zoned ms out hzones keys _ =>
      have hnone : (distinct (zones ++ ["="])).filter (· ∈ ms.keys) = [] := by
        refine List.filter_eq_nil_iff.mpr fun zone hzone => ?_
        simpa using hfree ms rfl zone (mem_distinct.mp hzone)
      rw [hnone] at keys
      exact .inr ⟨⟨hzones, nofun⟩, by rw [List.map_eq_nil_iff.mp keys]⟩
  | whole h hw => exact .inl ⟨h, hw⟩

/-- An entry of a property of a struct that names no zone is converted as without zones, with the
same value or error, exactly if there are no zones or it is not written as an object.  If it is one,
it leaves an empty object, and in the data of the module too. -/
theorem struct_kept_with_zones_iff (x : Mapper) {m : Module} {i : Interface} {p : Property}
    {r : SymbolRef} {key : String} {v : Json} (ht : p.type = .struct r)
    (hkey : key ≠ "unsupported") (hfree : NamesNoZone i.config.zones v) :
    (x.simulationEntry i.config.zones (.ofProperty m i p) key v =
        x.simulationEntry [] (.ofProperty m i p) key v ↔
      i.config.zones = [] ∨ v.members? = none) ∧
    (i.config.zones ≠ [] → v.members? ≠ none →
      x.simulationEntry i.config.zones (.ofProperty m i p) key v = .ok (.object [])) ∧
    (Supplies m i p key v → ∀ data, x.simulationMembersOf m = .ok data →
      ∃ w, valueUnder i.name p.name key data = some w ∧
        (NormalForm x p.type v w ↔ i.config.zones = [] ∨ v.members? = none) ∧
        (w = .object [] ↔ i.config.zones ≠ [] ∧ v.members? ≠ none)) := by
  have hform : ∀ w, convertUnder x (.ofProperty m i p) key v = .ok w →
      NormalForm x (.struct r) v w := by
    intro w hw
    rw [convertUnder, if_neg hkey] at hw
    exact ht ▸ normalForm_of_simulationValue v _ w hw
  have hempty : i.config.zones ≠ [] → v.members? ≠ none →
      x.simulationEntry i.config.zones (.ofProperty m i p) key v = .ok (.object []) := by
    intro hzones hmembers
    cases v with
    | object ms => exact simulationEntry_of_namesNoZone hzones hfree
    | _ => exact absurd rfl hmembers
  refine ⟨⟨fun h => ?_, fun h => ?_⟩, hempty, fun hsupplies data hdata => ?_⟩
  · by_contra hnot
    obtain ⟨hzones, hmembers⟩ := not_or.mp hnot
    -- without zones the object would be converted to a struct, which is never empty
    rw [hempty hzones hmembers, simulationEntry_whole (.inl rfl)] at h
    exact not_normalForm_struct_empty (hform _ h.symm)
  · rw [simulationEntry_whole h, simulationEntry_whole (.inl rfl)]
  · obtain ⟨w, hw, hentry⟩ := valueUnder_of_supplies hsupplies (moduleData_of_ok hdata)
    refine ⟨w, hw, ?_⟩
    rw [ht, ← not_or]
    rcases hentry.of_namesNoZone hfree with ⟨hwhole, hconverted⟩ | ⟨hnot, rfl⟩
    · have hw : w ≠ .object [] := by
        rintro rfl
        exact not_normalForm_struct_empty (hform _ hconverted)
      exact ⟨iff_of_true (hform w hconverted) hwhole, iff_of_false hw (not_not_intro hwhole)⟩
    · have hnot := not_or.mpr hnot
      exact ⟨iff_of_false not_normalForm_struct_empty hnot, iff_of_true rfl hnot⟩

namespace Sample

/-- The same board without zones. -/
def plainBoard : Interface := { zonedBoard with config := {} }

/-- The module with this board. -/
def plainModule : Module := { boardModule with interfaces := [plainBoard] }

theorem namedPoint_namesNoZone : NamesNoZone ["Left"] namedPoint := by
  rintro ms ⟨⟩
  decide

end Sample

theorem struct_kept_with_zones_iff_default :
    let x : Mapper := ⟨⟨[Sample.zonedModule]⟩, ""⟩
    Sample.zonedOrigin.type = .struct ⟨"m", "Point"⟩ ∧
    NamesNoZone Sample.zonedBoard.config.zones Sample.namedPoint ∧
    x.simulationMembersOf Sample.zonedModule = .ok Sample.zonedData ∧
    valueUnder "Board" "origin" "default" Sample.zonedData = some (.object []) := by
  intro x
  have hsupplies : Supplies Sample.zonedModule Sample.zonedBoard Sample.zonedOrigin "default"
      Sample.namedPoint :=
    ⟨⟨[], [], rfl, List.forall_mem_nil _⟩, [], Sample.originEntries, [], rfl, rfl,
      List.forall_mem_nil _⟩
  have hkept := struct_kept_with_zones_iff x (m := Sample.zonedModule) (i := Sample.zonedBoard)
    (p := Sample.zonedOrigin) rfl (by decide : "default" ≠ "unsupported")
    Sample.namedPoint_namesNoZone
  obtain ⟨w, hw, -, hempty⟩ := hkept.2.2 hsupplies Sample.zonedData rfl
  rw [hempty.mpr ⟨nofun, nofun⟩] at hw
  exact ⟨rfl, Sample.namedPoint_namesNoZone, rfl, hw⟩

theorem not_kept_with_zones :
    let value := valueUnder "Board" "origin" "default"
    Sample.originEntries.default = some Sample.namedPoint ∧
    Sample.zonedBoard.config.zones = ["Left"] ∧ Sample.plainBoard.config.zones = [] ∧
    ((⟨⟨[Sample.zonedModule]⟩, ""⟩ : Mapper).simulationMembersOf Sample.zonedModule).map value =
      .ok (some (.object [])) ∧
    ((⟨⟨[Sample.plainModule]⟩, ""⟩ : Mapper).simulationMembersOf Sample.plainModule).map value =
      .ok (some (.object [("type", .string "Point"), ("value", .array [.int 1, .int 2])])) :=
  ⟨rfl, rfl, rfl, rfl, rfl⟩

end Stencil.Spelling
