import Stencil.Proofs.Distinct
import Stencil.Proofs.Generate.Deed

/-!
# Loading filter sets

A run notes the name of a filter set and then installs the set.  Every set is installed
once, however often it is asked for.  A name without a set is noted as well: the first
call for it is refused, and each later one is taken for a repetition and succeeds with
nothing installed.  A run of a plan ends with the first refusal and never comes to a
repetition of it.
-/

namespace Stencil.Template

/-! ## Sets and their names -/

namespace Registry

variable {registry : Registry} {name : String} {set : FilterSet}

theorem name_of_plugin? (h : registry.plugin? name = some set) : set.name = name := by
  simpa using List.find?_some h

theorem contains_iff : registry.contains name = true ↔ ∃ set, registry.plugin? name = some set := by
  unfold contains plugin?
  rw [← Option.isSome_iff_exists, List.find?_isSome, List.any_eq_true]

theorem plugin?_eq_none (h : registry.contains name = false) : registry.plugin? name = none := by
  cases hplugin : registry.plugin? name with
  | none => rfl
  | some set =>
      rw [contains_iff.mpr ⟨set, hplugin⟩] at h
      cases h

/-- The names of the sets that some names stand for are those of them that stand for one. -/
theorem names_of_plugins (registry : Registry) (names : List String) :
    (names.filterMap registry.plugin?).map (·.name) = names.filter registry.contains := by
  induction names with
  | nil => rfl
  | cons name rest ih =>
      cases hplugin : registry.plugin? name with
      | none =>
          have hcontains : ¬ registry.contains name = true := by
            simp [contains_iff, hplugin]
          rw [List.filterMap_cons_none hplugin, List.filter_cons_of_neg hcontains, ih]
      | some set =>
          have hcontains : registry.contains name = true := contains_iff.mpr ⟨set, hplugin⟩
          rw [List.filterMap_cons_some hplugin, List.filter_cons_of_pos hcontains, List.map_cons,
            name_of_plugin? hplugin, ih]

end Registry

namespace Engine

/-- Whether the filters of a set have been installed. -/
def Has (e : Engine) (set : FilterSet) : Prop := set.filters.reverse <:+: e.filters

/-- Installs sets one after the other. -/
def installAll (sets : List FilterSet) (e : Engine) : Engine :=
  sets.foldl (fun e set => e.install set) e

theorem installAll_concat (sets : List FilterSet) (set : FilterSet) (e : Engine) :
    e.installAll (sets ++ [set]) = (e.installAll sets).install set := by
  unfold installAll
  rw [List.foldl_append]
  rfl

theorem has_install (e : Engine) (set : FilterSet) : (e.install set).Has set :=
  ⟨[], e.filters, rfl⟩

/-- An installed set is not removed by another one. -/
theorem Has.install {e : Engine} {set : FilterSet} (h : e.Has set) (other : FilterSet) :
    (e.install other).Has set :=
  h.trans (List.suffix_append _ _).isInfix

theorem has_installAll {sets : List FilterSet} {set : FilterSet} (h : set ∈ sets) (e : Engine) :
    (e.installAll sets).Has set := by
  induction sets using List.reverseRec with
  | nil => cases h
  | append_singleton sets other ih =>
      rw [installAll_concat]
      rcases List.mem_append.mp h with h | h
      · exact (ih h).install other
      · obtain rfl := List.mem_singleton.mp h
        exact has_install _ _

end Engine

end Stencil.Template

namespace Stencil.Generate

open Template

namespace Bench

variable {registry : Registry} {b : Bench} {name : String}

/-! ## All calls -/

/-- Asks for filter sets one after the other, whatever becomes of each call. -/
def ask (registry : Registry) (names : List String) (b : Bench) : Bench :=
  names.foldl (fun b name => (b.load registry name).2) b

theorem ask_concat (registry : Registry) (names : List String) (name : String) (b : Bench) :
    b.ask registry (names ++ [name]) = ((b.ask registry names).load registry name).2 := by
  unfold ask
  rw [List.foldl_append]
  rfl

/-- A run that has asked for nothing yet has noted, after some calls, every name that it was asked
for, and installed the sets of these names once each; nothing else has changed. -/
theorem ask_eq (hb : b.loaded = []) (names : List String) :
    b.ask registry names =
      { b with
        loaded := (distinct names).reverse
        desk :=
          { b.desk with
            engine := b.desk.engine.installAll ((distinct names).filterMap registry.plugin?) } } := by
  induction names using List.reverseRec with
  | nil =>
      cases b
      cases hb
      rfl
  | append_singleton names name ih =>
      rw [ask_concat, ih]
      by_cases hmem : name ∈ names
      · rw [load_repeated (by simpa using hmem), distinct_repeated hmem]
      · have hfresh : name ∉ (distinct names).reverse := by simpa using hmem
        rw [distinct_fresh hmem, List.filterMap_append]
        cases hset : registry.plugin? name with
        | none =>
            rw [load_unregistered hfresh hset]
            simp [hset]
        | some set =>
            rw [load_registered hfresh hset]
            simp [hset, Engine.installAll_concat]

theorem mem_loaded_ask (hb : b.loaded = []) {names : List String} :
    name ∈ (b.ask registry names).loaded ↔ name ∈ names := by
  rw [ask_eq hb]
  simp

/-- What a call should come to: it succeeds only if there is a set of the name, which has been
installed then, and it is refused if there is none, with nothing noted. -/
structure LoadsSoundly (registry : Registry) (name : String) (b : Bench) : Prop where
  succeeds : (b.load registry name).1 = none →
    ∃ set, registry.plugin? name = some set ∧ (b.load registry name).2.desk.engine.Has set
  refuses : registry.contains name = false →
    (b.load registry name).1 = some (.unknownFilterSet name) ∧
      (b.load registry name).2.loaded = b.loaded

/-- A call succeeds if there is a set of the name, or if the name was asked for before. -/
theorem load_ask (hb : b.loaded = []) (names : List String) :
    ((b.ask registry names).load registry name).1 =
      if registry.contains name || decide (name ∈ names) then none
      else some (.unknownFilterSet name) := by
  by_cases hmem : name ∈ names
  · rw [load_repeated ((mem_loaded_ask hb).mpr hmem)]
    simp [hmem]
  · have hfresh : name ∉ (b.ask registry names).loaded := fun h => hmem ((mem_loaded_ask hb).mp h)
    cases hcontains : registry.contains name with
    | true =>
        obtain ⟨set, hset⟩ := Registry.contains_iff.mp hcontains
        rw [load_registered hfresh hset]
        rfl
    | false =>
        rw [load_unregistered hfresh (Registry.plugin?_eq_none hcontains)]
        simp [hmem]

/-- The set of a registered name that was asked for has been installed. -/
theorem has_ask (hb : b.loaded = []) {names : List String} (hmem : name ∈ names) {set : FilterSet}
    (hset : registry.plugin? name = some set) : (b.ask registry names).desk.engine.Has set := by
  rw [ask_eq hb]
  exact Engine.has_installAll
    (List.mem_filterMap.mpr ⟨name, mem_distinct.mpr hmem, hset⟩) b.desk.engine

theorem loadsSoundly_ask (hb : b.loaded = []) (names : List String) :
    (b.ask registry names).LoadsSoundly registry name ↔ registry.contains name = true := by
  constructor
  · intro h
    cases hcontains : registry.contains name with
    | true => rfl
    | false =>
        obtain ⟨hrefused, hnoted⟩ := h.refuses hcontains
        -- the call is refused, so that it is the first one for the name; but then it is noted
        have hfresh : name ∉ (b.ask registry names).loaded := by
          intro hmem
          rw [load_repeated hmem] at hrefused
          cases hrefused
        rw [load_unregistered hfresh (Registry.plugin?_eq_none hcontains)] at hnoted
        exact absurd (hnoted ▸ List.mem_cons_self) hfresh
  · intro hcontains
    obtain ⟨set, hset⟩ := Registry.contains_iff.mp hcontains
    refine ⟨fun _ => ⟨set, hset, ?_⟩, fun h => ?_⟩
    · rw [← ask_concat]
      exact has_ask hb (List.mem_append_right names List.mem_cons_self) hset
    · rw [hcontains] at h
      cases h

/-- After any calls, each set whose name was asked for has been installed once and nothing else has.
The next call fails exactly if its name has no set and was never asked for; it does what it should
exactly if its name has a set. -/
theorem load_after_calls (registry : Registry) (b : Bench) (hb : b.loaded = [])
    (names : List String) (name : String) :
    let before := b.ask registry names
    let sets := (distinct names).filterMap registry.plugin?
    (before.desk.engine = b.desk.engine.installAll sets ∧ (sets.map (·.name)).Nodup ∧
      before.loaded = (distinct names).reverse) ∧
    ((before.load registry name).1 =
      if registry.contains name || decide (name ∈ names) then none
      else some (.unknownFilterSet name)) ∧
    (before.LoadsSoundly registry name ↔ registry.contains name = true) := by
  intro before sets
  have hbefore : before = _ := ask_eq hb names
  refine ⟨⟨?_, ?_, ?_⟩, load_ask hb names, loadsSoundly_ask hb names⟩
  · rw [hbefore]
  · rw [Registry.names_of_plugins]
    exact (nodup_distinct names).filter _
  · rw [hbefore]

/-! ## Runs -/

/-- Whether all names that a run has noted have sets. -/
def KnowsItsSets (registry : Registry) (b : Bench) : Prop :=
  ∀ name ∈ b.loaded, registry.contains name = true

variable {setting : Setting}

theorem knowsItsSets_of_step {s : Step} {after : Bench} (h : b.step setting s = (none, after))
    (hb : b.KnowsItsSets setting.registry) :
    after.KnowsItsSets setting.registry ∧
      ∀ name, s = .load name → setting.registry.contains name = true := by
  cases s with
  | load name =>
      rcases cases_of_load h with ⟨hmem, rfl⟩ | ⟨-, set, hset, rfl⟩
      · exact ⟨hb, fun other hother => by cases hother; exact hb name hmem⟩
      · have hcontains := Registry.contains_iff.mpr ⟨set, hset⟩
        refine ⟨fun other hother => ?_, fun other hother => by cases hother; exact hcontains⟩
        rcases List.mem_cons.mp hother with rfl | hother
        · exact hcontains
        · exact hb other hother
  | warn message =>
      cases h
      exact ⟨hb, nofun⟩
  | write w =>
      obtain ⟨_, _, _, _, _, -, -, rfl⟩ := rendered_of_write h
      exact ⟨hb, nofun⟩
  | stop f => cases h

/-- A run that succeeds has asked for registered sets only. -/
theorem registered_of_perform {p : Plan} {b : Bench} (h : (b.perform setting p).1 = none)
    (hb : b.KnowsItsSets setting.registry) :
    ∀ name, .load name ∈ p → setting.registry.contains name = true := by
  induction p, b, h using perform_induction with
  | nil b =>
      intro name hmem
      cases hmem
  | cons s rest b after hstep hrest ih =>
      intro name hmem
      obtain ⟨hafter, hloaded⟩ := knowsItsSets_of_step hstep hb
      rcases List.mem_cons.mp hmem with hhere | hlater
      · exact hloaded name hhere.symm
      · exact ih hafter name hlater

end Bench

/-! ## A name that is asked for twice -/

namespace Sample

/-- A registry with one set that can be installed by name. -/
def shouting : Registry where
  plugins := [.single "shout" fun text => text ++ "!"]

end Sample

/-- Between calls for a set, a name without one is refused once and then succeeds. -/
theorem load_after_calls_gone :
    Sample.bench.loaded = [] ∧
      (Sample.bench.ask Sample.shouting ["shout", "gone", "shout"]).loaded = ["gone", "shout"] ∧
      ((Sample.bench.ask Sample.shouting ["shout"]).load Sample.shouting "gone").1 =
        some (.unknownFilterSet "gone") ∧
      ((Sample.bench.ask Sample.shouting ["shout", "gone", "shout"]).load
        Sample.shouting "gone").1 = none := by
  have hfresh : Sample.bench.loaded = [] := rfl
  obtain ⟨-, hfirst, -⟩ :=
    Bench.load_after_calls Sample.shouting Sample.bench hfresh ["shout"] "gone"
  obtain ⟨⟨-, -, hnoted⟩, hsecond, -⟩ :=
    Bench.load_after_calls Sample.shouting Sample.bench hfresh ["shout", "gone", "shout"] "gone"
  exact ⟨hfresh, hnoted.trans (by decide), hfirst.trans (by decide), hsecond.trans (by decide)⟩

/-- A second call for a name without a set succeeds. -/
theorem not_loadsSoundly_after_refusal :
    ¬ ∀ (registry : Registry) (b : Bench) (names : List String) (name : String), b.loaded = [] →
      (b.ask registry names).LoadsSoundly registry name := by
  intro hall
  have hsound := hall Sample.shouting Sample.bench ["gone"] "gone" rfl
  obtain ⟨set, hset, -⟩ := hsound.succeeds (by decide)
  exact absurd hset (by simp [Sample.shouting, Registry.plugin?, FilterSet.single])

end Stencil.Generate
