import Mathlib.Data.Option.Basic
import Stencil.Prepare.Settings
import Stencil.Proofs.Json.Members
import Stencil.Proofs.Model.TagChange

/-!
# Settings as a projection

Drawing the settings of a model is a projection onto the well-tagged models: those
whose nodes hold a mapping under `config` and whose settings are what the tags ask
for.  A model that is well tagged is not changed, and any other becomes well tagged
with no more change than that takes.
-/

namespace Stencil

/-! ## Projections -/

/-- A function into the elements with a property, which leaves these alone. -/
structure Projection {α : Type} (f : α → α) (P : α → Prop) : Prop where
  into : ∀ x, P (f x)
  fixed : ∀ x, P x → f x = x

namespace Projection

variable {α : Type} {f : α → α} {P : α → Prop}

theorem idem (h : Projection f P) (x : α) : f (f x) = f x := h.fixed (f x) (h.into x)

theorem eq_self_iff (h : Projection f P) (x : α) : f x = x ↔ P x := by
  refine ⟨fun hx => ?_, h.fixed x⟩
  rw [← hx]
  exact h.into x

theorem list (h : Projection f P) : Projection (List.map f) (∀ x ∈ ·, P x) where
  into xs := List.forall_mem_map.mpr fun x _ => h.into x
  fixed xs hxs := by
    rw [List.map_congr_left fun x hx => h.fixed x (hxs x hx)]
    exact List.map_id' xs

end Projection

/-! ## Well-tagged models -/

namespace Model

open Prepare (RunSettings)

/-- A namespace of the tags holds a mapping. -/
def Tags.Holds (t : Tags) (space : String) (ms : Members) : Prop :=
  t.members.get? space = some (.object ms)

/-- The tags have a mapping for settings. -/
def Tags.Configured (t : Tags) : Prop := ∃ ms, t.Holds "config" ms

/-- The tags ask for a text under a key of the settings; an empty text asks for nothing. -/
def Tags.Asks (t : Tags) (key s : String) : Prop :=
  s ≠ "" ∧ ∃ ms, t.Holds "config" ms ∧ ms.get? key = some (.string s)

/-- A setting is what the tags ask for under its key, if they ask for anything. -/
def Tags.Setting (t : Tags) (key : String) (v : Option String) : Prop :=
  ∀ s, v = some s ↔ t.Asks key s

/-- The name of the type in QML is asked for under `qml_type`, or else under `qml_name`. -/
def Tags.QmlType (t : Tags) (v : Option String) : Prop :=
  ∀ s, v = some s ↔
    t.Asks "qml_type" s ∨ (∀ other, ¬ t.Asks "qml_type" other) ∧ t.Asks "qml_name" s

/-- The namespace that the tags ask for; two texts stand for modes of their own. -/
def Tags.Placed (t : Tags) : NamespaceMode → Prop
  | .none => ∀ s, ¬ t.Asks "namespace" s
  | .implicit => t.Asks "namespace" "qt"
  | .fromModule => t.Asks "namespace" "module"
  | .explicit s => t.Asks "namespace" s ∧ s ≠ "qt" ∧ s ≠ "module"

/-- The tags of a module hold the settings of the run. -/
def Tags.HoldsRun (run : RunSettings) (t : Tags) : Prop :=
  ∃ ms, t.Holds "config" ms ∧ ms.get? "module" = some (run.module.elim .null .string) ∧
    ms.get? "force" = some (.bool run.force)

/-- The tags of a property and what is drawn from them. -/
structure Property.WellTagged (p : Property) : Prop where
  mapping : p.tags.Configured
  getter : p.tags.Setting "getter_name" p.config.getterName
  setter : p.tags.Setting "setter_name" p.config.setterName
  simulator : ∀ sim, p.config.simulator = some sim ↔
    ∃ ms, p.tags.Holds "config_simulator" ms ∧ sim = .ofMembers ms

/-- The tags of an interface and its members and what is drawn from them. -/
structure Interface.WellTagged (i : Interface) : Prop where
  mapping : i.tags.Configured
  qmlType : i.tags.QmlType i.config.qmlType
  simulator : ∀ ms, i.config.simulator = some ms ↔ i.tags.Holds "config_simulator" ms
  properties : ∀ p ∈ i.properties, p.WellTagged
  operations : ∀ o ∈ i.operations, o.tags.Configured
  signals : ∀ s ∈ i.signals, s.tags.Configured

/-- The tags of a struct and its fields and what is drawn from them. -/
structure Struct.WellTagged (s : Struct) : Prop where
  mapping : s.tags.Configured
  qmlType : s.tags.QmlType s.config.qmlType
  fields : ∀ f ∈ s.fields, f.tags.Configured

/-- The tags of an enum and its members and what is drawn from them. -/
structure Enum.WellTagged (e : Enum) : Prop where
  mapping : e.tags.Configured
  flagType : e.tags.Setting "type" e.config.flagType
  qmlType : e.tags.QmlType e.config.qmlType
  members : ∀ x ∈ e.members, x.tags.Configured

/-- The tags of a module and its declarations, with what is drawn from them and from the run. -/
structure Module.WellTagged (run : RunSettings) (m : Module) : Prop where
  mapping : m.tags.HoldsRun run
  target : m.config.target = run.module
  force : m.config.force = run.force
  placement : m.tags.Placed m.config.placement
  interfaces : ∀ i ∈ m.interfaces, i.WellTagged
  structs : ∀ s ∈ m.structs, s.WellTagged
  enums : ∀ e ∈ m.enums, e.WellTagged

/-- Every node of the system is tagged, and its settings are what its tags ask for. -/
def System.WellTagged (run : RunSettings) (s : System) : Prop :=
  ∀ m ∈ s.modules, m.WellTagged run

/-! ## Models without what is tagged

All that a run of settings may write is taken away: the tags and the settings of
every node but the parameters, which stay whole. -/

/-- A property without tags and settings. -/
def Property.bare (p : Property) : Property := { p with tags := .empty, config := {} }

/-- An operation without its tags, with its whole parameters. -/
def Operation.bare (o : Operation) : Operation := { o with tags := .empty }

/-- A signal without its tags, with its whole parameters. -/
def Signal.bare (s : Signal) : Signal := { s with tags := .empty }

/-- An interface without tags and settings. -/
def Interface.bare (i : Interface) : Interface :=
  { i with
    tags := .empty
    config := {}
    properties := i.properties.map Property.bare
    operations := i.operations.map Operation.bare
    signals := i.signals.map Signal.bare }

/-- A struct without tags and settings. -/
def Struct.bare (s : Struct) : Struct :=
  { s with tags := .empty, config := {}, fields := s.fields.map Field.untagged }

/-- An enum without tags and settings. -/
def Enum.bare (e : Enum) : Enum :=
  { e with tags := .empty, config := {}, members := e.members.map Member.untagged }

/-- A module without tags and settings. -/
def Module.bare (m : Module) : Module :=
  { m with
    tags := .empty
    config := {}
    interfaces := m.interfaces.map Interface.bare
    structs := m.structs.map Struct.bare
    enums := m.enums.map Enum.bare }

/-- The system without tags and settings, but for the parameters. -/
def System.bare (s : System) : System := ⟨s.modules.map Module.bare⟩

end Model

namespace Prepare

open Model

/-! ## What the tags keep -/

/-- The new tags have a mapping for settings.  Of what was there before, only the entries of the
mapping that are owned may change; a mapping or an entry that was not there comes last. -/
structure Keeps (owned : List String) (old new : Tags) : Prop where
  others : new.members.without ["config"] = old.members.without ["config"]
  order : old.members.keys <+: new.members.keys
  mapping : ∃ ms, new.Holds "config" ms ∧
    ms.without owned = (old.spaceOrEmpty "config").without owned ∧
    (old.spaceOrEmpty "config").keys <+: ms.keys

/-- What may become of the tags of each kind of node: the settings of the run are entries of the
modules, and the tags of parameters stay as they are. -/
def Kept : Address → Tags → Tags → Prop
  | .module _ => Keeps ["module", "force"]
  | .operationParameter .. | .signalParameter .. => (· = ·)
  | _ => Keeps []

section Tags

variable {t : Tags} {space key : String} {ms : Members}

theorem space?_eq_some : t.space? space = some ms ↔ t.Holds space ms := by
  unfold Tags.space? Tags.Holds
  rw [Option.bind_eq_some_iff]
  constructor
  · rintro ⟨value, hvalue, hms⟩
    cases value <;> cases hms
    exact hvalue
  · intro h
    exact ⟨.object ms, h, rfl⟩

theorem spaceOrEmpty_of_holds (h : t.Holds space ms) : t.spaceOrEmpty space = ms := by
  rw [Tags.spaceOrEmpty, space?_eq_some.mpr h]
  rfl

theorem holds_ensure (space : String) (t : Tags) :
    (t.ensure space).Holds space (t.spaceOrEmpty space) :=
  Members.get?_set_self ..

theorem holds_set (h : t.Holds space ms) (key : String) (value : Json) :
    (t.set space key value).Holds space (ms.set key value) := by
  unfold Tags.Holds Tags.set
  rw [spaceOrEmpty_of_holds h]
  exact Members.get?_set_self ..

theorem ensure_eq_self (h : t.Holds space ms) : t.ensure space = t := by
  unfold Tags.ensure
  rw [spaceOrEmpty_of_holds h, Members.set_eq_self h]

theorem set_eq_self {value : Json} (h : t.Holds space ms) (hvalue : ms.get? key = some value) :
    t.set space key value = t := by
  unfold Tags.set
  rw [spaceOrEmpty_of_holds h, Members.set_eq_self hvalue, Members.set_eq_self h]

theorem keeps_ensure (owned : List String) (t : Tags) : Keeps owned t (t.ensure configSpace) where
  others := Members.without_set (List.mem_singleton.mpr rfl) ..
  order := Members.keys_prefix_set ..
  mapping := ⟨_, holds_ensure configSpace t, rfl, List.prefix_rfl⟩

theorem Keeps.set {owned : List String} {old new : Tags} (h : Keeps owned old new)
    (hkey : key ∈ owned) (value : Json) : Keeps owned old (new.set configSpace key value) := by
  obtain ⟨ms, hholds, hwithout, horder⟩ := h.mapping
  refine ⟨?_, ?_, ms.set key value, holds_set hholds key value, ?_, ?_⟩
  · exact (Members.without_set (List.mem_singleton.mpr rfl) ..).trans h.others
  · exact h.order.trans (Members.keys_prefix_set ..)
  · rw [Members.without_set hkey]
    exact hwithout
  · exact horder.trans (Members.keys_prefix_set ..)

theorem keeps_moduleTags (run : RunSettings) (t : Tags) :
    Keeps ["module", "force"] t (moduleTags run t) :=
  ((keeps_ensure _ t).set (by simp) _).set (by simp) _

end Tags

/-! ## The tags at an address -/

section Addresses

variable {α : Type} {R : Tags → Tags → Prop} {f : α → α}

theorem rel_bind_getElem? {g : α → Option Tags} (h : ∀ x, Option.Rel R (g x) (g (f x)))
    (xs : List α) (i : Nat) : Option.Rel R (xs[i]?.bind g) ((xs.map f)[i]?.bind g) := by
  rw [List.getElem?_map]
  cases xs[i]? with
  | none => exact .none
  | some x => exact h x

theorem rel_map_getElem? {g : α → Tags} (h : ∀ x, R (g x) (g (f x))) (xs : List α) (i : Nat) :
    Option.Rel R (xs[i]?.map g) ((xs.map f)[i]?.map g) := by
  rw [Option.map_eq_bind, Option.map_eq_bind]
  exact rel_bind_getElem? (fun x => .some (h x)) xs i

theorem rel_refl (h : ∀ t, R t t) : ∀ t? : Option Tags, Option.Rel R t? t?
  | none => .none
  | some t => .some (h t)

end Addresses

/-- The tags of every node of a module become what they may become. -/
theorem kept_configureModule (run : RunSettings) (m : Module) (a : Address) :
    Option.Rel (Kept a) (m.tags? a) ((configureModule run m).tags? a) := by
  have hensure : ∀ t : Tags, Keeps [] t (t.ensure configSpace) := keeps_ensure []
  cases a with
  | module => exact .some (keeps_moduleTags run m.tags)
  | interface k i => exact rel_map_getElem? (fun i => hensure i.tags) ..
  | struct k s => exact rel_map_getElem? (fun s => hensure s.tags) ..
  | enum k e => exact rel_map_getElem? (fun e => hensure e.tags) ..
  | property k i p =>
      exact rel_bind_getElem? (fun i => rel_map_getElem? (fun p => hensure p.tags) ..) ..
  | operation k i o =>
      exact rel_bind_getElem? (fun i => rel_map_getElem? (fun o => hensure o.tags) ..) ..
  | signal k i s =>
      exact rel_bind_getElem? (fun i => rel_map_getElem? (fun s => hensure s.tags) ..) ..
  | operationParameter k i o p =>
      -- the parameters of an operation are not visited
      refine rel_bind_getElem? (f := configureInterface) (fun face => ?_) ..
      refine rel_bind_getElem? (fun op => ?_) ..
      exact rel_refl (R := Eq) (fun _ => rfl) _
  | signalParameter k i s p =>
      refine rel_bind_getElem? (f := configureInterface) (fun face => ?_) ..
      refine rel_bind_getElem? (fun sig => ?_) ..
      exact rel_refl (R := Eq) (fun _ => rfl) _
  | field k s f =>
      exact rel_bind_getElem? (fun s => rel_map_getElem? (fun f => hensure f.tags) ..) ..
  | member k e x =>
      exact rel_bind_getElem? (fun e => rel_map_getElem? (fun x => hensure x.tags) ..) ..

theorem kept_configure (run : RunSettings) (s : System) (a : Address) :
    Option.Rel (Kept a) (s.tags? a) ((configure run s).tags? a) :=
  rel_bind_getElem? (fun m => kept_configureModule run m a) ..

/-- All but the tags and settings of the nodes stays. -/
theorem bare_configure (run : RunSettings) (s : System) : (configure run s).bare = s.bare := by
  have hinterface : ∀ i, (configureInterface i).bare = i.bare := by
    intro i
    simp [configureInterface, configureProperty, Interface.bare, Property.bare, Operation.bare,
      Signal.bare, Function.comp_def]
  have hstruct : ∀ s, (configureStruct s).bare = s.bare := by
    intro s
    simp [configureStruct, Struct.bare, Field.untagged, Function.comp_def]
  have henum : ∀ e, (configureEnum e).bare = e.bare := by
    intro e
    simp [configureEnum, Enum.bare, Member.untagged, Function.comp_def]
  simp [configure, configureModule, System.bare, Module.bare, Function.comp_def, hinterface,
    hstruct, henum]

/-! ## Settings are what the tags ask for -/

section Settings

variable {t : Tags} {key s : String} {v : Option String}

theorem text?_eq_some {space : String} :
    t.text? space key = some s ↔ ∃ ms, t.Holds space ms ∧ ms.get? key = some (.string s) := by
  unfold Tags.text? Tags.get?
  constructor
  · intro h
    obtain ⟨value, hvalue, hs⟩ := Option.bind_eq_some_iff.mp h
    obtain ⟨ms, hms, hget⟩ := Option.bind_eq_some_iff.mp hvalue
    cases value <;> cases hs
    exact ⟨ms, space?_eq_some.mp hms, hget⟩
  · rintro ⟨ms, hms, hget⟩
    rw [space?_eq_some.mpr hms, Option.bind_some, hget]
    rfl

theorem asks_iff : t.Asks key s ↔ s ≠ "" ∧ t.text? configSpace key = some s := by
  rw [text?_eq_some]
  exact Iff.rfl

theorem setting?_eq_some : setting? t key = some s ↔ t.Asks key s := by
  rw [asks_iff, setting?, Option.filter_eq_some_iff, and_comm]
  simp

theorem setting_iff : t.Setting key v ↔ v = setting? t key := by
  constructor
  · intro h
    refine Option.ext fun s => ?_
    rw [h s, setting?_eq_some]
  · rintro rfl s
    exact setting?_eq_some

theorem qmlTypeSetting?_eq_some : qmlTypeSetting? t = some s ↔
    t.Asks "qml_type" s ∨ (∀ other, ¬ t.Asks "qml_type" other) ∧ t.Asks "qml_name" s := by
  have hnone : setting? t "qml_type" = none ↔ ∀ other, ¬ t.Asks "qml_type" other := by
    rw [Option.eq_none_iff_forall_ne_some]
    exact forall_congr' fun other => not_congr setting?_eq_some
  rw [qmlTypeSetting?, Option.orElse_eq_some, hnone, setting?_eq_some, setting?_eq_some]

theorem qmlType_iff : t.QmlType v ↔ v = qmlTypeSetting? t := by
  constructor
  · intro h
    refine Option.ext fun s => ?_
    rw [h s, qmlTypeSetting?_eq_some]
  · rintro rfl s
    exact qmlTypeSetting?_eq_some

theorem placed_iff {mode : NamespaceMode} :
    t.Placed mode ↔ mode = .ofTag (t.text? configSpace "namespace") := by
  unfold NamespaceMode.ofTag
  cases htext : t.text? configSpace "namespace" with
  | none => cases mode <;> simp [Tags.Placed, asks_iff, htext]
  | some s =>
      -- one text at most is asked for, so a mode is told by what this text is
      have hasks : t.Asks "namespace" s ↔ s ≠ "" := by simp [asks_iff, htext]
      simp only [String.isEmpty_iff]
      cases mode with
      | none => grind [Tags.Placed, asks_iff]
      | implicit => grind [Tags.Placed, asks_iff]
      | fromModule => grind [Tags.Placed, asks_iff]
      | explicit name => grind [Tags.Placed, asks_iff]

end Settings

/-! ## The projection -/

theorem projection_ensure : Projection (Tags.ensure configSpace) Tags.Configured where
  into t := ⟨_, holds_ensure configSpace t⟩
  fixed _ := fun ⟨_, h⟩ => ensure_eq_self h

/-- Nodes without settings of their own, of which nothing but the tags is written. -/
theorem projection_tagged {α : Type} {tagsOf : α → Tags} {f : α → α}
    (htags : ∀ x, tagsOf (f x) = (tagsOf x).ensure configSpace)
    (hself : ∀ x, (tagsOf x).ensure configSpace = tagsOf x → f x = x) :
    Projection f fun x => (tagsOf x).Configured where
  into x := by
    rw [htags]
    exact projection_ensure.into (tagsOf x)
  fixed x h := hself x (projection_ensure.fixed (tagsOf x) h)

theorem projection_moduleTags (run : RunSettings) :
    Projection (moduleTags run) (Tags.HoldsRun run) where
  into t := by
    refine ⟨_, holds_set (holds_set (holds_ensure configSpace t) ..) .., ?_, ?_⟩
    -- the second setting leaves the first one there
    · rw [Members.get?_set_ne _ _ (by decide), Members.get?_set_self]
      cases run.module <;> rfl
    · exact Members.get?_set_self ..
  fixed t := by
    rintro ⟨ms, hholds, hmodule, hforce⟩
    have hvalue : (run.module.map Json.string).getD .null = run.module.elim .null .string := by
      cases run.module <;> rfl
    have hensure : t.ensure configSpace = t := ensure_eq_self hholds
    have hset : t.set configSpace "module" (run.module.elim .null .string) = t :=
      set_eq_self hholds hmodule
    rw [moduleTags, hvalue, hensure, hset]
    exact set_eq_self hholds hforce

theorem projection_configureProperty : Projection configureProperty Property.WellTagged where
  into p := by
    refine ⟨projection_ensure.into p.tags, setting_iff.mpr rfl, setting_iff.mpr rfl, ?_⟩
    intro sim
    simp only [configureProperty, Option.map_eq_some_iff, space?_eq_some]
    exact exists_congr fun ms => and_congr_right fun _ => eq_comm
  fixed p h := by
    have htags : p.tags.ensure configSpace = p.tags := projection_ensure.fixed _ h.mapping
    -- the settings are what the tags ask for already, so drawing them gives them again
    have hsimulator :
        p.config.simulator = (p.tags.space? simulatorSpace).map PropertySimulation.ofMembers := by
      refine Option.ext fun sim => (h.simulator sim).trans ?_
      simp only [Option.map_eq_some_iff, space?_eq_some]
      exact exists_congr fun ms => and_congr_right fun _ => eq_comm
    unfold configureProperty
    dsimp only
    rw [htags, ← setting_iff.mp h.getter, ← setting_iff.mp h.setter, ← hsimulator]

theorem projection_operation :
    Projection (fun o : Operation => { o with tags := o.tags.ensure configSpace })
      fun o => o.tags.Configured :=
  projection_tagged (fun _ => rfl) fun o h => by rw [h]

theorem projection_signal :
    Projection (fun s : Signal => { s with tags := s.tags.ensure configSpace })
      fun s => s.tags.Configured :=
  projection_tagged (fun _ => rfl) fun s h => by rw [h]

theorem projection_field :
    Projection (fun f : Field => { f with tags := f.tags.ensure configSpace })
      fun f => f.tags.Configured :=
  projection_tagged (fun _ => rfl) fun f h => by rw [h]

theorem projection_member :
    Projection (fun x : Member => { x with tags := x.tags.ensure configSpace })
      fun x => x.tags.Configured :=
  projection_tagged (fun _ => rfl) fun x h => by rw [h]

theorem projection_configureInterface : Projection configureInterface Interface.WellTagged where
  into i :=
    { mapping := projection_ensure.into i.tags
      qmlType := qmlType_iff.mpr rfl
      simulator := fun _ => space?_eq_some
      properties := projection_configureProperty.list.into i.properties
      operations := projection_operation.list.into i.operations
      signals := projection_signal.list.into i.signals }
  fixed i h := by
    have htags : i.tags.ensure configSpace = i.tags := projection_ensure.fixed _ h.mapping
    have hsimulator : i.config.simulator = i.tags.space? simulatorSpace :=
      Option.ext fun ms => (h.simulator ms).trans space?_eq_some.symm
    unfold configureInterface
    dsimp only
    rw [htags, ← qmlType_iff.mp h.qmlType, ← hsimulator,
      projection_configureProperty.list.fixed _ h.properties,
      projection_operation.list.fixed _ h.operations, projection_signal.list.fixed _ h.signals]

theorem projection_configureStruct : Projection configureStruct Struct.WellTagged where
  into s :=
    { mapping := projection_ensure.into s.tags
      qmlType := qmlType_iff.mpr rfl
      fields := projection_field.list.into s.fields }
  fixed s h := by
    have htags : s.tags.ensure configSpace = s.tags := projection_ensure.fixed _ h.mapping
    unfold configureStruct
    dsimp only
    rw [htags, ← qmlType_iff.mp h.qmlType, projection_field.list.fixed _ h.fields]

theorem projection_configureEnum : Projection configureEnum Enum.WellTagged where
  into e :=
    { mapping := projection_ensure.into e.tags
      flagType := setting_iff.mpr rfl
      qmlType := qmlType_iff.mpr rfl
      members := projection_member.list.into e.members }
  fixed e h := by
    have htags : e.tags.ensure configSpace = e.tags := projection_ensure.fixed _ h.mapping
    unfold configureEnum
    dsimp only
    rw [htags, ← qmlType_iff.mp h.qmlType, ← setting_iff.mp h.flagType,
      projection_member.list.fixed _ h.members]

theorem projection_configureModule (run : RunSettings) :
    Projection (configureModule run) (Module.WellTagged run) where
  into m :=
    { mapping := (projection_moduleTags run).into m.tags
      target := rfl
      force := rfl
      placement := placed_iff.mpr rfl
      interfaces := projection_configureInterface.list.into m.interfaces
      structs := projection_configureStruct.list.into m.structs
      enums := projection_configureEnum.list.into m.enums }
  fixed m h := by
    have htags : moduleTags run m.tags = m.tags := (projection_moduleTags run).fixed _ h.mapping
    unfold configureModule moduleConfig
    dsimp only
    rw [htags, ← placed_iff.mp h.placement, ← h.target, ← h.force,
      projection_configureInterface.list.fixed _ h.interfaces,
      projection_configureStruct.list.fixed _ h.structs,
      projection_configureEnum.list.fixed _ h.enums]

theorem projection_configure (run : RunSettings) :
    Projection (configure run) (System.WellTagged run) where
  into s := (projection_configureModule run).list.into s.modules
  fixed s h := congrArg System.mk ((projection_configureModule run).list.fixed s.modules h)

/-- Drawing the settings of a system makes it well tagged, and leaves it alone exactly if it was: done
twice it is as if done once.  The tags of every node become what they may become, and all that is
neither tags nor settings stays, the parameters with their tags included. -/
theorem configure_wellTagged (run : RunSettings) (s : System) :
    configure run (configure run s) = configure run s ∧
    (configure run s).WellTagged run ∧
    (configure run s = s ↔ s.WellTagged run) ∧
    (∀ a, Option.Rel (Kept a) (s.tags? a) ((configure run s).tags? a)) ∧
    (configure run s).bare = s.bare :=
  have hprojection := projection_configure run
  ⟨hprojection.idem s, hprojection.into s, hprojection.eq_self_iff s, kept_configure run s,
    bare_configure run s⟩

end Prepare

end Stencil
