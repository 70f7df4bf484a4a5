import Stencil.Model.System

/-!
# Settings drawn from tags

Every node but a parameter gets a mapping under the tag `config`; the modules
also get the settings of the run there.  The settings records of the nodes are
then those that their tags ask for.
-/

namespace Stencil.Prepare

open Model

/-- The settings of a run that every module carries. -/
structure RunSettings where
  module : Option String
  force : Bool
  deriving DecidableEq, Inhabited

/-- The tag that holds the settings of a node. -/
def configSpace : String := "config"

/-- The tag that holds what the simulation knows of a node. -/
def simulatorSpace : String := "config_simulator"

/-- A text under `config` that is not empty. -/
def setting? (t : Tags) (key : String) : Option String :=
  (t.text? configSpace key).filter (!·.isEmpty)

/-- The type name that the tags ask for; `qml_name` is the older key. -/
def qmlTypeSetting? (t : Tags) : Option String := setting? t "qml_type" <|> setting? t "qml_name"

/-- The tags of a module with the settings of the run. -/
def moduleTags (run : RunSettings) (t : Tags) : Tags :=
  let module := (run.module.map Json.string).getD .null
  ((t.ensure configSpace).set configSpace "module" module).set configSpace "force"
    (.bool run.force)

/-- The settings of a module with the given tags. -/
def moduleConfig (run : RunSettings) (t : Tags) : ModuleConfig :=
  ⟨run.module, run.force, .ofTag (t.text? configSpace "namespace")⟩

/-- A property with its settings. -/
def configureProperty (p : Property) : Property :=
  let tags := p.tags.ensure configSpace
  { p with
    tags
    config :=
      { getterName := setting? tags "getter_name"
        setterName := setting? tags "setter_name"
        simulator := (tags.space? simulatorSpace).map PropertySimulation.ofMembers } }

/-- An interface with its settings and those of its members. -/
def configureInterface (i : Interface) : Interface :=
  let tags := i.tags.ensure configSpace
  { i with
    tags
    config := { qmlType := qmlTypeSetting? tags, simulator := tags.space? simulatorSpace }
    properties := i.properties.map configureProperty
    operations := i.operations.map fun o => { o with tags := o.tags.ensure configSpace }
    signals := i.signals.map fun s => { s with tags := s.tags.ensure configSpace } }

/-- A struct with its settings. -/
def configureStruct (s : Struct) : Struct :=
  let tags := s.tags.ensure configSpace
  { s with
    tags
    config := { qmlType := qmlTypeSetting? tags }
    fields := s.fields.map fun f => { f with tags := f.tags.ensure configSpace } }

/-- An enum with its settings. -/
def configureEnum (e : Enum) : Enum :=
  let tags := e.tags.ensure configSpace
  { e with
    tags
    config := { flagType := setting? tags "type", qmlType := qmlTypeSetting? tags }
    members := e.members.map fun x => { x with tags := x.tags.ensure configSpace } }

/-- A module with its settings and those of its declarations. -/
def configureModule (run : RunSettings) (m : Module) : Module :=
  let tags := moduleTags run m.tags
  { m with
    tags
    config := moduleConfig run tags
    interfaces := m.interfaces.map configureInterface
    structs := m.structs.map configureStruct
    enums := m.enums.map configureEnum }

/-- The system with the settings of all its nodes. -/
def configure (run : RunSettings) (s : System) : System :=
  ⟨s.modules.map (configureModule run)⟩

end Stencil.Prepare
