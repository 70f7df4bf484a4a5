import Stencil.Model.Config
import Stencil.Model.DataType
import Stencil.Model.Tags
import Stencil.Model.Version
import Stencil.Text.Case

/-!
# Modules and their declarations

A module declares interfaces, structs and enums, each with members of its own.
-/

namespace Stencil.Model

/-- A parameter of an operation or signal. -/
structure Parameter where
  name : String
  type : DataType
  tags : Tags := .empty
  deriving DecidableEq, Inhabited

/-- A property of an interface. -/
structure Property where
  name : String
  type : DataType
  readonly : Bool := false
  constant : Bool := false
  comment : String := ""
  tags : Tags := .empty
  config : PropertyConfig := {}
  deriving DecidableEq, Inhabited

/-- An operation of an interface; its type is that of the result. -/
structure Operation where
  name : String
  type : DataType
  parameters : List Parameter := []
  constant : Bool := false
  comment : String := ""
  tags : Tags := .empty
  deriving DecidableEq, Inhabited

/-- A signal of an interface. -/
structure Signal where
  name : String
  parameters : List Parameter := []
  comment : String := ""
  tags : Tags := .empty
  deriving DecidableEq, Inhabited

/-- An interface. -/
structure Interface where
  name : String
  comment : String := ""
  properties : List Property := []
  operations : List Operation := []
  signals : List Signal := []
  tags : Tags := .empty
  config : InterfaceConfig := {}
  deriving DecidableEq, Inhabited

/-- A field of a struct. -/
structure Field where
  name : String
  type : DataType
  comment : String := ""
  tags : Tags := .empty
  deriving DecidableEq, Inhabited

/-- A struct. -/
structure Struct where
  name : String
  comment : String := ""
  fields : List Field := []
  tags : Tags := .empty
  config : StructConfig := {}
  deriving DecidableEq, Inhabited

/-- A member of an enum. -/
structure Member where
  name : String
  value : Option Int := none
  comment : String := ""
  tags : Tags := .empty
  deriving DecidableEq, Inhabited

/-- An enum, or a set of flags. -/
structure Enum where
  name : String
  isFlag : Bool := false
  comment : String := ""
  members : List Member := []
  tags : Tags := .empty
  config : EnumConfig := {}
  deriving DecidableEq, Inhabited

/-- A module. -/
structure Module where
  name : String
  version : Version
  imports : List String := []
  comment : String := ""
  interfaces : List Interface := []
  structs : List Struct := []
  enums : List Enum := []
  tags : Tags := .empty
  config : ModuleConfig := {}
  source : Option String := none
  deriving DecidableEq, Inhabited

/-- The first property of a name. -/
def Interface.property? (i : Interface) (name : String) : Option Property :=
  i.properties.find? (·.name = name)

/-- The first operation of a name. -/
def Interface.operation? (i : Interface) (name : String) : Option Operation :=
  i.operations.find? (·.name = name)

/-- The first signal of a name. -/
def Interface.signal? (i : Interface) (name : String) : Option Signal :=
  i.signals.find? (·.name = name)

/-- The first field of a name. -/
def Struct.field? (s : Struct) (name : String) : Option Field := s.fields.find? (·.name = name)

/-- The first member of a name. -/
def Enum.member? (e : Enum) (name : String) : Option Member := e.members.find? (·.name = name)

namespace Module

/-- The parts of the dotted name. -/
def nameParts (m : Module) : List String := Text.split '.' m.name

/-- The last part of the name with a capital letter. -/
def shortName (m : Module) : String := Text.capitalize (Text.afterLast '.' m.name)

/-- The first interface of a name. -/
def interface? (m : Module) (name : String) : Option Interface :=
  m.interfaces.find? (·.name = name)

/-- The first struct of a name. -/
def struct? (m : Module) (name : String) : Option Struct := m.structs.find? (·.name = name)

/-- The first enum of a name. -/
def enum? (m : Module) (name : String) : Option Enum := m.enums.find? (·.name = name)

/-- Whether the module declares a type of this name. -/
def declares (m : Module) (name : String) : Bool :=
  (m.interface? name).isSome || (m.struct? name).isSome || (m.enum? name).isSome

/-- Whether the module declares no type. -/
def isEmpty (m : Module) : Bool :=
  m.interfaces.isEmpty && m.structs.isEmpty && m.enums.isEmpty

end Module

end Stencil.Model
