import Stencil.Model.Module

/-!
# The system of modules

Modules in the order in which they were added, no two of one name.
-/

namespace Stencil.Model

/-- All modules of a model. -/
structure System where
  modules : List Module
  deriving DecidableEq, Inhabited

/-- The only way in which a module cannot be added: its name is taken. -/
structure DuplicateModule where
  name : String
  deriving DecidableEq, Repr

/-- The text of the error. -/
def DuplicateModule.message (e : DuplicateModule) : String :=
  "module '" ++ e.name ++ "' is declared more than once"

namespace System

/-- No modules. -/
def empty : System := ⟨[]⟩

/-- The names of the modules, in order. -/
def names (s : System) : List String := s.modules.map (·.name)

/-- The module of a name. -/
def module? (s : System) (name : String) : Option Module := s.modules.find? (·.name = name)

/-- The position of the module of a name. -/
def index? (s : System) (name : String) : Option Nat := s.modules.findIdx? (·.name = name)

/-- Whether there is a module of this name. -/
def contains (s : System) (name : String) : Bool := s.modules.any (·.name = name)

/-- Adds a module at the end. -/
def add (s : System) (m : Module) : Except DuplicateModule System :=
  if s.contains m.name then .error ⟨m.name⟩ else .ok ⟨s.modules ++ [m]⟩

/-- The imports of a module that name no module of the system. -/
def unresolvedImports (s : System) (m : Module) : List String :=
  m.imports.filter fun name => !s.contains name

/-- The declaration of an enum or of flags. -/
def enum? (s : System) (r : SymbolRef) : Option (Module × Enum) :=
  (s.module? r.module).bind fun m => (m.enum? r.name).map (m, ·)

/-- The declaration of a struct. -/
def struct? (s : System) (r : SymbolRef) : Option (Module × Struct) :=
  (s.module? r.module).bind fun m => (m.struct? r.name).map (m, ·)

/-- The declaration of an interface. -/
def interface? (s : System) (r : SymbolRef) : Option (Module × Interface) :=
  (s.module? r.module).bind fun m => (m.interface? r.name).map (m, ·)

end System

end Stencil.Model
