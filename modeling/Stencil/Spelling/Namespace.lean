import Stencil.Model.Module

/-!
# Namespaces of the generated code

Where the code of a module is placed, and the lines that open and close its
namespace.
-/

namespace Stencil.Spelling

open Model (Module NamespaceMode)

/-- The name of a module as a nested namespace. -/
def nestedName (m : Module) : String := String.intercalate "::" (Text.split '.' m.name)

/-- The namespace of a module, empty for none. -/
def namespaceOf (m : Module) : String :=
  match m.config.placement with
  | .none | .implicit => ""
  | .fromModule => nestedName m
  | .explicit name => name

/-- The namespace of a module, to stand before the name of a class. -/
def namespacePrefix (m : Module) : String :=
  let name := namespaceOf m
  if name.isEmpty then "" else "::" ++ name ++ "::"

/-- The line that opens the namespace of a module. -/
def beginNamespace (m : Module) : String :=
  match m.config.placement with
  | .none => ""
  | .implicit => "QT_BEGIN_NAMESPACE"
  | .fromModule => "namespace " ++ nestedName m ++ " \x7b"
  | .explicit name => "namespace " ++ name ++ " \x7b"

/-- The line that closes the namespace of a module. -/
def endNamespace (m : Module) : String :=
  match m.config.placement with
  | .none => ""
  | .implicit => "QT_END_NAMESPACE"
  | .fromModule => "\x7d; // namespace " ++ nestedName m
  | .explicit name => "\x7d; // namespace " ++ name

end Stencil.Spelling
