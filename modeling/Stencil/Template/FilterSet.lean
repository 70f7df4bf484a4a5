import Stencil.Sorted
import Stencil.Template.Filter

/-!
# Filter sets

Named groups of filters.  The default sets are there from the start; the others
are installed when a template or a rule document asks for them by name.
-/

namespace Stencil.Template

/-- A filter: what it makes of a value and arguments. -/
abbrev Filter := World → Value → Arguments → Outcome

/-- A named group of filters. -/
structure FilterSet where
  name : String
  filters : List (String × Filter)

/-- A set of one filter that has the set's name and works on the text of a value. -/
def FilterSet.single (name : String) (f : String → String) : FilterSet where
  name := name
  filters := [(name, fun w v as => do
    as.atMost 0
    pure (.ofText (f (w.text v))))]

/-- The filter sets that a run can use. -/
structure Registry where
  defaults : List FilterSet := []
  plugins : List FilterSet := []

namespace Registry

/-- Adds a set that can be installed by name, in place of an earlier one of the same name. -/
def withPlugin (set : FilterSet) (r : Registry) : Registry :=
  let replaced := r.plugins.map fun s => if s.name = set.name then set else s
  { r with
    plugins := if r.plugins.any (·.name = set.name) then replaced else r.plugins ++ [set] }

/-- Whether a set can be installed. -/
def contains (r : Registry) (name : String) : Bool := r.plugins.any (·.name = name)

/-- The names of the sets that can be installed. -/
def pluginNames (r : Registry) : List String := r.plugins.map (·.name)

/-- The set of a name that can be installed. -/
def plugin? (r : Registry) (name : String) : Option FilterSet :=
  r.plugins.find? (·.name = name)

end Registry

end Stencil.Template
