import Stencil.Files.Volume
import Stencil.Report.Failure
import Stencil.Sorted

/-!
# The catalogue of templates

A template is a directory with a rules file of its name beside it.  The
directories of a search path are looked through in order, and the first one that
has a template of some name decides where that template is.
-/

namespace Stencil.Generate

open Files Report

/-- The extension of rules files. -/
def rulesExtension : String := "yaml"

/-- The stems of the rules files in a directory, from its entries as they are listed.  A stem that is
no text is read as one. -/
def rulesStems (v : Volume) (directory : String) (listed : List FileName) : List String :=
  (listed.filter fun name => v.isFile directory name && name.hasExtension rulesExtension).filterMap
    FileName.stem?

/-- The names of the templates in a directory, in order. -/
def templateNames (v : Volume) (directory : String) : List String :=
  sortTexts (rulesStems v directory ((v.list? directory).getD []))

/-- The templates of a search path with their directories. -/
def catalogue (v : Volume) (search : List String) : List (String × String) :=
  let all := search.flatMap fun directory =>
    (templateNames v directory).map fun name => (name, Path.join directory name)
  all.foldl (fun found entry =>
    if found.any (·.1 = entry.1) then found else found ++ [entry]) []

/-- The directory of a template: the one of its name in the catalogue, or else the path itself. -/
def templateDirectory (v : Volume) (template : String) (search : List String) :
    Except Failure String :=
  let found := catalogue v search
  match found.lookup template with
  | some path => .ok path
  | none =>
      if v.tree.exists_ template then .ok template
      else .error (.unknownTemplate template (found.map (·.1)))

end Stencil.Generate
