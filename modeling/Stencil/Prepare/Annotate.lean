import Stencil.Model.Node
import Stencil.Report.Reporter

/-!
# Annotations merged into a model

An annotation document maps qualified names to tags, which are merged into the
tags of the nodes of those names.
-/

namespace Stencil.Prepare

open Model (System Tags)
open Report (Reporter)

/-- A model together with the number of nodes that got tags and the reports about it. -/
structure Annotated where
  system : System
  merged : Nat
  reporter : Reporter

/-- Merges one entry of an annotation document. -/
def annotateEntry (origin : String) (a : Annotated) (entry : String × Json) : Annotated :=
  let (name, value) := entry
  match a.system.find? name with
  | none =>
      { a with
        reporter := a.reporter.warnAt (some origin)
          ("annotation for '" ++ name ++ "' does not match any symbol") }
  | some address =>
      match value with
      | .object members =>
          { a with
            system := a.system.modifyTags address (Tags.merge members)
            merged := a.merged + 1 }
      | .null => a
      | _ =>
          { a with
            reporter := a.reporter.warnAt (some origin)
              ("annotation for '" ++ name ++ "' must be a mapping") }

/-- Merges an annotation document, entry by entry. -/
def annotate (annotations : Members) (origin : String) (system : System) (reporter : Reporter) :
    Annotated :=
  annotations.foldl (annotateEntry origin) ⟨system, 0, reporter⟩

end Stencil.Prepare
