import Stencil.Document.System
import Stencil.Files.Tree

/-!
# Loading documents

Documents and annotations are read from a file tree.  A directory stands for the
documents in it and below it.
-/

namespace Stencil.Document

open Files

/-- The extensions of documents. -/
def extensions : List String := ["yaml", "yml", "json"]

/-- The text of a file. -/
def read (t : Files.Tree) (path : String) : Except Error Origin :=
  match t.readText path with
  | .ok text => .ok ⟨path, text⟩
  | .error _ => .error (.unreadable path)

/-- Reads one document. -/
def readSource (t : Files.Tree) (path : String) : Except Error Source := do
  let origin ← read t path
  match ofText? origin.text with
  | some document => return ⟨origin, document⟩
  | none => throw .malformed

/-- The system that the documents at some paths describe. -/
def load (t : Files.Tree) (paths : List String) : Except Error Model.System := do
  build (← paths.mapM (readSource t))

/-- The name of the module that the document at a path describes. -/
def readModuleName (t : Files.Tree) (path : String) : Except Error String := do
  let origin ← read t path
  match moduleNameOfText? origin.text with
  | some name => return name
  | none => throw .malformed

/-- The names of the modules that the documents at some paths describe, in order, each once. -/
def loadModuleNames (t : Files.Tree) (paths : List String) : Except Error (List String) := do
  return distinct (← paths.mapM (readModuleName t))

/-- Whether a path has the extension of a document. -/
def isDocument (path : String) : Bool :=
  match Path.extension? path with
  | some e => extensions.contains e
  | none => false

/-- The paths of the documents in a directory and below it, in no particular order. -/
def scan (t : Files.Tree) : Nat → String → List String
  | 0, _ => []
  | depth + 1, directory =>
      (((t.list? directory).getD []).map (Path.join directory)).flatMap fun path =>
        if t.isDirectory path then scan t depth path
        else if isDocument path then [path] else []

/-- The documents that a path stands for: itself, or those in a directory in path order. -/
def collect (t : Files.Tree) (path : String) : List String :=
  if t.isDirectory path then
    sortDistinct Path.lt (scan t (t.entries.length + 1) path)
  else [path]

/-- Annotations: the members of a mapping. -/
def annotationsOfText? (text : String) : Option Members :=
  if Text.isBlankText text then some []
  else
    match Yaml.Node.ofText text with
    | .error _ => none
    | .ok n =>
        match n.present? with
        | none => none
        | some none => some []
        | some (some (.mapping _ entries)) =>
            (Yaml.Node.jsonEntries? false entries).map Members.ofPairs
        | some (some _) => none

/-- The annotations in a file. -/
def loadAnnotations (t : Files.Tree) (path : String) : Except Error Members := do
  let origin ← read t path
  match annotationsOfText? origin.text with
  | some ms => return ms
  | none => throw (.annotations path)

end Stencil.Document
