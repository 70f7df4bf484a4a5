import Stencil.Files.Tree
import Stencil.Text.Utf8

/-!
# Entries whose names are no texts

A directory can have entries with names that are no texts.  Paths are texts, so none leads to such
an entry, but the directory lists it.
-/

namespace Stencil.Files

/-- Bytes that name an entry and are no text. -/
structure BrokenName where
  bytes : List UInt8
  broken : none ∈ Text.decode 0 bytes
  separator : 0x2F ∉ bytes
  deriving DecidableEq, Repr

/-- The name of an entry of a directory. -/
inductive FileName where
  | text (s : String)
  | broken (name : BrokenName)
  deriving DecidableEq, Repr

namespace FileName

/-- The bytes of a name. -/
def bytes : FileName → List UInt8
  | .text s => Text.utf8 s
  | .broken name => name.bytes

/-- Bytes cut before their last dot unless that dot is the first of them. -/
def cutBytes (bytes : List UInt8) : List UInt8 × Option (List UInt8) :=
  match Text.cutLastList 0x2E bytes with
  | some (stem, ext) => if stem.isEmpty then (bytes, none) else (stem, some ext)
  | none => (bytes, none)

/-- The name without its extension, as a text. -/
def stem? : FileName → Option String
  | .text s => Path.stem? s
  | .broken name => some (Text.ofBytes (cutBytes name.bytes).1)

/-- Whether the last dot of the name is followed by a text. -/
def hasExtension (ext : String) : FileName → Bool
  | .text s => Path.extension? s = some ext
  | .broken name => (cutBytes name.bytes).2 = some (Text.utf8 ext)

end FileName

/-- A tree, and the entries of its directories whose names are no texts, each with the location of
its directory. -/
structure Volume where
  tree : Tree
  broken : List ((Location × BrokenName) × Entry)

namespace Volume

/-- A tree as a volume in which all names are texts. -/
def ofTree (t : Tree) : Volume := ⟨t, []⟩

instance : Coe Tree Volume := ⟨ofTree⟩

/-- What stands under a name in a directory. -/
def get? (v : Volume) (l : Location) : FileName → Option Entry
  | .text s => v.tree.get? (l ++ [s])
  | .broken name => v.broken.lookup (l, name)

/-- The names of the entries of a directory. -/
def names (v : Volume) (l : Location) : List FileName :=
  (v.tree.names l).map .text ++
    v.broken.filterMap fun ((m, name), _) => if m = l then some (.broken name) else none

/-- The entries of the directory that a path denotes. -/
def list? (v : Volume) (path : String) : Option (List FileName) :=
  match v.tree.place path with
  | .ok (.found l .directory) => some (v.names l)
  | _ => none

/-- Whether a name denotes a file when it is read from the path of a directory. -/
def isFile (v : Volume) (directory : String) : FileName → Bool
  | .text s => v.tree.isFile (Path.join directory s)
  | .broken name =>
      match v.tree.place directory with
      | .ok (.found l .directory) =>
          match v.get? l (.broken name) with
          | some (.file _) => true
          | _ => false
      | _ => false

end Volume

end Stencil.Files
