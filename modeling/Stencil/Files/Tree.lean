import Stencil.Files.Path
import Stencil.Sorted

/-!
# File trees

The files and directories that a run reads and writes.  A location is the list
of names from the root; a path denotes a location by walking from the root or
from the working directory.  The names are texts only, though a file may hold
bytes that are no text; `Volume` adds the entries with other names, for where a
listing shows them.
-/

namespace Stencil.Files

/-- What a file holds: text, or bytes that are no text. -/
inductive Content where
  | text (s : String)
  | binary (bytes : List UInt8)
  deriving DecidableEq, Repr

namespace Content

/-- The content with the given bytes. -/
def ofBytes (bytes : List UInt8) : Content :=
  match String.fromUTF8? ⟨bytes.toArray⟩ with
  | some s => .text s
  | none => .binary bytes

/-- The bytes of a content. -/
def bytes : Content → ByteArray
  | .text s => s.toUTF8
  | .binary bytes => ⟨bytes.toArray⟩

/-- The content as a text. -/
def text? : Content → Option String
  | .text s => some s
  | .binary _ => none

end Content

/-- What stands at a location. -/
inductive Entry where
  | file (content : Content)
  | directory
  deriving DecidableEq, Repr

/-- The names from the root to a file or directory. -/
abbrev Location := List String

/-- Why a file cannot be read or written. -/
inductive Fault where
  | notFound
  | exists_
  | notDirectory
  | isDirectory
  | invalidText
  deriving DecidableEq, Repr

/-- The text of a fault. -/
def Fault.message : Fault → String
  | .notFound => "No such file or directory (os error 2)"
  | .exists_ => "File exists (os error 17)"
  | .notDirectory => "Not a directory (os error 20)"
  | .isDirectory => "Is a directory (os error 21)"
  | .invalidText => "stream did not contain valid UTF-8"

/-- The entries below the root, each with its location, and the working directory. -/
structure Tree where
  entries : List (Location × Entry)
  working : Location
  deriving DecidableEq, Repr

namespace Tree

/-- What stands at a location; the root is a directory. -/
def get? (t : Tree) (l : Location) : Option Entry :=
  if l.isEmpty then some .directory else t.entries.lookup l

/-- Puts an entry at a location. -/
def put (t : Tree) (l : Location) (e : Entry) : Tree :=
  { t with entries := (l, e) :: t.entries.filter (·.1 != l) }

/-- Puts directories at a location and at all places on the way to it. -/
def putDirectories (t : Tree) (l : Location) : Tree :=
  (List.range (l.length + 1)).foldl
    (fun t n => if (t.get? (l.take n)).isSome then t else t.put (l.take n) .directory) t

/-- The tree whose only content is the working directory. -/
def ofWorking (working : Location) : Tree := putDirectories ⟨[], working⟩ working

/-- Removes a location and everything below it. -/
def remove (t : Tree) (l : Location) : Tree :=
  { t with entries := t.entries.filter fun e => e.1.take l.length != l }

/-- Where a walk over components ends: a location that is there, or one that could be created in
a directory. -/
inductive Place where
  | found (l : Location) (e : Entry)
  | free (l : Location)
  deriving Repr

/-- Walks from a directory over components. -/
def walk (t : Tree) : Location → List Component → Except Fault Place
  | l, [] =>
      match t.get? l with
      | some e => .ok (.found l e)
      | none => .error .notFound
  | _, .root :: rest => walk t [] rest
  | l, .current :: rest => walk t l rest
  | l, .parent :: rest => walk t l.dropLast rest
  | l, .name s :: rest =>
      let next := l ++ [s]
      match t.get? next, rest with
      | some .directory, _ => walk t next rest
      | some (.file c), [] => .ok (.found next (.file c))
      | some (.file _), _ :: _ => .error .notDirectory
      | none, [] => .ok (.free next)
      | none, _ :: _ => .error .notFound

/-- Whether a path names a directory by its end. -/
def endsInDirectory (path : String) : Bool :=
  match (Text.split '/' path).reverse with
  | last :: _ => last.isEmpty || last = "." || last = ".."
  | [] => false

/-- The place that a path denotes. -/
def place (t : Tree) (path : String) : Except Fault Place :=
  if path.isEmpty then .error .notFound
  else
    match t.walk t.working (Path.components path) with
    | .ok (.found l (.file c)) =>
        if endsInDirectory path then .error .notDirectory else .ok (.found l (.file c))
    | r => r

/-- The entry that a path denotes. -/
def find? (t : Tree) (path : String) : Option Entry :=
  match t.place path with
  | .ok (.found _ e) => some e
  | _ => none

/-- Whether the path denotes something. -/
def exists_ (t : Tree) (path : String) : Bool := (t.find? path).isSome

/-- Whether the path denotes a directory. -/
def isDirectory (t : Tree) (path : String) : Bool := t.find? path = some .directory

/-- Whether the path denotes a file. -/
def isFile (t : Tree) (path : String) : Bool :=
  match t.find? path with
  | some (.file _) => true
  | _ => false

/-- The text of a file. -/
def readText (t : Tree) (path : String) : Except Fault String :=
  match t.place path with
  | .ok (.found _ (.file (.text s))) => .ok s
  | .ok (.found _ (.file (.binary _))) => .error .invalidText
  | .ok (.found _ .directory) => .error .isDirectory
  | .ok (.free _) => .error .notFound
  | .error f => .error f

/-- Creates one directory. -/
def makeDirectory (t : Tree) (path : String) : Except Fault Tree :=
  match t.place path with
  | .ok (.found _ _) => .error .exists_
  | .ok (.free l) => .ok (t.put l .directory)
  | .error f => .error f

/-- Creates a directory and those above it that are missing. -/
def makeDirectories (t : Tree) : Nat → String → Except Fault Tree
  | 0, _ => .error .notFound
  | fuel + 1, path =>
      if path.isEmpty then .ok t
      else
        match t.makeDirectory path with
        | .ok t => .ok t
        | .error .notFound =>
            match Path.parent? path with
            | none => .error .notFound
            | some above =>
                match t.makeDirectories fuel above with
                | .error f => .error f
                | .ok t =>
                    match t.makeDirectory path with
                    | .ok t => .ok t
                    | .error f => if t.isDirectory path then .ok t else .error f
        | .error f => if t.isDirectory path then .ok t else .error f

/-- The tree with the directories that are created on the way to a directory, also if it cannot be
created itself. -/
def begunDirectories (t : Tree) : Nat → String → Tree
  | 0, _ => t
  | fuel + 1, path =>
      match t.makeDirectories (fuel + 1) path with
      | .ok t => t
      | .error _ =>
          match t.makeDirectory path, Path.parent? path with
          | .error .notFound, some above => t.begunDirectories fuel above
          | _, _ => t

/-- Replaces or creates a file in a directory that is there. -/
def store (t : Tree) (path : String) (c : Content) : Except Fault Tree :=
  match t.place path with
  | .ok (.found l (.file _)) => .ok (t.put l (.file c))
  | .ok (.found _ .directory) => .error .isDirectory
  | .ok (.free l) =>
      if endsInDirectory path then .error .isDirectory else .ok (t.put l (.file c))
  | .error f => .error f

/-- Writes a file, creating the directories that it lies in. -/
def write (t : Tree) (path : String) (c : Content) : Except Fault Tree :=
  match Path.parent? path with
  | some above =>
      match t.makeDirectories (above.length + 1) above with
      | .ok t => t.store path c
      | .error f => .error f
  | none => t.store path c

/-- What a write that fails leaves: the directories that it has created before. -/
def afterFailedWrite (t : Tree) (path : String) : Tree :=
  match Path.parent? path with
  | some above => t.begunDirectories (above.length + 1) above
  | none => t

/-- The names of the entries of a directory, in order. -/
def names (t : Tree) (l : Location) : List String :=
  sortTexts <| t.entries.filterMap fun (m, _) =>
    if m.length = l.length + 1 ∧ m.take l.length = l then m.getLast? else none

/-- The entries of the directory that a path denotes. -/
def list? (t : Tree) (path : String) : Option (List String) :=
  match t.place path with
  | .ok (.found l .directory) => some (t.names l)
  | _ => none

/-- The files below a location, with their names from there on, in order. -/
def filesBelow (t : Tree) (l : Location) : List (List String × Content) :=
  let files := t.entries.filterMap fun (m, e) =>
    match e with
    | .file c => if m.take l.length = l then some (m.drop l.length, c) else none
    | .directory => none
  files.mergeSort fun a b => !decide (b.1 < a.1)

/-- The entries of a later tree that an earlier one does not have, in order of their creation. -/
def changes (before after : Tree) : List (Location × Entry) :=
  (after.entries.filter fun (l, e) => before.get? l != some e).reverse

end Tree

end Stencil.Files
