import Stencil.Text.Split

/-!
# Paths

A path is a text of names separated by slashes.  Empty pieces and pieces of one
dot count for nothing, except for a dot at the very start; a slash at the start
makes a path absolute.  Paths and the names in them are texts only: what a file
system allows beyond that, a name of bytes that are no UTF-8, is in no path.
-/

namespace Stencil.Files

/-- A part of a path. -/
inductive Component where
  | root
  | current
  | parent
  | name (s : String)
  deriving DecidableEq, Repr

namespace Path

/-- Whether a path starts at the root. -/
def isAbsolute (path : String) : Bool := path.toList.head? = some '/'

/-- The component of a piece that is not the first. -/
def component? (piece : String) : Option Component :=
  if piece.isEmpty || piece = "." then none
  else if piece = ".." then some .parent
  else some (.name piece)

/-- The components of a path. -/
def components (path : String) : List Component :=
  match Text.split '/' path with
  | [] => []
  | first :: rest =>
      let front :=
        if isAbsolute path then [Component.root]
        else if first = "." then [Component.current]
        else (component? first).toList
      front ++ rest.filterMap component?

/-- A second path read from a first one. -/
def join (base path : String) : String :=
  if isAbsolute path then path
  else if base.isEmpty || base.toList.getLast? = some '/' then base ++ path
  else base ++ "/" ++ path

/-- The reversed pieces of a path without those at its end that count for nothing. -/
def dropSilent : List String → List String
  | [] => []
  | [first] => [first]
  | p :: rest => if p.isEmpty || p = "." then dropSilent rest else p :: rest

/-- The path with the given reversed pieces. -/
def ofPieces (pieces : List String) : String :=
  match pieces.reverse with
  | [""] => "/"
  | ps => String.intercalate "/" ps

/-- The path without its last component; the root and the empty path have none. -/
def parent? (path : String) : Option String :=
  if path.isEmpty then none
  else
    match dropSilent (Text.split '/' path).reverse with
    | [] => none
    | [first] => if first.isEmpty then none else some ""
    | _ :: rest =>
        match dropSilent rest with
        | [] => some ""
        | rest => some (ofPieces rest)

/-- The name at the end of a path. -/
def fileName? (path : String) : Option String :=
  match (components path).getLast? with
  | some (.name s) => some s
  | _ => none

/-- The name at the end of a path, cut before its last dot unless that dot is its first character. -/
def cutName? (path : String) : Option (String × Option String) :=
  (fileName? path).map fun name =>
    match Text.cutLast '.' name with
    | some (stem, ext) => if stem.isEmpty then (name, none) else (stem, some ext)
    | none => (name, none)

/-- The name at the end of a path without its extension. -/
def stem? (path : String) : Option String := (cutName? path).map Prod.fst

/-- What follows the last dot of the name at the end of a path. -/
def extension? (path : String) : Option String := (cutName? path).bind Prod.snd

/-- Pieces without those at both ends that count for nothing. -/
def trimSilent (pieces : List String) : List String :=
  let silent (p : String) : Bool := (component? p).isNone
  ((pieces.dropWhile silent).reverse.dropWhile silent).reverse

/-- What is left of pieces inside a path once components have been taken from their front. -/
def after? : List Component → List String → Option (List String)
  | [], ps => some ps
  | _ :: _, [] => none
  | c :: cs, p :: ps =>
      match component? p with
      | none => after? (c :: cs) ps
      | some d => if c = d then after? cs ps else none

/-- The part of a path below a directory, with its pieces as they are written. -/
def below? (base path : String) : Option String :=
  match components base, Text.split '/' path with
  | [], pieces => some (if path.isEmpty then "" else ofPieces (dropSilent pieces.reverse))
  | cs, [] => if cs.isEmpty then some "" else none
  | c :: cs, first :: rest =>
      let left :=
        if isAbsolute path then if c = .root then after? cs rest else none
        else if first = "." then if c = .current then after? cs rest else none
        else after? (c :: cs) (first :: rest)
      left.map fun ps => String.intercalate "/" (trimSilent ps)

/-- The rank of a kind of component in the order of paths. -/
def rank : Component → Nat
  | .root => 0
  | .current => 1
  | .parent => 2
  | .name _ => 3

/-- The order of components: by kind, names by their text. -/
def componentLt (a b : Component) : Bool :=
  match a, b with
  | .name s, .name t => decide (s < t)
  | a, b => rank a < rank b

/-- The order of component lists. -/
def listLt : List Component → List Component → Bool
  | _, [] => false
  | [], _ :: _ => true
  | a :: as, b :: bs => componentLt a b || (!componentLt b a && listLt as bs)

/-- The order of paths, component by component. -/
def lt (a b : String) : Bool := listLt (components a) (components b)

end Path

end Stencil.Files
