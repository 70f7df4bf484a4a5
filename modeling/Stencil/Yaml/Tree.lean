import Stencil.Yaml.Lexer

/-!
# The node tree of a YAML text

Tokens are put together to nodes.  Anchors are numbered by how many names have
been anchored before, and an alias refers to the number that its name has at
that place.
-/

namespace Stencil.Yaml

/-- A node as it is written, with numbered anchors. -/
inductive Tree where
  | alias (anchor : Nat)
  | scalar (anchor : Option Nat) (tag : Option String) (style : Style) (text : String)
  | sequence (anchor : Option Nat) (tag : Option String) (items : List Tree)
  | mapping (anchor : Option Nat) (tag : Option String) (entries : List (Tree × Tree))
  deriving Inhabited

/-- What is known while nodes are built. -/
structure Builder where
  tokens : List Token
  /-- The numbers of the anchored names. -/
  names : List (String × Nat)
  /-- The expansions of tag handles. -/
  handles : List (String × String)

/-- A step that builds part of a tree. -/
abbrev Build := StateT Builder (Except Problem)

namespace Build

/-- The next token. -/
def peek? : Build (Option Token) := return (← get).tokens.head?

/-- Passes the next token. -/
def skip : Build Unit := modify fun b => { b with tokens := b.tokens.tail }

/-- Gives up. -/
def fail {α : Type} (p : Problem) : Build α := throw p

/-- The number of a new anchor. -/
def anchor (name : String) : Build Nat := do
  let b ← get
  let number := b.names.length
  set { b with names := (name, number) :: b.names.filter (·.1 != name) }
  return number

/-- The tag that a handle and a suffix stand for. -/
def expandTag (handle suffix : String) : Build String := do
  if handle.isEmpty then return suffix
  match (← get).handles.lookup handle with
  | some expansion => return expansion ++ suffix
  | none => fail .undefinedTagHandle

/-- The anchor in front of a node, if there is one. -/
def anchor? : Build (Option Nat) := do
  match ← peek? with
  | some (.anchor name) => do
      skip
      return some (← anchor name)
  | _ => return none

/-- The tag in front of a node, if there is one. -/
def tag? : Build (Option String) := do
  match ← peek? with
  | some (.tag handle suffix) => do
      skip
      return some (← expandTag handle suffix)
  | _ => return none

/-- The anchor and the tag in front of a node, in any order. -/
def properties : Build (Option Nat × Option String) := do
  match ← anchor? with
  | some a => return (some a, ← tag?)
  | none =>
      match ← tag? with
      | some t => return (← anchor?, some t)
      | none => return (none, none)

/-- The node that stands where nothing is written. -/
def empty : Tree := .scalar none none .plain ""

/-- A scalar's tag: a lone exclamation mark says no more than that there is a scalar. -/
def scalarTag (tag : Option String) : Option String :=
  if tag = some "!" then none else tag

/-- Whether a value may be left out before the token. -/
def isOneOf (ts : List Token) (t : Option Token) : Bool := t.any ts.contains

mutual
/-- A node; blocks may stand only where `block` says so, and a sequence that is not indented
only where `loose` does. -/
def node (block loose : Bool) : Nat → Build Tree
  | 0 => fail .unexpectedToken
  | fuel + 1 => do
      match ← peek? with
      | some (.alias name) =>
          skip
          match (← get).names.lookup name with
          | some number => return .alias number
          | none => fail (.undefinedAlias name)
      | _ =>
          let (anchor, tag) ← properties
          match ← peek? with
          | some .blockEntry =>
              if loose then return .sequence anchor tag (← looseEntries fuel)
              else content block anchor tag fuel
          | _ => content block anchor tag fuel

/-- What follows the properties of a node. -/
def content (block : Bool) (anchor : Option Nat) (tag : Option String) : Nat → Build Tree
  | 0 => fail .unexpectedToken
  | fuel + 1 => do
      match ← peek?, block with
      | some (.scalar style text), _ =>
          skip
          return .scalar anchor (scalarTag tag) style text
      | some .flowSequenceStart, _ =>
          skip
          return .sequence anchor tag (← flowItems true fuel)
      | some .flowMappingStart, _ =>
          skip
          return .mapping anchor tag (← flowEntries true fuel)
      | some .blockSequenceStart, true =>
          skip
          return .sequence anchor tag (← blockEntries fuel)
      | some .blockMappingStart, true =>
          skip
          return .mapping anchor tag (← blockMembers fuel)
      | _, _ =>
          if anchor.isSome || tag.isSome then return .scalar anchor tag .plain ""
          else fail .unexpectedToken

/-- A node, or the empty one if one of the tokens comes next. -/
def nodeUnless (stops : List Token) (block loose : Bool) : Nat → Build Tree
  | 0 => fail .unexpectedToken
  | fuel + 1 => do
      if isOneOf stops (← peek?) then return empty
      else node block loose fuel

/-- The entries of a block sequence. -/
def blockEntries : Nat → Build (List Tree)
  | 0 => fail .unexpectedToken
  | fuel + 1 => do
      match ← peek? with
      | some .blockEntry =>
          skip
          let item ← nodeUnless [.blockEntry, .blockEnd] true false fuel
          return item :: (← blockEntries fuel)
      | some .blockEnd =>
          skip
          return []
      | _ => fail .unexpectedToken

/-- The entries of a sequence that stands at the indentation of its key. -/
def looseEntries : Nat → Build (List Tree)
  | 0 => fail .unexpectedToken
  | fuel + 1 => do
      match ← peek? with
      | some .blockEntry =>
          skip
          let item ← nodeUnless [.blockEntry, .key, .value, .blockEnd] true false fuel
          return item :: (← looseEntries fuel)
      | _ => return []

/-- The entries of a block mapping. -/
def blockMembers : Nat → Build (List (Tree × Tree))
  | 0 => fail .unexpectedToken
  | fuel + 1 => do
      match ← peek? with
      | some .key =>
          skip
          let key ← nodeUnless [.key, .value, .blockEnd] true true fuel
          let value ← blockValue fuel
          return (key, value) :: (← blockMembers fuel)
      | some .blockEnd =>
          skip
          return []
      | _ => fail .unexpectedToken

/-- The value after a key of a block mapping. -/
def blockValue : Nat → Build Tree
  | 0 => fail .unexpectedToken
  | fuel + 1 => do
      match ← peek? with
      | some .value =>
          skip
          nodeUnless [.key, .value, .blockEnd] true true fuel
      | _ => return empty

/-- The items of a bracketed sequence. -/
def flowItems (first : Bool) : Nat → Build (List Tree)
  | 0 => fail .unexpectedToken
  | fuel + 1 => do
      if (← peek?) = some .flowSequenceEnd then
        skip
        return []
      if !first then
        if (← peek?) = some .flowEntry then skip
        else fail .unexpectedToken
      match ← peek? with
      | some .key =>
          skip
          let pair ← flowPair fuel
          return .mapping none none [pair] :: (← flowItems false fuel)
      | some .flowSequenceEnd =>
          skip
          return []
      | _ =>
          let item ← node false false fuel
          return item :: (← flowItems false fuel)

/-- A key with its value inside a bracketed sequence. -/
def flowPair : Nat → Build (Tree × Tree)
  | 0 => fail .unexpectedToken
  | fuel + 1 => do
      let key ←
        if isOneOf [.value, .flowEntry, .flowSequenceEnd] (← peek?) then
          skip
          pure empty
        else node false false fuel
      match ← peek? with
      | some .value =>
          skip
          return (key, ← nodeUnless [.flowEntry, .flowSequenceEnd] false false fuel)
      | _ => return (key, empty)

/-- The entries of a bracketed mapping. -/
def flowEntries (first : Bool) : Nat → Build (List (Tree × Tree))
  | 0 => fail .unexpectedToken
  | fuel + 1 => do
      if (← peek?) = some .flowMappingEnd then
        skip
        return []
      if !first then
        if (← peek?) = some .flowEntry then skip
        else fail .unexpectedToken
      match ← peek? with
      | some .key =>
          skip
          let key ← nodeUnless [.value, .flowEntry, .flowMappingEnd] false false fuel
          let value ← flowValue fuel
          return (key, value) :: (← flowEntries false fuel)
      | some .flowMappingEnd =>
          skip
          return []
      | _ =>
          let key ← node false false fuel
          return (key, empty) :: (← flowEntries false fuel)

/-- The value after a key of a bracketed mapping. -/
def flowValue : Nat → Build Tree
  | 0 => fail .unexpectedToken
  | fuel + 1 => do
      match ← peek? with
      | some .value =>
          skip
          nodeUnless [.flowEntry, .flowMappingEnd] false false fuel
      | _ => return empty
end

/-- The tag handles that need no directive. -/
def defaultHandles : List (String × String) := [("!", "!"), ("!!", "tag:yaml.org,2002:")]

/-- The directives in front of a document: at most one version, 1.1 or 1.2, and no tag handle
twice. -/
def directives : Nat → (versionSeen : Bool) → List (String × String) → Build (List (String × String))
  | 0, _, seen => return seen
  | fuel + 1, versionSeen, seen => do
      match ← peek? with
      | some (.versionDirective major minor) =>
          if versionSeen || major != 1 || (minor != 1 && minor != 2) then fail .badDirective
          else
            skip
            directives fuel true seen
      | some (.tagDirective handle expansion) =>
          if seen.any (·.1 == handle) then fail .badDirective
          else
            skip
            directives fuel versionSeen (seen ++ [(handle, expansion)])
      | _ => return seen

/-- The only document of a text, or nothing when the text has none. -/
def document : Build (Option Tree) := do
  let fuel := 4 * (← get).tokens.length + 8
  let tree ←
    match ← peek? with
    | none => return none
    | some (.versionDirective ..) | some (.tagDirective ..) | some .documentStart =>
        let seen ← directives fuel false []
        modify fun b => { b with handles := seen ++ defaultHandles }
        if (← peek?) = some .documentStart then skip else fail .unexpectedToken
        match ← peek? with
        | none | some .documentStart | some .documentEnd | some (.versionDirective ..)
        | some (.tagDirective ..) => pure empty
        | _ => node true false fuel
    | some _ => node true false fuel
  modify fun b => { b with tokens := b.tokens.dropWhile (· == .documentEnd) }
  match ← peek? with
  | none => return some tree
  | some _ => fail .severalDocuments

end Build

/-- The tree of a text, or nothing when the text has no document. -/
def Tree.ofText (text : String) : Except Problem (Option Tree) :=
  match tokens text with
  | .error p => .error p
  | .ok ts => (Build.document.run ⟨ts, [], Build.defaultHandles⟩).map (·.1)

end Stencil.Yaml
