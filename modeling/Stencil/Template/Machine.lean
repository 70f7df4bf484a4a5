import Stencil.Files.Tree
import Stencil.Report.Reporter
import Stencil.Template.FilterSet
import Stencil.Template.Grammar

/-!
# The state of a running template

Variables stand in frames, the innermost first.  An included template works in
the frames of the one that includes it; a routine has frames of its own, on top
of the variables around its definition.
-/

namespace Stencil.Template

open Report (Reporter)

/-- What a frame rests on. -/
inductive Base where
  | nothing
  | context (bindings : List (String × Value))
  | around (id : Nat)

/-- A frame of variables. -/
structure Frame where
  locals : List (String × Value) := []
  base : Base := .nothing
  loop : Option Nat := none
  /-- The number of the variables that routines defined in this frame see. -/
  around : Option Nat := none

/-- The statements of a block in a template. -/
structure Layer where
  template : String
  body : List Stmt

/-- The layers of a block, from the innermost child to the outermost parent, and the layer that is
being rendered. -/
structure BlockStack where
  layers : List Layer
  depth : Nat := 0

/-- A template that goes on after the running one, and the output before it. -/
structure Parent where
  source : Source
  out : String
  discard : Bool

/-- What does not change while templates run. -/
structure Env where
  system : Model.System
  files : Files.Tree
  searchPath : List String
  filters : List (String × Filter)
  globals : List (String × Value)

/-- The state of a running template. -/
structure Machine where
  reporter : Reporter
  /-- The templates that have been read. -/
  cache : List (String × Source)
  heap : Heap := {}
  frames : List Frame := []
  /-- The nesting that includes and routines stand for. -/
  outerDepth : Nat := 0
  template : String := ""
  line : Nat := 1
  escape : Bool := false
  blocks : List (String × BlockStack) := []
  block : Option String := none
  /-- The templates that have been inherited from. -/
  chain : List String := []
  /-- Whether the output is thrown away. -/
  discard : Bool := false
  parent : Option Parent := none
  /-- The arguments of the routine that is starting. -/
  arguments : List (String × Value) := []
  out : String := ""

/-- A problem and the places that it came through, innermost first. -/
structure Fault where
  problem : Problem
  places : List Report.Frame

/-- A step of a running template.  What has been reported and read stays when it fails. -/
abbrev Run := ReaderT Env (ExceptT Fault (StateM Machine))

namespace Run

/-- The place that is being rendered. -/
def here : Run Report.Frame := do
  let m ← get
  pure ⟨m.template, some m.line⟩

/-- Stops at the place that is being rendered. -/
def raise {α : Type} (p : Problem) : Run α := do throw ⟨p, [← here]⟩

/-- The value of an operation. -/
def lift {α : Type} (r : Except Problem α) : Run α :=
  match r with
  | .ok a => pure a
  | .error p => raise p

/-- What values are about. -/
def world : Run World := do pure ⟨(← read).system, (← get).heap⟩

/-- Goes to a line. -/
def goto (line : Nat) : Run Unit := modify fun m => { m with line }

/-- Runs a step and comes back to the place and the settings from before. -/
def restoring {α : Type} (restore : Machine → Machine → Machine) (act : Run α) : Run α := do
  let before ← get
  let a ← act
  modify (restore before)
  pure a

/-- Gives the faults of a step that have no place the place that is being rendered. -/
def located {α : Type} (act : Run α) : Run α := fun env m =>
  match act env m with
  | (.error f, after) =>
      (.error (if f.places.isEmpty then { f with places := [⟨m.template, some m.line⟩] } else f),
        after)
  | r => r

/-- Adds a place to the faults of a step. -/
def through {α : Type} (place : Report.Frame) (act : Run α) : Run α := fun env m =>
  match act env m with
  | (.error f, m) => (.error { f with places := f.places ++ [place] }, m)
  | r => r

/-! ## Output -/

/-- Prints a text. -/
def print (s : String) : Run Unit := modify fun m => { m with out := m.out ++ s }

/-- Runs a step and takes what it prints. -/
def capture (act : Run Unit) : Run String := do
  let before ← get
  modify fun m => { m with out := "", discard := false }
  act
  let printed := (← get).out
  modify fun m => { m with out := before.out, discard := before.discard }
  pure printed

/-- Runs a step and throws away what it prints. -/
def discarding {α : Type} (act : Run α) : Run α :=
  restoring (fun before m => { m with discard := before.discard, out := before.out }) do
    modify fun m => { m with discard := true }
    act

/-- A captured text as a value; it is safe where texts are escaped. -/
def printedValue (s : String) : Run Value := do pure (.text s (← get).escape)

/-- Prints a value. -/
def emit (v : Value) : Run Unit := do
  let w ← world
  print (if (← get).escape then escaped w v else w.text v)

/-! ## Frames -/

/-- The nesting that is allowed. -/
def depthLimit : Nat := 500

/-- The nesting of an include. -/
def includeCost : Nat := 10

/-- The nesting of a routine. -/
def routineCost : Nat := 4

/-- Stops if the nesting is too deep. -/
def checkDepth : Run Unit := do
  let m ← get
  if depthLimit < m.outerDepth + m.frames.length then raise .nestingLimit

/-- Opens a frame. -/
def push (f : Frame) : Run Unit := do
  checkDepth
  modify fun m => { m with frames := f :: m.frames }

/-- Closes the innermost frame and gives it back. -/
def pop : Run Frame := do
  let m ← get
  set { m with frames := m.frames.tail }
  pure (m.frames.head?.getD {})

/-- Runs a step in a frame of its own. -/
def inFrame {α : Type} (f : Frame) (act : Run α) : Run α := do
  push f
  let a ← act
  let _ ← pop
  pure a

/-- Named values with one set, in place or at the end. -/
def setNamed (key : String) (v : Value) : List (String × Value) → List (String × Value)
  | [] => [(key, v)]
  | (k, x) :: rest => if k = key then (k, v) :: rest else (k, x) :: setNamed key v rest

/-- Changes the innermost frame. -/
def modifyFrame (f : Frame → Frame) : Run Unit := modify fun m =>
  match m.frames with
  | top :: rest => { m with frames := f top :: rest }
  | [] => { m with frames := [f {}] }

/-- Runs a step in which routines of the innermost frame see no variables from before. -/
def apart {α : Type} (act : Run α) : Run α := do
  let outer := (← get).frames.head?.bind (·.around)
  modifyFrame fun f => { f with around := none }
  let a ← act
  modifyFrame fun f => { f with around := outer }
  pure a

/-- What the outermost frame rests on. -/
def ground : Run Base := do pure (((← get).frames.getLast?.map (·.base)).getD .nothing)

/-- Changes the variables that routines see. -/
def modifyAround (id : Nat) (f : List (String × Value) → List (String × Value)) : Run Unit :=
  modify fun m => { m with heap := { m.heap with around := m.heap.around.modify id f } }

/-- Sets a variable in the innermost frame; routines defined there see it too. -/
def store (name : String) (v : Value) : Run Unit := do
  match (← get).frames.head?.bind (·.around) with
  | some id => modifyAround id (setNamed name v)
  | none => pure ()
  modifyFrame fun f => { f with locals := setNamed name v f.locals }

/-- A variable as a frame has it. -/
def Frame.find? (heap : Heap) (name : String) (f : Frame) : Option Value :=
  match f.locals.lookup name with
  | some v => some v
  | none =>
      match f.loop, name with
      | some id, "loop" => some (.loop id)
      | _, name =>
          match f.base with
          | .nothing => none
          | .context bindings => bindings.lookup name
          | .around id => ((heap.around[id]?).getD []).lookup name

/-- A variable, from the innermost frame to the outermost, and then among the global ones. -/
def load? (name : String) : Run (Option Value) := do
  let m ← get
  match m.frames.findSome? (Frame.find? m.heap name) with
  | some v => pure (some v)
  | none => pure ((← read).globals.lookup name)

/-- The number of the variables around the routines of the innermost frame. -/
def aroundHere : Run Nat := do
  match (← get).frames.head?.bind (·.around) with
  | some id => pure id
  | none =>
      let id := (← get).heap.around.size
      modify fun m => { m with heap := { m.heap with around := m.heap.around.push [] } }
      modifyFrame fun f => { f with around := some id }
      pure id

/-- Shows a variable to the routines of the innermost frame, unless they see it already. -/
def enclose (id : Nat) (name : String) : Run Unit := do
  let known := ((← get).heap.around[id]?).getD []
  if (known.lookup name).isNone then
    let v ← load? name
    modifyAround id (setNamed name (v.getD .undefined))

/-! ## Templates -/

/-- Whether texts are escaped in a template of this name. -/
def escapes (name : String) : Bool :=
  let name := (Text.dropSuffix ".j2" name).getD name
  ["html", "htm", "xml"].contains (Text.afterLast '.' name)

/-- Whether a template of this name may be looked for: it stays below the search path. -/
def isLocal (name : String) : Bool :=
  !((Text.split '/' name).flatMap (Text.split '\\')).contains ".."

/-- The first file of a name in the search path. -/
def locate? (files : Files.Tree) (searchPath : List String) (name : String) : Option String :=
  (searchPath.map fun dir => Files.Path.join dir name).find? files.isFile

/-- The text of a template, if there is a file for it. -/
def sourceText? (env : Env) (name : String) : Except Problem (Option String) :=
  if !isLocal name then .ok none
  else
    match locate? env.files env.searchPath name with
    | none => .ok none
    | some path =>
        match env.files.readText path with
        | .ok text => .ok (some text)
        | .error _ => .error (.brokenTemplate path)

/-- The template of a name, if there is one; it is read once. -/
def template? (name : String) : Run (Option Source) := do
  match (← get).cache.lookup name with
  | some source => pure (some source)
  | none =>
      match sourceText? (← read) name with
      | .error p => throw ⟨p, []⟩
      | .ok none => pure none
      | .ok (some text) =>
          match Source.ofText? name text with
          | .error (f, line) => throw ⟨.unreadable f, [⟨name, some line⟩]⟩
          | .ok source =>
              modify fun m => { m with cache := m.cache ++ [(name, source)] }
              pure (some source)

/-- The blocks of a template, each with one layer. -/
def blocksOf (s : Source) : List (String × BlockStack) :=
  s.blocks.map fun (name, body) => (name, ⟨[⟨s.name, body⟩], 0⟩)

/-- The blocks with those of a parent behind them. -/
def addBlocks (s : Source) (blocks : List (String × BlockStack)) : List (String × BlockStack) :=
  s.blocks.foldl (fun blocks (name, body) =>
    match blocks.lookup name with
    | some _ => blocks.map fun (n, stack) =>
        if n = name then (n, { stack with layers := stack.layers ++ [⟨s.name, body⟩] })
        else (n, stack)
    | none => blocks ++ [(name, ⟨[⟨s.name, body⟩], 0⟩)]) blocks

/-- Changes the stack of a block. -/
def modifyBlock (name : String) (f : BlockStack → BlockStack) : Run Unit := modify fun m =>
  { m with blocks := m.blocks.map fun (n, s) => if n = name then (n, f s) else (n, s) }

end Run

end Stencil.Template
