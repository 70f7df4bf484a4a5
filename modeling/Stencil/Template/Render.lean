import Stencil.Template.Machine

/-!
# Rendering templates

Expressions and statements run by recursion on what has been read.  What is
looked up while a template runs (a block, a routine, another template, a loop
that calls itself) is handed to a runner for the next level, and the number of
levels is limited.
-/

namespace Stencil.Template

open Run

/-- Runs statements one level further in. -/
abbrev Runner := List Stmt → Run Unit

/-! ## Filters and tests -/

/-- Whether there is a filter of a name. -/
def filterKnown (env : Env) (name : String) : Bool :=
  (env.filters.lookup name).isSome || plainFilterNames.contains name
    || mappingFilters.contains name

/-- Applies a test. -/
def applyTest (name : String) (v : Value) (as : Arguments) : Run Value := do
  let w ← world
  match test? w (filterKnown (← read)) testNames.contains name v as with
  | some r => Value.bool <$> lift r
  | none => raise (.unknownTest name)

/-- The test that an argument names, with the arguments behind it, if there is one. -/
def namedTest? (i : Nat) (as : Arguments) : Run (Option (String × Arguments)) := do
  match ← lift (as.text? (← world) i) with
  | none => pure none
  | some name =>
      if testNames.contains name then pure (some (name, as.drop (i + 1)))
      else raise (.filterArgument "unknown test")

/-- Items that are chosen by a test, or by their truth if no test is named. -/
def chosen (keep : Bool) (key : Value → Run Value) (test : Option (String × Arguments))
    (items : List Value) : Run (List Value) :=
  items.filterM fun item => do
    let v ← key item
    let v ←
      match test with
      | none => pure v
      | some (name, as) => applyTest name v as
    pure ((← world).isTrue v == keep)

/-- The items of a value that pass a test. -/
def chooseItems (keep : Bool) (v : Value) (as : Arguments) : Run Value := do
  let test ← namedTest? 0 as
  pure (.list (← chosen keep pure test (← lift (itemsOf (← world) v))))

/-- The items of a value of which an attribute passes a test. -/
def chooseByAttribute (keep : Bool) (v : Value) (as : Arguments) : Run Value := do
  let path ← lift (as.text (← world) 0)
  let test ← namedTest? 1 as
  let key (item : Value) : Run Value := do lift ((← world).getPath item path)
  pure (.list (← chosen keep key test (← lift (itemsOf (← world) v))))

/-- Applies a filter that is not one of the mapping ones, if there is one. -/
def directFilter? (env : Env) (w : World) (name : String) (v : Value) (as : Arguments) :
    Option Outcome :=
  match env.filters.lookup name with
  | some f => some (f w v as)
  | none => plainFilter? w name v as

/-- The attribute of an item, or a given value where there is none. -/
def mappedAttribute (path other item : Value) : Run Value := do
  let w ← world
  let found :=
    match path with
    | .text s _ => w.getPath item s
    | key => w.get item key
  match found, other with
  | .ok .undefined, other => pure other
  | .ok found, _ => pure found
  | .error p, .undefined => raise p
  | .error _, other => pure other

/-- The attributes of the items of a value. -/
def mapAttribute (path v : Value) (as : Arguments) : Run Value := do
  lift (as.atMostValues 0)
  lift (as.onlyNamed ["attribute", "default"])
  let other := (as.names.lookup "default").getD .undefined
  pure (.list (← (← lift (itemsOf (← world) v)).mapM (mappedAttribute path other)))

/-- Applies a filter, given what the filter does that its first argument names. -/
def applyFilterWith (inner : String → Value → Run Value) (name : String) (v : Value)
    (as : Arguments) : Run Value := do
  match directFilter? (← read) (← world) name v as with
  | some r => lift r
  | none =>
      match name, as.named? "attribute", as.values with
      | "select", _, _ => chooseItems true v as
      | "reject", _, _ => chooseItems false v as
      | "selectattr", _, _ => chooseByAttribute true v as
      | "rejectattr", _, _ => chooseByAttribute false v as
      | "map", some path, _ => mapAttribute path v as
      | "map", none, .text mapped _ :: _ =>
          if !filterKnown (← read) mapped then raise (.filterArgument "unknown filter")
          pure (.list (← (← lift (itemsOf (← world) v)).mapM (inner mapped)))
      | "map", none, _ :: _ => raise (.filterArgument "filter name must be a string")
      | "map", none, [] => raise (.filterArgument "filter name is required")
      | name, _, _ => raise (.unknownFilter name)

/-- Applies a filter.  A filter that maps another one over items names it in its first argument, so
the arguments grow fewer. -/
def applyFilter (name : String) (v : Value) (named : Option (List (String × Value))) :
    List Value → Run Value
  | [] => applyFilterWith (fun _ => pure) name v ⟨[], named⟩
  | arg :: rest =>
      applyFilterWith (fun inner item => applyFilter inner item none rest) name v
        ⟨arg :: rest, named⟩

/-! ## Calls -/

/-- The arguments of a routine by its parameters. -/
def boundArguments (r : Routine) (as : Arguments) : Except Problem (List (String × Value)) := do
  as.atMostValues r.params.length
  let bound ← r.params.zipIdx.mapM fun (name, i) =>
    match as.values[i]?, as.names.lookup name with
    | some _, some _ => .error (.duplicateArgument name)
    | some v, none | none, some v => .ok (name, v)
    | none, none => .ok (name, .undefined)
  let known (name : String) : Bool :=
    (r.params.drop as.values.length).contains name || (r.usesCaller && name == "caller")
  match as.names.find? fun p => !known p.1 with
  | some (name, _) => .error (.unknownArgument name)
  | none => .ok bound

/-- Runs a routine and takes what it prints.  It sees the variables around its definition and, below
them, those that the rendering was given. -/
def callRoutine (again : Runner) (r : Routine) (around : Option Nat) (as : Arguments) :
    Run Value := do
  let bound ← lift (boundArguments r as)
  let locals : List (String × Value) :=
    if r.usesCaller then [("caller", (as.names.lookup "caller").getD .undefined)] else []
  let base : Base :=
    match around with
    | some id => .around id
    | none => .nothing
  let ground ← ground
  let restore (before m : Machine) : Machine :=
    { m with
      frames := before.frames, outerDepth := before.outerDepth, template := before.template,
      line := before.line, blocks := before.blocks, block := before.block,
      chain := before.chain, arguments := before.arguments }
  let printed ← restoring restore do
    modify fun m =>
      { m with
        frames := [{ locals, base }, { base := ground }],
        outerDepth := m.outerDepth + m.frames.length + routineCost, template := r.template,
        blocks := [], block := none, chain := [], arguments := bound }
    checkDepth
    capture (again r.body)
  printedValue printed

/-- The number of steps from one number towards another; a negative step goes down. -/
def stepCount (first last step : Int) : Nat :=
  if 0 < step then ((last - first + step - 1) / step).toNat
  else ((first - last - step - 1) / -step).toNat

/-- The numbers that a range stands for. -/
def rangeValues (as : Arguments) : Except Problem Value := do
  let number := wholeOf "isize" 64
  let first ← number (← as.required 0)
  let second ← (as.optional? 1).mapM number
  let step := (← (as.optional? 2).mapM number).getD 1
  as.atMost 3
  if step = 0 then throw (.filterArgument "cannot create range with step of 0")
  let (first, last) :=
    match second with
    | some last => (first, last)
    | none => (0, first)
  let count := stepCount first last step
  if 100000 < count then throw .rangeTooLong
  pure (.iterator ((List.range count).map fun (i : Nat) => .int (first + i * step)) true)

/-- The entries of a map that is built from a map and from names. -/
def madeEntries (w : World) (as : Arguments) : Except Problem (List (Value × Value)) := do
  let first ←
    match as.values.head? with
    | none => pure []
    | some v =>
        match v.isMissing, w.entries? v with
        | true, _ => pure []
        | false, some es => pure es
        | false, none => throw .invalidOperation
  as.atMostValues 1
  pure ((Value.entriesOf as.names).foldl (fun es (k, v) => w.put k v es) first)

/-- Named values with one set, in the order of their names. -/
def setSorted (key : String) (v : Value) : List (String × Value) → List (String × Value)
  | [] => [(key, v)]
  | (k, x) :: rest =>
      if k = key then (key, v) :: rest
      else if key < k then (key, v) :: (k, x) :: rest
      else (k, x) :: setSorted key v rest

/-- The fields of a new namespace: the entries with texts as keys. -/
def namespaceFields (w : World) (as : Arguments) : Except Problem (List (String × Value)) := do
  as.atMost 1
  match as.optional? 0 with
  | none => pure []
  | some v =>
      match w.entries? v with
      | some es =>
          pure (es.foldl (fun fields (k, x) =>
            match k with
            | .text name _ => setSorted name x fields
            | _ => fields) [])
      | none =>
          throw (.filterArgument ("expected object or keyword arguments, got " ++ v.kind.word))

/-- Reports a warning in the template that is being rendered. -/
def warn (message : String) : Run Value := do
  modify fun m => { m with reporter := m.reporter.warnAt (some m.template) message }
  pure (.ofText "")

/-- The notice about a filter that should no longer be used. -/
def deprecationMessage (filter : String) : String :=
  "The '" ++ filter ++ "' filter is deprecated and will be removed in future Qt versions"

/-- Calls a function that every template knows. -/
def callBuiltin (f : Builtin) (as : Arguments) : Run Value := do
  let w ← world
  let message : Run String := do
    let text ← lift (as.text w 0)
    lift (as.atMost 1)
    pure text
  match f with
  | .range => lift (rangeValues as)
  | .makeMap => do pure (.map (← lift (madeEntries w as)))
  | .makeNamespace => do
      let fields ← lift (namespaceFields w as)
      let id := (← get).heap.namespaces.size
      modify fun m =>
        { m with heap := { m.heap with namespaces := m.heap.namespaces.push fields } }
      pure (.namespace_ id)
  | .debug => do
      match as.flat with
      | [v] => pure (.ofText (w.innerLines v))
      | vs => pure (.ofText (w.innerLines (.list vs)))
  | .fail => do raise (.raised (← message))
  | .warn => do warn (← message)
  | .deprecate => do warn (deprecationMessage (← message))

/-- Calls a value. -/
def callValue (again : Runner) (f : Value) (as : Arguments) : Run Value :=
  match f with
  | .routine r around => callRoutine again r around as
  | .builtin b => callBuiltin b as
  | .loop _ => raise .loopNotCallable
  | v => raise (if v.isObject then .objectNotCallable else .notCallable v.kind)

/-- Calls an attribute of a value. -/
def callMethod (again : Runner) (v : Value) (name : String) (as : Arguments) : Run Value := do
  let w ← world
  match v, name with
  | .loop id, "changed" =>
      let last := (w.heap.loops[id]?).bind (·.lastChecked)
      let same : Bool :=
        match last with
        | some vs => w.sameItems vs as.flat
        | none => false
      modify fun m =>
        { m with
          heap := { m.heap with
            loops := m.heap.loops.modify id fun l => { l with lastChecked := some as.flat } } }
      pure (.bool !same)
  | .loop id, "cycle" =>
      let index := ((w.heap.loops[id]?).map (·.index)).getD 0
      if as.flat.isEmpty then raise .divisionByZero
      pure ((as.flat[index % as.flat.length]?).getD .undefined)
  | .loop _, name => raise (.noLoopMethod name)
  | .text .., _ => raise (.noMethod v.kind name)
  | v, name =>
      match w.get? v (.ofText name) with
      | some f => callValue again f as
      | none => raise (.noMethod v.kind name)

/-- Renders the next parent of the block that is being rendered. -/
def superBlock (again : Runner) : Run Value := do
  let m ← get
  let place ← here
  let some name := m.block | raise .superOutside
  let some stack := m.blocks.lookup name | raise .superOutside
  let some layer := stack.layers[stack.depth + 1]? | raise .noParentBlock
  let restore (before m : Machine) : Machine :=
    { m with template := before.template, line := before.line }
  let printed ← restoring restore do
    modifyBlock name fun s => { s with depth := s.depth + 1 }
    modify fun m => { m with template := layer.template }
    capture (inFrame {} (through place (again layer.body)))
  modifyBlock name fun s => { s with depth := s.depth - 1 }
  printedValue printed

/-- Renders a block, from the innermost child that defines it. -/
def renderBlock (again : Runner) (name : String) : Run Unit := do
  let some stack := (← get).blocks.lookup name | raise (.unknownBlock name)
  let some layer := stack.layers[stack.depth]? | raise (.unknownBlock name)
  let restore (before m : Machine) : Machine :=
    { m with template := before.template, line := before.line, block := before.block }
  restoring restore do
    push {}
    modify fun m => { m with block := some name, template := layer.template }
    again layer.body
    let _ ← pop

/-- Runs the loop that is being rendered on other items. -/
def recurse (again : Runner) (items : Value) : Run Value := do
  let m ← get
  let some id := m.frames.findSome? (·.loop) | raise .loopOutside
  let some stmt := (m.heap.loops[id]?).bind (·.again) | raise .notRecursive
  let restore (before m : Machine) : Machine := { m with line := before.line }
  let printed ← restoring restore <|
    capture (inFrame { locals := [(itemsName, items)] } (again [stmt]))
  printedValue printed

/-- Calls what a name stands for. -/
def callName (again : Runner) (name : String) (as : Arguments) : Run Value := do
  match name with
  | "super" =>
      if as.flat.isEmpty then superBlock again else raise .superArguments
  | "loop" =>
      match as.flat with
      | [items] => recurse again items
      | _ => raise .loopArguments
  | name =>
      match ← load? name with
      | some f => callValue again f as
      | none => raise (.unknownFunction name)

/-! ## Expressions -/

/-- Whether an expression looks up a value instead of making one. -/
def Expr.isLookup (e : Expr) : Bool :=
  match e.bare with
  | .var _ | .attribute .. | .item .. => true
  | _ => false

/-- Whether an argument looks up a value. -/
def Arg.isLookup : Arg → Bool
  | .value e => e.isLookup
  | _ => false

/-- Whether a test asks for one and the same object, while one of its operands makes a new one. -/
def isNewObject (test : String) (v : Value) (e : Expr) (args : List Arg) : Bool :=
  test == "sameas" && v.isObject && !(e.isLookup && args.all Arg.isLookup)

/-- A value that is passed by a name, or the names that are passed with their values. -/
structure NamedValue where
  name : Option String
  value : Value

/-- The named arguments. -/
def gatherNames (w : World) (passed : List NamedValue) :
    Except Problem (List (String × Value)) :=
  passed.foldlM (fun named p =>
    match p.name, w.entries? p.value with
    | some name, _ => .ok (setNamed name p.value named)
    | none, some es => .ok (es.foldl (fun named (k, x) => setNamed (w.text k) x named) named)
    | none, none =>
        .error (.filterArgument
          ("attempted to apply keyword arguments from non map (got " ++ p.value.kind.word
            ++ ")"))) []

/-- A value that is passed by position, or a list of them. -/
structure PlacedValue where
  spread : Bool
  value : Value

/-- The arguments by position. -/
def gatherValues (w : World) (passed : List PlacedValue) : Except Problem (List Value) := do
  let parts ← passed.mapM fun p => if p.spread then itemsOf w p.value else .ok [p.value]
  pure parts.flatten

/-- The arguments that are passed: those by position are computed first, then those by name. -/
def gatherArgs (args : List Arg) (values : Run (List PlacedValue))
    (names : Run (List NamedValue)) : Run Arguments := do
  let placed ← values
  let line := (← get).line
  let passed ← names
  if namesAreKnown args then goto line
  let named ← if passed.isEmpty then pure none else some <$> lift (gatherNames (← world) passed)
  pure ⟨← lift (gatherValues (← world) placed), named⟩

/-- Keys and what stands under them, each key before what belongs to it. -/
def readPairs (keys values : List (Run Value)) : Run (List (Value × Value)) :=
  (keys.zip values).mapM fun (key, value) => do
    let k ← key
    let v ← value
    pure (k, v)

/-- Whether a value and those that follow it are related one after the other.  What comes behind
two that are not related is not computed. -/
def holdChain (left : Value) : List (BinaryOp × Run Value) → Run Bool
  | [] => pure true
  | (op, next) :: rest => do
      let right ← next
      let holds ← lift ((← world).binary op left right)
      if (← world).isTrue holds then holdChain right rest else pure false

mutual
/-- The value of an expression.  What is known before has no parts to go through. -/
def eval (again : Runner) : Expr → Run Value
  | .placed line e => do
      goto line
      match e.known? with
      | some v => pure v
      | none => eval again e
  | .var name => do pure ((← load? name).getD .undefined)
  | .const c => pure (.ofConstant c)
  | .list items => do pure (.list (← (evals again items).mapM id))
  | .map keys values => do
      let pairs ← readPairs (evals again keys) (evals again values)
      let w ← world
      pure (.map (pairs.foldl (fun es (k, v) => w.put k v es) []))
  | .unary .not e => do
      let v ← eval again e
      pure (.bool !((← world).isTrue v))
  | .unary .negate e => do
      let line := (← get).line
      match World.negate (← eval again e) with
      | .ok v => pure v
      | .error p =>
          goto line
          raise p
  | .binary .and l r => do
      let line := (← get).line
      let a ← eval again l
      let v ← if (← world).isTrue a then eval again r else pure a
      goto (r.lineAfter (l.lineAfter line))
      pure v
  | .binary .or l r => do
      let line := (← get).line
      let a ← eval again l
      let v ← if (← world).isTrue a then pure a else eval again r
      goto (r.lineAfter (l.lineAfter line))
      pure v
  | .binary op l r => do
      let a ← eval again l
      let b ← eval again r
      lift ((← world).binary op a b)
  | .chain first ops rest => do
      let line := (← get).line
      let a ← eval again first
      let holds ← holdChain a (ops.zip (evals again rest))
      goto (linesAfter (first.lineAfter line) rest)
      pure (.bool holds)
  | .choose test yes no => do
      let line := (← get).line
      let t ← eval again test
      let v ←
        if (← world).isTrue t then eval again yes else evalOption again .undefined no
      goto (optionLineAfter (yes.lineAfter (test.lineAfter line)) no)
      pure v
  | .filter name e args => do
      let v ← eval again e
      let as ← gatherArgs args (evalValues again args) (evalNames again args)
      applyFilter name v as.named as.values
  | .test name e args => do
      let v ← eval again e
      let as ← gatherArgs args (evalValues again args) (evalNames again args)
      let holds ← applyTest name v as
      pure (if isNewObject name v e args then .bool false else holds)
  | .attribute e name => do
      let v ← eval again e
      lift ((← world).get v (.ofText name))
  | .item e key => do
      let v ← eval again e
      let k ← eval again key
      lift ((← world).get v k)
  | .slice e start stop step => do
      let v ← eval again e
      let a ← evalOption again .none start
      let b ← evalOption again .none stop
      let c ← evalOption again (.int 1) step
      lift (World.slice v a b c)
  | .call f args => do
      let v ← eval again f
      let as ← gatherArgs args (evalValues again args) (evalNames again args)
      callValue again v as
  | .callName name args => do
      let as ← gatherArgs args (evalValues again args) (evalNames again args)
      callName again name as
  | .callMethod e name args => do
      let v ← eval again e
      let as ← gatherArgs args (evalValues again args) (evalNames again args)
      callMethod again v name as
  | .ownBlock name => do printedValue (← capture (renderBlock again name))

/-- The runs that find the values of expressions. -/
def evals (again : Runner) : List Expr → List (Run Value)
  | [] => []
  | e :: rest => eval again e :: evals again rest

/-- The value of an expression, or another value if there is none. -/
def evalOption (again : Runner) (other : Value) : Option Expr → Run Value
  | none => pure other
  | some e => eval again e

/-- The values of the arguments by position. -/
def evalValues (again : Runner) : List Arg → Run (List PlacedValue)
  | [] => pure []
  | .value e :: rest => do
      let v ← eval again e
      pure (⟨false, v⟩ :: (← evalValues again rest))
  | .spread e :: rest => do
      let v ← eval again e
      pure (⟨true, v⟩ :: (← evalValues again rest))
  | _ :: rest => evalValues again rest

/-- The values of the arguments by name. -/
def evalNames (again : Runner) : List Arg → Run (List NamedValue)
  | [] => pure []
  | .named name e :: rest => do
      let v ← eval again e
      pure (⟨some name, v⟩ :: (← evalNames again rest))
  | .spreadNamed e :: rest => do
      let v ← eval again e
      pure (⟨none, v⟩ :: (← evalNames again rest))
  | _ :: rest => evalNames again rest
end

/-- The values of arguments. -/
def evalArgs (again : Runner) (args : List Arg) : Run Arguments :=
  gatherArgs args (evalValues again args) (evalNames again args)

/-! ## Statements -/

/-- Sets an attribute of a namespace. -/
def assignAttribute (base : String) (path : List String) (name : String) (v : Value) :
    Run Unit := do
  let start := (← load? base).getD .undefined
  let object ← path.foldlM (fun o key => do lift ((← world).get o (.ofText key))) start
  match object with
  | .namespace_ id =>
      modify fun m =>
        { m with
          heap := { m.heap with namespaces := m.heap.namespaces.modify id (setSorted name v) } }
  | other => raise (.assignAttribute other.kind)

mutual
/-- Assigns a value. -/
def assign (v : Value) : Target → Run Unit
  | .placed line t => do
      goto line
      assign v t
  | .name s => store s v
  | .attribute base path name => assignAttribute base path name v
  | .unpack targets => do
      match v.sequence?, (← world).entries? v with
      | some items, _ => assignItems targets.length items items targets
      | none, some es =>
          let keys := es.map Prod.fst
          assignItems targets.length keys keys targets
      | none, none => raise .unpackNothing

/-- Assigns items to as many targets. -/
def assignItems (expected : Nat) (all : List Value) : List Value → List Target → Run Unit
  | v :: rest, t :: targets => do
      if all.length ≠ expected then raise (.unpackCount expected all.length)
      assign v t
      assignItems expected all rest targets
  | [], [] => pure ()
  | _, _ => raise (.unpackCount expected all.length)
end

/-- The value of an expression; afterwards the place is the one from before it. -/
def evalApart (again : Runner) (e : Expr) : Run Value := do
  let line := (← get).line
  let v ← eval again e
  goto line
  pure v

/-- Applies the filters of a block to its text. -/
def applyCalls (again : Runner) (calls : List FilterCall) (v : Value) : Run Value :=
  calls.foldlM (fun v call => do
    goto call.line
    let as ← evalArgs again call.args
    applyFilter call.name v as.named as.values) v

/-- A routine with the variables around it. -/
def defineRoutine (name : String) (params captures : List String) (usesCaller : Bool)
    (body : List Stmt) : Run Value := do
  let routine : Routine := ⟨name, params, usesCaller, body, (← get).template⟩
  if captures.isEmpty then
    pure (.routine routine ((← get).frames.head?.bind (·.around)))
  else
    let around ← aroundHere
    captures.forM (enclose around)
    pure (.routine routine (some around))

/-- The templates that an include may mean, in order. -/
def insertChoices (w : World) (v : Value) : List Value :=
  match v with
  | .text .. => [v]
  | v =>
      match v.kind with
      | .list | .map | .iterator => (w.items? v).getD []
      | .object => []
      | _ => [v]

/-- The first template that there is among some, or the names that were tried. -/
def firstTemplate : List Value → Run (Option Source)
  | [] => pure none
  | v :: rest => do
      match v with
      | .text name _ =>
          match ← located (template? name) with
          | some s => pure (some s)
          | none => firstTemplate rest
      | _ => raise .sourceNotText

/-- Renders another template in the frames of this one. -/
def insertTemplate (again : Runner) (v : Value) (ignoreMissing : Bool) : Run Unit := do
  let w ← world
  let place ← here
  let choices := insertChoices w v
  match ← firstTemplate choices with
  | some source =>
      let restore (before m : Machine) : Machine :=
        { m with
          template := before.template, line := before.line, escape := before.escape,
          blocks := before.blocks, chain := before.chain, outerDepth := before.outerDepth }
      restoring restore do
        modify fun m =>
          { m with
            template := source.name, escape := escapes source.name, blocks := blocksOf source,
            outerDepth := m.outerDepth + includeCost }
        checkDepth
        apart (through place (again source.body))
  | none =>
      match choices, ignoreMissing with
      | [], _ | _, true => pure ()
      | [name], false => raise (.missingInsert (w.text name))
      | names, false => raise (.missingInserts (w.inner (.list names)))

/-- Lets another template go on when this one has ended. -/
def inheritFrom (v : Value) : Run Unit := do
  let m ← get
  if m.parent.isSome then raise .secondParent
  let some name := v.text? | raise .sourceNotText
  if m.chain.contains name then raise (.inheritanceCycle name)
  let some source ← located (template? name) | raise (.missingTemplate name)
  modify fun m =>
    { m with
      chain := m.chain ++ [source.name], blocks := addBlocks source m.blocks,
      parent := some ⟨source, m.out, m.discard⟩, discard := true }

/-- Whether the texts of a template are escaped from a tag on. -/
def escapeMode (w : World) (v : Value) : Except Problem Bool :=
  match v with
  | .text "html" _ => .ok true
  | .text "none" _ => .ok false
  | .text .. => .error .badEscaping
  | v => .ok (w.same v (.bool true))

/-- Opens a loop over some items. -/
def openLoop (items : List Value) (sized : Bool) (stmt : Option Stmt) : Run Nat := do
  let m ← get
  let outer := (m.frames.findSome? (·.loop)).bind fun id => m.heap.loops[id]?
  let depth :=
    match outer with
    | some l => if l.again.isSome then l.depth + 1 else 0
    | none => 0
  let id := m.heap.loops.size
  let state : LoopState := { items, sized, depth, again := stmt }
  set { m with heap := { m.heap with loops := m.heap.loops.push state } }
  pure id

/-- Moves a loop to an item. -/
def moveLoop (id index : Nat) : Run Unit := modify fun m =>
  { m with
    heap := { m.heap with loops := m.heap.loops.modify id fun l => { l with index } } }

mutual
/-- Runs a statement. -/
def runStmt (again : Runner) : Stmt → Run Unit
  | .placed line s => do
      goto line
      runStmt again s
  | .data s => print s
  | .emit e => do emit (← eval again e)
  | .loop target items only recursive body otherwise => do
      let v ← eval again items
      let all ← lift (itemsOf (← world) v)
      let kept ←
        match only with
        | none => pure all
        | some test =>
            inFrame {} <| all.filterM fun item => do
              assign item target
              let t ← eval again test
              pure ((← world).isTrue t)
      let sized := v.isSized || only.isSome
      let stmt : Stmt := .loop target (.var itemsName) none recursive body []
      let id ← openLoop kept sized (if recursive then some stmt else none)
      inFrame { loop := some id } <| kept.zipIdx.forM fun (item, index) => do
        moveLoop id index
        assign item target
        runAll again body
      if kept.isEmpty then runAll again otherwise
  | .choose test yes no => do
      let t ← eval again test
      if (← world).isTrue t then runAll again yes else runAll again no
  | .scope targets values body => do
      push {}
      (targets.zip values).forM fun (target, e) => do assign (← eval again e) target
      runAll again body
      let _ ← pop
  | .assign target value => do assign (← eval again value) target
  | .assignBlock target filters body => do
      let v ← printedValue (← capture (runAll again body))
      assign (← applyCalls again filters v) target
  | .escaping mode body => do
      let v ← eval again mode
      let escape ← lift (escapeMode (← world) v)
      restoring (fun before m => { m with escape := before.escape }) do
        modify fun m => { m with escape }
        runAll again body
  | .filtered filters body => do
      let v ← printedValue (← capture (runAll again body))
      emit (← applyCalls again filters v)
  | .block name required _ => do
      let m ← get
      if m.parent.isNone && !m.discard then
        let layers := ((m.blocks.lookup name).map (·.layers.length)).getD 0
        if required && layers ≤ 1 then raise (.requiredBlock name)
        renderBlock again name
  | .inherit source => do inheritFrom (← evalApart again source)
  | .insert source ignoreMissing => do
      insertTemplate again (← evalApart again source) ignoreMissing
  | .importAll source target => do
      push {}
      let v ← evalApart again source
      let printed ← capture (insertTemplate again v false)
      let frame ← pop
      let named := frame.locals.foldl (fun named (k, x) => setSorted k x named) []
      assign (.module named printed) target
  | .importNames source names => do
      let values ← discarding do
        push {}
        let v ← evalApart again source
        insertTemplate again v false
        let values ← names.mapM fun (name, _) => do pure ((← load? name).getD .undefined)
        let _ ← pop
        pure values
      ((names.map Prod.snd).zip values).reverse.forM fun (name, v) => store name v
  | .routine name params captures usesCaller body => do
      store name (← defineRoutine name params captures usesCaller body)
  | .callBlock call params captures usesCaller body => do
      let routine ← defineRoutine "caller" params captures usesCaller body
      let v ← inFrame { locals := [(callerName, routine)] } (eval again call)
      emit v
  | .run e => do
      let _ ← eval again e
  | .param name default => do
      let given := ((← get).arguments.lookup name).getD .undefined
      let v ←
        match given with
        | .undefined => evalOption again .undefined default
        | v => pure v
      store name v

/-- Runs statements in order. -/
def runAll (again : Runner) : List Stmt → Run Unit
  | [] => pure ()
  | s :: rest => do
      runStmt again s
      runAll again rest
end

/-- Runs statements with so many levels of templates, routines, blocks and loops inside, and then
the template that they inherit from. -/
def runLevels : Nat → Runner
  | 0, _ => raise .nestingLimit
  | n + 1, stmts => do
      let outer := (← get).parent
      modify fun m => { m with parent := none }
      runAll (runLevels n) stmts
      match (← get).parent with
      | none => pure ()
      | some p =>
          modify fun m =>
            { m with out := p.out, discard := p.discard, template := p.source.name,
                     parent := none }
          runLevels n p.source.body
      modify fun m => { m with parent := outer }

/-- More levels than the nesting that is allowed can open. -/
def levelLimit : Nat := 2 * depthLimit

/-- Renders a template with some variables, and takes what it prints. -/
def renderSource (source : Source) (bindings : List (String × Value)) : Run String := do
  modify fun m =>
    { m with
      heap := {}, frames := [{ base := .context bindings }], outerDepth := 0,
      template := source.name, line := 1, escape := escapes source.name,
      blocks := blocksOf source, block := none, chain := [], discard := false,
      parent := none, arguments := [], out := "" }
  runLevels levelLimit source.body
  pure (← get).out

end Stencil.Template
