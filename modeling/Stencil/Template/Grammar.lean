import Stencil.Template.Lexer
import Stencil.Template.Lines
import Stencil.Template.Stream

/-!
# The grammar of templates

Expressions from the loosest to the tightest operator, then statements.  Each
rule takes the rule for the nested part as an argument, and the knot is tied at
the end with a limit on the nesting.
-/

namespace Stencil.Template

open Read

/-! ## Expressions -/

/-- The names that stand for themselves and cannot be assigned. -/
def reservedNames : List String :=
  ["true", "True", "false", "False", "none", "None", "loop", "self"]

/-- The readers for what is nested in an expression. -/
structure Nested where
  /-- Whether nothing may be nested any more. -/
  ended : Bool
  /-- An expression one level further in. -/
  expr : Read Expr
  /-- An expression inside a literal or a parenthesis. -/
  inner : Read Expr
  /-- An expression at the same level. -/
  other : Read Expr
  /-- An expression at the same level that is no choice. -/
  plain : Read Expr

/-- An argument of a call, with whether an argument with a name came before it. -/
def argument (n : Nested) (named : Bool) : Read (Arg × Bool) := do
  if ← skip (.mark "**") then
    pure (.spreadNamed (← n.expr), true)
  else if ← skip (.mark "*") then
    pure (.spread (← n.expr), named)
  else
    let e ← n.expr
    match e.bare with
    | .var name =>
        if ← skip (.mark "=") then
          pure (.named name (← n.plain), true)
        else if named then fail .positionalAfterNamed
        else pure (.value e, named)
    | _ => if named then fail .positionalAfterNamed else pure (.value e, named)

/-- The arguments of a call, with their parentheses. -/
def arguments (n : Nested) : Read (List Arg) := do
  expectMark "("
  let close := Token.mark ")"
  iterate (fun (acc : List Arg × Bool) => do
    if ← skip close then pure (.inr acc.1.reverse)
    else
      if !acc.1.isEmpty then
        expectMark ","
      if !acc.1.isEmpty && (← skip close) then pure (.inr acc.1.reverse)
      else
        let (a, named) ← argument n acc.2
        pure (.inl (a :: acc.1, named))) ([], false)

/-- The arguments of a call if there are any. -/
def optionalArguments (n : Nested) : Read (List Arg) := do
  if ← sees (· == .mark "(") then arguments n else pure []

/-- A key and a value of a map. -/
def mapEntry (expr : Read Expr) : Read (Expr × Expr) := do
  let key ← expr
  expectMark ":"
  pure (key, ← expr)

/-- A parenthesis: one expression, or a list if there is a comma. -/
def parenthesis (expr : Read Expr) (line : Nat) : Read Expr := do
  if ← skip (.mark ")") then pure (.placed line (.list []))
  else
    let first ← expr
    if ← sees (· == .mark ",") then
      let items ← iterate (fun (acc : List Expr) => do
        if ← skip (.mark ")") then pure (.inr acc.reverse)
        else
          expectMark ","
          if ← skip (.mark ")") then pure (.inr acc.reverse)
          else pure (.inl ((← expr) :: acc))) [first]
      pure (.placed line (.list items))
    else
      expectMark ")"
      pure first

/-- A text with the texts right behind it. -/
def adjacentTexts (first : String) : Read String :=
  iterate (fun (acc : String) => do
    match ← peek with
    | some ⟨.text s, _⟩ =>
        let _ ← next
        pure (.inl (acc ++ s))
    | _ => pure (.inr acc)) first

/-- A literal, a variable, a list, a map or a parenthesis. -/
def primary (n : Nested) : Read Expr := do
  if n.ended then fail .tooDeep
  let p ← any "expression"
  let literal (c : Constant) : Read Expr := pure (.placed p.line (.const c))
  match p.token with
  | .name "true" | .name "True" => literal (.bool true)
  | .name "false" | .name "False" => literal (.bool false)
  | .name "none" | .name "None" => literal .none
  | .name s => pure (.placed p.line (.var s))
  | .text s => do literal (.text (← adjacentTexts s))
  | .int i => literal (.int i)
  | .float d => literal (.float d)
  | .mark "(" => parenthesis n.inner p.line
  | .mark "[" => do pure (.placed p.line (.list (← items (.mark "]") n.inner)))
  | .mark "\x7b" => do
      let entries ← items (.mark "\x7d") (mapEntry n.inner)
      pure (.placed p.line (.map (entries.map Prod.fst) (entries.map Prod.snd)))
  | t => fail (.unexpected t.describe none)

/-- A primary expression after any number of minus signs. -/
def signed (n : Nested) : Read Expr := prefixed (.mark "-") .negate (primary n)

/-- An expression unless one of some tokens comes next. -/
def unlessNext (stops : List String) (expr : Read Expr) : Read (Option Expr) := do
  if ← sees fun t => stops.any fun s => t == .mark s then pure none else pure (some (← expr))

/-- What stands in brackets after an expression: an index or a slice. -/
def subscript (expr : Read Expr) (e : Expr) : Read Expr := do
  let start ← unlessNext [":"] expr
  if ← skip (.mark ":") then
    let stop ← unlessNext ["]", ":"] expr
    let step ← if ← skip (.mark ":") then unlessNext ["]"] expr else pure none
    expectMark "]"
    pure (.slice e start stop step)
  else
    expectMark "]"
    match start with
    | some key => pure (.item e key)
    | none => fail .emptySubscript

/-- What stands after a point: a name, or the number of an item. -/
def pointed (e : Expr) : Read Expr := do
  let p ← any "identifier or integer"
  match p.token with
  | .name name => pure (.attribute e name)
  | .int i => pure (.item e (.placed p.line (.const (.int i))))
  | t => fail (.unexpected t.describe (some "identifier or integer"))

/-- A call of an expression. -/
def callOf (e : Expr) (args : List Arg) : Expr :=
  match e.bare with
  | .var name => .callName name args
  | .attribute base name =>
      match base.bare with
      | .var "self" => .ownBlock name
      | _ => .callMethod base name args
  | _ => .call e args

/-- An expression with the attributes, subscripts and calls that follow it. -/
def trailers (n : Nested) (line : Nat) (e : Expr) : Read Expr :=
  iterate (fun (state : Expr × Nat) => do
    let (e, line) := state
    let next ← currentLine
    if ← skip (.mark ".") then
      pure (.inl (.placed line (← pointed e), next))
    else if ← skip (.mark "[") then
      pure (.inl (.placed line (← subscript n.expr e), next))
    else if ← sees (· == .mark "(") then
      pure (.inl (.placed line (callOf e (← arguments n)), next))
    else pure (.inr e)) (e, line)

/-- Whether a token can start the argument of a test that stands without parentheses. -/
def startsOperand : Token → Bool
  | .name s => !(["and", "or", "else", "is"].contains s)
  | .text _ | .int _ | .float _ => true
  | .mark s => ["+", "-", "[", "\x7b"].contains s
  | _ => false

/-- The arguments of a test: in parentheses, or one operand. -/
def testArguments (n : Nested) : Read (List Arg) := do
  if ← sees (· == .mark "(") then arguments n
  else if ← sees startsOperand then
    let line ← currentLine
    let e ← signed n
    pure [.value (← trailers n line e)]
  else pure []

/-- The name of a filter or a test, which may have points in it, and its line. -/
def dottedName : Read (String × Nat) := do
  let (first, line) ← expectName
  let name ← iterate (fun (acc : String) => do
    if ← skip (.mark ".") then
      let (part, _) ← expectName
      pure (.inl (acc ++ "." ++ part))
    else pure (.inr acc)) first
  pure (name, line)

/-- An expression with the filters and tests that follow it. -/
def filters (n : Nested) (e : Expr) : Read Expr :=
  iterate (fun e => do
    if ← skip (.mark "|") then
      let (name, line) ← dottedName
      pure (.inl (.placed line (.filter name e (← optionalArguments n))))
    else if ← skip (.name "is") then
      let negated ← skip (.name "not")
      let (name, line) ← dottedName
      let e : Expr := .placed line (.test name e (← testArguments n))
      pure (.inl (if negated then .placed line (.unary .not e) else e))
    else pure (.inr e)) e

/-- A signed expression with all that follows it. -/
def operand (n : Nested) : Read Expr := do
  let line ← currentLine
  let e ← signed n
  filters n (← trailers n line e)

/-- The operator of a mark. -/
def markOperator (table : List (String × BinaryOp)) : Token → Option BinaryOp
  | .mark s => table.lookup s
  | _ => none

/-- Powers. -/
def power (n : Nested) : Read Expr :=
  leftAssociative (markOperator [("**", .power)]) (operand n)

/-- Products and quotients. -/
def product (n : Nested) : Read Expr :=
  leftAssociative
    (markOperator
      [("*", .multiply), ("/", .divide), ("//", .floorDivide), ("%", .remainder)])
    (power n)

/-- Joined texts. -/
def concatenation (n : Nested) : Read Expr :=
  leftAssociative (markOperator [("~", .concat)]) (product n)

/-- Sums and differences. -/
def sum (n : Nested) : Read Expr :=
  leftAssociative (markOperator [("+", .add), ("-", .subtract)]) (concatenation n)

/-- The comparison of a token. -/
def comparisonOperator : Token → Option BinaryOp
  | .name "in" => some .contained
  | t =>
      markOperator
        [("==", .equal), ("!=", .unequal), ("<", .less), ("<=", .lessEqual), (">", .greater),
          (">=", .greaterEqual)] t

/-- Takes the operator of a comparison, if one comes next. -/
def nextComparison : Read (Option BinaryOp) := do
  match (← peek).bind (comparisonOperator ·.token) with
  | some op =>
      let _ ← next
      pure (some op)
  | none =>
      if ← skip (.name "not") then
        expect (.name "in") "in"
        pure (some .excluded)
      else pure none

/-- Comparisons; several in a row hold together. -/
def comparison (n : Nested) : Read Expr := do
  let line := (← get).line
  let first ← sum n
  let links ← iterate (fun (acc : List (BinaryOp × Expr)) => do
    match ← nextComparison with
    | some op => do pure (.inl ((op, ← sum n) :: acc))
    | none => pure (.inr acc.reverse)) []
  match links with
  | [] => pure first
  | [(op, right)] => pure (.placed line (.binary op first right))
  | links => pure (.placed line (.chain first (links.map Prod.fst) (links.map Prod.snd)))

/-- The operator of a word. -/
def wordOperator (word : String) (op : BinaryOp) : Token → Option BinaryOp
  | .name s => if s = word then some op else none
  | _ => none

/-- Negations. -/
def negation (n : Nested) : Read Expr := prefixed (.name "not") .not (comparison n)

/-- Conjunctions. -/
def conjunction (n : Nested) : Read Expr :=
  leftAssociative (wordOperator "and" .and) (negation n)

/-- Disjunctions. -/
def disjunction (n : Nested) : Read Expr :=
  leftAssociative (wordOperator "or" .or) (conjunction n)

/-- Choices: a value, the condition under which it is meant, and the other value. -/
def choice (n : Nested) : Read Expr := do
  let line := (← get).line
  let first ← disjunction n
  iterate (fun (state : Expr × Nat) => do
    let (e, line) := state
    if ← skip (.name "if") then
      let test ← disjunction n
      let other ← if ← skip (.name "else") then pure (some (← n.other)) else pure none
      pure (.inl (.placed line (.choose test e other), (← get).line))
    else pure (.inr e)) (first, line)

/-- How deeply expressions and statements may be nested. -/
def nestingLimit : Nat := 150

/-- The readers for what is nested where so many levels are left.  The first number limits the
steps; each of them takes a token. -/
def nestedUpTo : Nat → Nat → Nested
  | 0, _ => ⟨true, fail .tooDeep, fail .tooDeep, fail .tooDeep, fail .tooDeep⟩
  | steps + 1, levels =>
      let expr (left : Nat) : Read Expr := fun s =>
        if left = 0 then fail .tooDeep s else choice (nestedUpTo steps (left - 1)) s
      { ended := levels = 0
        expr := expr levels
        inner := expr (levels - 1)
        other := fun s => choice (nestedUpTo steps levels) s
        plain := fun s => disjunction (nestedUpTo steps levels) s }

/-- The readers for what is nested in a statement where so many levels are left. -/
def nestedAt (levels : Nat) : Nested where
  ended := levels = 0
  expr := fun s => (nestedUpTo (s.size + 2) levels).expr s
  inner := fun s => (nestedUpTo (s.size + 2) levels).inner s
  other := fun s => (nestedUpTo (s.size + 2) levels).other s
  plain := fun s => (nestedUpTo (s.size + 2) levels).plain s

/-- An expression, or several with commas between them, which make a list. -/
def expressions (expr : Read Expr) : Read Expr := do
  let line ← currentLine
  let first ← expr
  if ← sees (· == .mark ",") then
    let items ← iterate (fun (acc : List Expr) => do
      if ← skip (.mark ",") then
        if ← sees (· == .tagEnd) then pure (.inr acc.reverse)
        else pure (.inl ((← expr) :: acc))
      else pure (.inr acc.reverse)) [first]
    pure (.placed line (.list items))
  else pure first

/-! ## Targets -/

/-- A name that is assigned to, with its line. -/
def assignableName : Read (String × Nat) := do
  let (name, line) ← expectName
  if reservedNames.contains name then fail (.reservedName name) else pure (name, line)

/-- A name as a target. -/
def nameTarget : Read Target := do pure (.name (← assignableName).1)

/-- A name, or an attribute of what a name stands for. -/
def dottedTarget : Read Target := do
  let (base, line) ← assignableName
  let path ← iterate (fun (acc : List String) => do
    if ← skip (.mark ".") then
      let (name, _) ← expectName
      pure (.inl (name :: acc))
    else pure (.inr acc)) []
  match path with
  | [] => pure (.name base)
  | last :: before => pure (.placed line (.attribute base before.reverse last))

/-- Whether a token ends a list of targets. -/
def endsTargets : Token → Bool
  | .mark s => s == ")"
  | .outputEnd | .tagEnd => true
  | .name s => s == "in"
  | _ => false

/-- One target, or several with commas between them. -/
def targetList (single nested : Read Target) : Read Target := do
  let line ← currentLine
  let several (targets : List Target) : Target := .placed line (.unpack targets)
  iterate (fun (acc : List Target × Bool) => do
    let (found, comma) := acc
    let finish : Read ((List Target × Bool) ⊕ Target) :=
      match found with
      | [t] => pure (.inr (if comma then several [t] else t))
      | ts => pure (.inr (several ts.reverse))
    if !found.isEmpty then expectMark ","
    if ← sees endsTargets then finish
    else
      let t ←
        if ← skip (.mark "(") then
          let t ← nested
          expectMark ")"
          pure t
        else single
      if ← sees (· == .mark ",") then pure (.inl (t :: found, true))
      else
        match found with
        | [] => pure (.inr t)
        | found => pure (.inr (several (t :: found).reverse))) ([], false)

/-- Targets that are nested at most so deep. -/
def targetsUpTo (single : Read Target) : Nat → Read Target
  | 0 => fail .tooDeep
  | n + 1 => targetList single (targetsUpTo single n)

/-- The targets of a loop. -/
def targets : Read Target := targetsUpTo nameTarget nestingLimit

/-! ## Statements -/

/-- The statements up to a tag with one of some words, which is not taken. -/
abbrev Body := List String → Read (List Stmt)

/-- The statements up to a tag with the given word, and that word. -/
def bodyUntil (body : Body) (word : String) : Read (List Stmt) := do
  let stmts ← body [word]
  let _ ← next
  pure stmts

/-- The readers for the parts of a statement. -/
structure Parts where
  body : Body
  nested : Nested

/-- A loop, after its keyword. -/
def loopStatement (p : Parts) : Read Stmt := do
  let target ← targets
  expect (.name "in") "in"
  let items ← p.nested.plain
  let only ← if ← skip (.name "if") then pure (some (← p.nested.expr)) else pure none
  let recursive ← skip (.name "recursive")
  expectTagEnd
  let inner ← p.body ["endfor", "else"]
  let otherwise ←
    if ← skip (.name "else") then
      expectTagEnd
      p.body ["endfor"]
    else pure []
  let _ ← next
  pure (.loop target items only recursive inner otherwise)

/-- The branches of a condition, after its keyword; they are many, so their number is limited by
the tokens. -/
def branches (p : Parts) : Nat → Read Stmt
  | 0 => fail .tooDeep
  | n + 1 => do
      let test ← p.nested.plain
      expectTagEnd
      let yes ← p.body ["endif", "else", "elif"]
      match ← next with
      | some ⟨.name "else", _⟩ =>
          expectTagEnd
          pure (.choose test yes (← bodyUntil p.body "endif"))
      | some ⟨.name "elif", line⟩ =>
          let rest ← branches p n
          pure (.choose test yes [.placed line rest])
      | _ => pure (.choose test yes [])

/-- A block with variables of its own, after its keyword. -/
def scopeStatement (p : Parts) : Read Stmt := do
  let assignments ← iterate (fun (acc : List (Target × Expr)) => do
    if ← sees (· == .tagEnd) then pure (.inr acc.reverse)
    else
      if !acc.isEmpty then expect (.mark ",") "comma"
      let target ←
        if ← skip (.mark "(") then
          let t ← targets
          expectMark ")"
          pure t
        else nameTarget
      expect (.mark "=") "assignment operator"
      pure (.inl ((target, ← p.nested.expr) :: acc))) []
  expectTagEnd
  let inner ← bodyUntil p.body "endwith"
  pure (.scope (assignments.map Prod.fst) (assignments.map Prod.snd) inner)

/-- Filters with bars between them, up to the end of a tag. -/
def filterChain (n : Nested) : Read (List FilterCall) := do
  let calls ← iterate (fun (acc : List FilterCall) => do
    if ← sees (· == .tagEnd) then pure (.inr acc.reverse)
    else
      if !acc.isEmpty then expectMark "|"
      let (name, line) ← dottedName
      pure (.inl (⟨name, line, ← optionalArguments n⟩ :: acc))) []
  if calls.isEmpty then fail .expectedFilter else pure calls

/-- An assignment of a value or of a block, after its keyword. -/
def assignStatement (p : Parts) : Read Stmt := do
  let bracketed ← sees (· == .mark "(")
  let target ← targetsUpTo dottedTarget nestingLimit
  if !bracketed && (← sees fun t => t == .tagEnd || t == .mark "|") then
    let calls ← if ← skip (.mark "|") then filterChain p.nested else pure []
    expectTagEnd
    pure (.assignBlock target calls (← bodyUntil p.body "endset"))
  else
    expect (.mark "=") "assignment operator"
    pure (.assign target (← expressions p.nested.expr))

/-- Whether a statement is nothing but white space. -/
def Stmt.isBlank : Stmt → Bool
  | .placed _ s => s.isBlank
  | .data text => Text.isBlankText text
  | _ => false

/-- A block that can be replaced, after its keyword. -/
def blockStatement (p : Parts) : Read Stmt := do
  if (← get).inRoutine then fail .blockInRoutine
  let (name, _) ← expectName
  if (← get).blockNames.contains name then fail (.duplicateBlock name)
  modify fun s => { s with blockNames := name :: s.blockNames }
  let _ ← skip (.name "scoped")
  let required ← skip (.name "required")
  expectTagEnd
  let inner ← bodyUntil p.body "endblock"
  if required && !inner.all Stmt.isBlank then fail .filledRequiredBlock
  match ← peek with
  | some ⟨.name trailing, _⟩ =>
      if trailing ≠ name then fail (.mismatchedBlock trailing name)
      let _ ← next
  | _ => pure ()
  modify fun s => { s with blocks := s.blocks ++ [(name, inner)] }
  pure (.block name required inner)

/-- The words that say which variables another template sees; it sees all of them anyway. -/
def contextWords : Read Unit := do
  if ← sees fun t => t == .name "with" || t == .name "without" then
    let _ ← next
    expect (.name "context") "context"

/-- The inclusion of another template, after its keyword. -/
def insertStatement (p : Parts) : Read Stmt := do
  let source ← p.nested.expr
  contextWords
  if ← skip (.name "ignore") then
    expect (.name "missing") "missing keyword"
    contextWords
    pure (.insert source true)
  else pure (.insert source false)

/-- The import of a template as a module, after its keyword. -/
def importStatement (p : Parts) : Read Stmt := do
  let source ← p.nested.expr
  expect (.name "as") "as"
  let target ← dottedTarget
  contextWords
  pure (.importAll source target)

/-- The import of names from a template, after its keyword. -/
def fromStatement (p : Parts) : Read Stmt := do
  let source ← p.nested.expr
  expect (.name "import") "import"
  let ends (t : Token) : Bool := t == .tagEnd || t == .name "with" || t == .name "without"
  let names ← iterate (fun (acc : List (String × String)) => do
    if ← sees ends then pure (.inr acc.reverse)
    else
      if !acc.isEmpty then expectMark ","
      if ← sees ends then pure (.inr acc.reverse)
      else
        let (name, _) ← assignableName
        let alias_ ← if ← skip (.name "as") then do pure (← assignableName).1 else pure name
        pure (.inl ((name, alias_) :: acc))) []
  contextWords
  pure (.importNames source names)

/-- The parameters of a routine with their defaults, after the parenthesis. -/
def parameters (expr : Read Expr) : Read (List (String × Option Expr)) :=
  iterate (fun (acc : List (String × Option Expr)) => do
    if ← skip (.mark ")") then pure (.inr acc.reverse)
    else
      if !acc.isEmpty then expectMark ","
      if !acc.isEmpty && (← skip (.mark ")")) then pure (.inr acc.reverse)
      else
        let (name, _) ← assignableName
        if ← skip (.mark "=") then pure (.inl ((name, some (← expr)) :: acc))
        else
          if acc.any (·.2.isSome) then expectMark "="
          pure (.inl ((name, none) :: acc))) []

/-- The body of a routine, with its parameters in front of it, the last one first. -/
def routineBody (body : Body) (word : String) (params : List (String × Option Expr)) :
    Read (List Stmt) := do
  expectTagEnd
  let outer := (← get).inRoutine
  modify fun s => { s with inRoutine := true }
  let inner ← bodyUntil body word
  modify fun s => { s with inRoutine := outer }
  pure ((params.reverse.map fun (name, value) => .param name value) ++ inner)

/-- The names that a routine reads from around it, and whether it calls back. -/
def captured (params : List String) (body : List Stmt) : List String × Bool :=
  let names := outerNames params body
  (names.filter (· != "caller"), names.contains "caller")

/-- The definition of a routine, after its keyword. -/
def routineStatement (p : Parts) : Read Stmt := do
  let (name, _) ← expectName
  expectMark "("
  let declared ← parameters p.nested.expr
  let params := declared.map Prod.fst
  let inner ← routineBody p.body "endmacro" declared
  let (names, calls) := captured params inner
  pure (.routine name params names calls inner)

/-- How an expression is called in messages. -/
def Expr.describe (e : Expr) : String :=
  match e.bare with
  | .const _ => "constant"
  | .var _ => "variable"
  | .list _ => "list literal"
  | .map .. => "map literal"
  | .filter .. => "filter expression"
  | .test .. => "test expression"
  | .call .. | .callName .. | .callMethod .. | .ownBlock _ => "call"
  | _ => "expression"

/-- A call with one more argument, unless the expression is no call. -/
def Expr.withArgument? (a : Arg) : Expr → Option Expr
  | .placed line e => (e.withArgument? a).map (.placed line)
  | .call f args => some (.call f (args ++ [a]))
  | .callName name args => some (.callName name (args ++ [a]))
  | .callMethod e name args => some (.callMethod e name (args ++ [a]))
  | .ownBlock name => some (.ownBlock name)
  | _ => none

/-- A call whose routine gets a block, after its keyword.  The call goes on where the block
ends. -/
def callStatement (p : Parts) : Read Stmt := do
  let line := (← get).line
  let declared ← if ← skip (.mark "(") then parameters p.nested.expr else pure []
  let params := declared.map Prod.fst
  let e ← p.nested.expr
  if e.describe ≠ "call" then fail (.expectedCall e.describe)
  let inner ← routineBody p.body "endcall" declared
  let caller : Expr := .placed (lineAfterAll line inner) (.var callerName)
  let call := (e.withArgument? (.named "caller" caller)).getD e
  let (names, calls) := captured params inner
  pure (.callBlock call params names calls inner)

/-- A call whose result is dropped, after its keyword. -/
def runStatement (p : Parts) : Read Stmt := do
  let e ← p.nested.expr
  if e.describe = "call" then pure (.run e) else fail (.expectedCall e.describe)

/-- A statement, after the opening mark of its tag and up to the closing one. -/
def statement (parts : Parts) : Read Stmt := do
  let p ← any "block keyword"
  match p.token with
  | .name word =>
      let s ←
        match word with
        | "for" => loopStatement parts
        | "if" => do branches parts ((← get).size + 1)
        | "with" => scopeStatement parts
        | "set" => assignStatement parts
        | "autoescape" => do
            let mode ← parts.nested.expr
            expectTagEnd
            pure (.escaping mode (← bodyUntil parts.body "endautoescape"))
        | "filter" => do
            let calls ← filterChain parts.nested
            expectTagEnd
            pure (.filtered calls (← bodyUntil parts.body "endfilter"))
        | "block" => blockStatement parts
        | "extends" => do pure (.inherit (← parts.nested.expr))
        | "include" => insertStatement parts
        | "import" => importStatement parts
        | "from" => fromStatement parts
        | "macro" => routineStatement parts
        | "call" => callStatement parts
        | "do" => runStatement parts
        | name => fail (.unknownStatement name)
      pure (.placed p.line s)
  | t => fail (.notAStatement t.describe)

/-- The statements up to a tag with one of some words, with the readers for a tag and an output. -/
def statements (tag : Read Stmt) (output : Read Expr) : Body := fun words =>
  iterate (fun (acc : List Stmt) => do
    match ← next with
    | none => pure (.inr acc.reverse)
    | some ⟨.data s, line⟩ => pure (.inl (.placed line (.data s) :: acc))
    | some ⟨.outputStart, line⟩ =>
        let e ← output
        expect .outputEnd Token.outputEnd.describe
        pure (.inl (.placed line (.emit e) :: acc))
    | some ⟨.tagStart, _⟩ =>
        match ← peek with
        | none => fail (.unexpected "end of input" (some "block keyword"))
        | some p =>
            if words.any (p.token == .name ·) then pure (.inr acc.reverse)
            else
              let s ← tag
              expectTagEnd
              pure (.inl (s :: acc))
    | some p => fail (.unexpected p.token.describe none)) []

/-- Statements where so many levels are left. -/
def bodyUpTo : Nat → Body
  | 0 => statements (fail .tooDeep) (fail .tooDeep)
  | n + 1 => statements (statement ⟨bodyUpTo n, nestedAt n⟩) (nestedAt (n + 1)).expr

/-- Reads a template; a fault comes with its line. -/
def Source.ofText? (name text : String) : Except (ReadFault × Nat) Source :=
  let all := tokens text
  match (bodyUpTo nestingLimit []).run { tokens := all, size := all.length } with
  | .ok (body, s) => .ok ⟨name, body, s.blocks⟩
  | .error e => .error e

end Stencil.Template
