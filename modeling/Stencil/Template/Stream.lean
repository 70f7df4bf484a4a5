import Stencil.Template.Tree
import Stencil.Template.Token

/-!
# Reading tokens

The ways a template can fail to be read, and the steps from which its reading is
put together: look at the next token, take it, demand it, repeat.
-/

namespace Stencil.Template

/-- Why the tokens are no template. -/
inductive ReadFault where
  | token (f : TokenFault)
  | unexpected (found : String) (expected : Option String)
  | notAStatement (found : String)
  | unknownStatement (name : String)
  | reservedName (name : String)
  | emptySubscript
  | positionalAfterNamed
  | blockInRoutine
  | duplicateBlock (name : String)
  | mismatchedBlock (found expected : String)
  | expectedCall (found : String)
  | filledRequiredBlock
  | expectedFilter
  | tooDeep
  deriving DecidableEq, Repr

/-- The text of a fault. -/
def ReadFault.message : ReadFault → String
  | .token f => f.message
  | .unexpected found (some expected) => "unexpected " ++ found ++ ", expected " ++ expected
  | .unexpected found none => "unexpected " ++ found
  | .notAStatement found => "unknown " ++ found ++ ", expected statement"
  | .unknownStatement name => "unknown statement " ++ name
  | .reservedName name => "cannot assign to reserved variable name " ++ name
  | .emptySubscript => "empty subscript"
  | .positionalAfterNamed => "non-keyword arg after keyword arg"
  | .blockInRoutine => "block tags in macros are not allowed"
  | .duplicateBlock name => "block '" ++ name ++ "' defined twice"
  | .mismatchedBlock found expected =>
      "mismatching name on block. Got \x60" ++ found ++ "\x60, expected \x60" ++ expected
        ++ "\x60"
  | .expectedCall found => "expected call expression in call block, got " ++ found
  | .filledRequiredBlock => "Required blocks can only contain comments or whitespace"
  | .expectedFilter => "expected a filter"
  | .tooDeep => "template exceeds maximum recursion limits"

/-- The tokens that are left, and what has been learned from those that were read. -/
structure Stream where
  tokens : List Placed
  /-- How many tokens there were at the start. -/
  size : Nat
  /-- The line of the last token that was read. -/
  line : Nat := 0
  /-- The names of the blocks that have been opened. -/
  blockNames : List String := []
  /-- The blocks that have been closed, with their statements. -/
  blocks : List (String × List Stmt) := []
  inRoutine : Bool := false

/-- A step of reading; a fault comes with its line. -/
abbrev Read := StateT Stream (Except (ReadFault × Nat))

namespace Read

/-- Stops at the last token that was read. -/
def fail {α : Type} (f : ReadFault) : Read α := fun s => .error (f, s.line)

/-- The next token, if there is one. -/
def peek : Read (Option Placed) := fun s =>
  match s.tokens with
  | ⟨.fault f, line⟩ :: _ => .error (.token f, line)
  | p :: _ => .ok (some p, s)
  | [] => .ok (none, s)

/-- Takes the next token. -/
def next : Read (Option Placed) := do
  match ← peek with
  | some p =>
      modify fun s => { s with tokens := s.tokens.tail, line := p.line }
      pure (some p)
  | none => pure none

/-- The line of the next token, or of the last one. -/
def currentLine : Read Nat := do
  match ← peek with
  | some p => pure p.line
  | none => pure (← get).line

/-- Whether the next token is one of some. -/
def sees (f : Token → Bool) : Read Bool := do
  match ← peek with
  | some p => pure (f p.token)
  | none => pure false

/-- Takes the next token if it is the given one. -/
def skip (t : Token) : Read Bool := do
  if ← sees (· == t) then
    let _ ← next
    pure true
  else pure false

/-- Takes the next token, which is called as given. -/
def any (expected : String) : Read Placed := do
  match ← next with
  | some p => pure p
  | none => fail (.unexpected "end of input" (some expected))

/-- Takes a token that has to be the given one. -/
def expect (t : Token) (expected : String) : Read Unit := do
  let p ← any expected
  if p.token = t then pure () else fail (.unexpected p.token.describe (some expected))

/-- Takes a mark that has to be the given one. -/
def expectMark (s : String) : Read Unit := expect (.mark s) (Token.mark s).describe

/-- Takes a name. -/
def expectName : Read (String × Nat) := do
  let p ← any "identifier"
  match p.token with
  | .name s => pure (s, p.line)
  | t => fail (.unexpected t.describe (some "identifier"))

/-- Takes the end of a tag. -/
def expectTagEnd : Read Unit := expect .tagEnd Token.tagEnd.describe

/-- Repeats a step on its own result until it is done, at most a number of times. -/
def iterateUpTo {α β : Type} (step : α → Read (α ⊕ β)) : Nat → α → Read β
  | 0, _ => fail .tooDeep
  | n + 1, a => do
      match ← step a with
      | .inl a => iterateUpTo step n a
      | .inr b => pure b

/-- Repeats a step on its own result until it is done.  A step takes a token unless it is done, so
it is done in time. -/
def iterate {α β : Type} (step : α → Read (α ⊕ β)) (a : α) : Read β := do
  iterateUpTo step ((← get).size + 2) a

/-- Items with commas between them and perhaps after them, up to a closing mark. -/
def items {α : Type} (close : Token) (item : Read α) : Read (List α) :=
  iterate (fun acc => do
    if ← skip close then pure (.inr acc.reverse)
    else if acc.isEmpty then pure (.inl [← item])
    else
      expectMark ","
      if ← skip close then pure (.inr acc.reverse)
      else pure (.inl ((← item) :: acc))) ([] : List α)

/-- Operands with operators between them, grouped from the left. -/
def leftAssociative (operator? : Token → Option BinaryOp) (operand : Read Expr) : Read Expr := do
  let line ← currentLine
  let first ← operand
  iterate (fun left => do
    match (← peek).bind (operator? ·.token) with
    | some op =>
        let _ ← next
        let right ← operand
        pure (.inl (.placed line (.binary op left right)))
    | none => pure (.inr left)) first

/-- An operand after any number of the same operator. -/
def prefixed (operator : Token) (op : UnaryOp) (operand : Read Expr) : Read Expr := do
  let lines ← iterate (fun (acc : List Nat) => do
    let line ← currentLine
    if ← skip operator then pure (.inl (line :: acc)) else pure (.inr acc)) []
  let e ← operand
  pure (lines.foldl (fun e line => .placed line (.unary op e)) e)

end Read

end Stencil.Template
