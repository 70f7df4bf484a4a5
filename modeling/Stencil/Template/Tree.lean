import Stencil.Decimal.Double

/-!
# Expressions and statements of templates

What a template says once it has been read.  An expression or a statement may be
wrapped with the line it stands in; the line has no meaning but for messages.
-/

namespace Stencil.Template

/-- A literal value. -/
inductive Constant where
  | none
  | bool (b : Bool)
  | int (n : Int)
  | float (d : Double)
  | text (s : String)
  deriving DecidableEq, Repr, Inhabited

/-- An operator with one operand. -/
inductive UnaryOp where
  | not
  | negate
  deriving DecidableEq, Repr

/-- An operator with two operands. -/
inductive BinaryOp where
  | equal
  | unequal
  | less
  | lessEqual
  | greater
  | greaterEqual
  | and
  | or
  | add
  | subtract
  | multiply
  | divide
  | floorDivide
  | remainder
  | power
  | concat
  | contained
  | excluded
  deriving DecidableEq, Repr

mutual
/-- An expression. -/
inductive Expr where
  | placed (line : Nat) (e : Expr)
  | var (name : String)
  | const (c : Constant)
  | list (items : List Expr)
  | map (keys values : List Expr)
  | unary (op : UnaryOp) (e : Expr)
  | binary (op : BinaryOp) (left right : Expr)
  /-- Several comparisons in a row, of which each holds between neighbours. -/
  | chain (first : Expr) (ops : List BinaryOp) (rest : List Expr)
  | choose (test yes : Expr) (no : Option Expr)
  | filter (name : String) (e : Expr) (args : List Arg)
  | test (name : String) (e : Expr) (args : List Arg)
  | attribute (e : Expr) (name : String)
  | item (e key : Expr)
  | slice (e : Expr) (start stop step : Option Expr)
  | call (f : Expr) (args : List Arg)
  /-- A call of what a name stands for. -/
  | callName (name : String) (args : List Arg)
  /-- A call of an attribute of a value. -/
  | callMethod (e : Expr) (name : String) (args : List Arg)
  /-- The text of a block of the template itself. -/
  | ownBlock (name : String)

/-- An argument of a call. -/
inductive Arg where
  | value (e : Expr)
  | named (name : String) (e : Expr)
  | spread (e : Expr)
  | spreadNamed (e : Expr)
end

instance : Inhabited Expr := ⟨.const .none⟩

/-- The expression without its line. -/
def Expr.bare : Expr → Expr
  | .placed _ e => e.bare
  | e => e

/-- What a value is assigned to. -/
inductive Target where
  | placed (line : Nat) (t : Target)
  | name (s : String)
  | attribute (base : String) (path : List String) (name : String)
  | unpack (targets : List Target)
  deriving Inhabited

/-- A filter applied to the text of a block. -/
structure FilterCall where
  name : String
  line : Nat
  args : List Arg

/-- A statement. -/
inductive Stmt where
  | placed (line : Nat) (s : Stmt)
  | data (text : String)
  | emit (e : Expr)
  | loop (target : Target) (items : Expr) (only : Option Expr) (recursive : Bool)
      (body otherwise : List Stmt)
  | choose (test : Expr) (yes no : List Stmt)
  | scope (targets : List Target) (values : List Expr) (body : List Stmt)
  | assign (target : Target) (value : Expr)
  | assignBlock (target : Target) (filters : List FilterCall) (body : List Stmt)
  | escaping (mode : Expr) (body : List Stmt)
  | filtered (filters : List FilterCall) (body : List Stmt)
  /-- A block that can be replaced, or has to be if it is required. -/
  | block (name : String) (required : Bool) (body : List Stmt)
  | inherit (source : Expr)
  | insert (source : Expr) (ignoreMissing : Bool)
  | importAll (source : Expr) (target : Target)
  | importNames (source : Expr) (names : List (String × String))
  | routine (name : String) (params captures : List String) (usesCaller : Bool)
      (body : List Stmt)
  /-- A call in which `callerName` stands for a routine. -/
  | callBlock (call : Expr) (params captures : List String) (usesCaller : Bool)
      (body : List Stmt)
  | run (e : Expr)
  /-- Binds a parameter to its argument, or to its default if there is none. -/
  | param (name : String) (default : Option Expr)

instance : Inhabited Stmt := ⟨.data ""⟩

/-- The variable that holds the routine of a block call; no template can name it. -/
def callerName : String := "caller block"

/-- The variable that holds the items of a loop that calls itself; no template can name it. -/
def itemsName : String := "loop items"

/-- A template that has been read. -/
structure Source where
  name : String
  body : List Stmt
  /-- The blocks, each with its statements. -/
  blocks : List (String × List Stmt)

/-! ## Names -/

mutual
/-- The variables that an expression reads. -/
def Expr.reads : Expr → List String
  | .placed _ e => e.reads
  | .var name => [name]
  | .const _ => []
  | .list items => readsOf items
  | .map keys values => readsOf keys ++ readsOf values
  | .unary _ e => e.reads
  | .binary _ l r => l.reads ++ r.reads
  | .chain first _ rest => first.reads ++ readsOf rest
  | .choose test yes no => test.reads ++ yes.reads ++ optionReads no
  | .filter _ e args => e.reads ++ argsReads args
  | .test _ e args => e.reads ++ argsReads args
  | .attribute e _ => e.reads
  | .item e key => e.reads ++ key.reads
  | .slice e start stop step =>
      e.reads ++ optionReads start ++ optionReads stop ++ optionReads step
  | .call f args => f.reads ++ argsReads args
  | .callName name args => name :: argsReads args
  | .callMethod e _ args => e.reads ++ argsReads args
  | .ownBlock _ => []

/-- The variables that some expressions read. -/
def readsOf : List Expr → List String
  | [] => []
  | e :: rest => e.reads ++ readsOf rest

/-- The variables that an expression reads if it is there. -/
def optionReads : Option Expr → List String
  | none => []
  | some e => e.reads

/-- The variables that an argument reads. -/
def Arg.reads : Arg → List String
  | .value e | .named _ e | .spread e | .spreadNamed e => e.reads

/-- The variables that arguments read. -/
def argsReads : List Arg → List String
  | [] => []
  | a :: rest => a.reads ++ argsReads rest
end

mutual
/-- The names that an assignment binds. -/
def Target.names : Target → List String
  | .placed _ t => t.names
  | .name s => [s]
  | .attribute .. => []
  | .unpack targets => targetNames targets

/-- The names that assignments bind. -/
def targetNames : List Target → List String
  | [] => []
  | t :: rest => t.names ++ targetNames rest
end

/-- Names that are read, and names that are bound from there on. -/
structure Scope where
  bound : List String
  free : List String

/-- The scope after some names were read. -/
def Scope.read (s : Scope) (names : List String) : Scope :=
  { s with free := s.free ++ names.filter fun n => !s.bound.contains n }

/-- The scope after some names were bound. -/
def Scope.bind (s : Scope) (names : List String) : Scope := { s with bound := s.bound ++ names }

/-- The scope outside, after a part with names of its own. -/
def Scope.leave (outer inner : Scope) : Scope := { outer with free := inner.free }

mutual
/-- The scope after a statement. -/
def Stmt.scopeAfter (s : Scope) : Stmt → Scope
  | .placed _ stmt => stmt.scopeAfter s
  | .data _ => s
  | .emit e => s.read e.reads
  | .loop target items only _ body otherwise =>
      let inner := ((s.bind ["loop"]).read items.reads).bind target.names
      let inner := scopeAfterAll (inner.read (optionReads only)) body
      let s := s.leave inner
      s.leave (scopeAfterAll s otherwise)
  | .choose test yes no =>
      let s := s.read test.reads
      let s := s.leave (scopeAfterAll s yes)
      s.leave (scopeAfterAll s no)
  | .scope targets values body =>
      let inner := (s.bind (targetNames targets)).read (readsOf values)
      s.leave (scopeAfterAll inner body)
  | .assign target value => (s.bind target.names).read value.reads
  | .assignBlock target _ body =>
      let s := s.bind target.names
      s.leave (scopeAfterAll s body)
  | .escaping _ body => s.leave (scopeAfterAll s body)
  | .filtered _ body => s.leave (scopeAfterAll s body)
  | .block _ _ body => s.leave (scopeAfterAll (s.bind ["super"]) body)
  | .inherit _ => s
  | .insert .. => s
  | .importAll _ target => s.bind target.names
  | .importNames _ names => s.bind (names.map Prod.snd)
  | .routine name params _ _ body =>
      let s := s.bind [name]
      s.leave (scopeAfterAll (s.bind params) body)
  | .callBlock call params _ _ body =>
      let s := s.read (call.reads.filter (· != callerName))
      s.leave (scopeAfterAll (s.bind params) body)
  | .run e => s.read e.reads
  | .param _ default => s.read (optionReads default)

/-- The scope after some statements. -/
def scopeAfterAll (s : Scope) : List Stmt → Scope
  | [] => s
  | stmt :: rest => scopeAfterAll (stmt.scopeAfter s) rest
end

/-- The names that a routine reads from around it. -/
def outerNames (params : List String) (body : List Stmt) : List String :=
  (scopeAfterAll ⟨params, []⟩ body).free.eraseDups

end Stencil.Template
