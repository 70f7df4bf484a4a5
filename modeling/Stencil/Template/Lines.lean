import Stencil.Template.Literal

/-!
# The lines in which parts end

What goes wrong in an expression is placed in the line of the last part that was
come to, in the order in which the parts are written down.  This is also the line
behind a part of which only a branch has run, so it follows from the text alone.
-/

namespace Stencil.Template

/-- Whether all named arguments are known before a template runs. -/
def namesAreKnown : List Arg → Bool
  | [] => true
  | .named _ e :: rest => e.known?.isSome && namesAreKnown rest
  | .spreadNamed _ :: _ => false
  | _ :: rest => namesAreKnown rest

mutual
/-- The line behind an expression.  Arguments by name come last, and count only if one of them has
to be computed. -/
def Expr.lineAfter (line : Nat) : Expr → Nat
  | .placed own e => if e.known?.isSome then own else e.lineAfter own
  | .var _ | .const _ | .ownBlock _ => line
  | .list items => linesAfter line items
  | .map keys values => linesAfter (linesAfter line keys) values
  | .unary _ e => e.lineAfter line
  | .binary _ l r => r.lineAfter (l.lineAfter line)
  | .chain first _ rest => linesAfter (first.lineAfter line) rest
  | .choose test yes no => optionLineAfter (yes.lineAfter (test.lineAfter line)) no
  | .filter _ e args | .test _ e args | .call e args | .callMethod e _ args =>
      let line := valueLinesAfter (e.lineAfter line) args
      if namesAreKnown args then line else nameLinesAfter line args
  | .callName _ args =>
      let line := valueLinesAfter line args
      if namesAreKnown args then line else nameLinesAfter line args
  | .attribute e _ => e.lineAfter line
  | .item e key => key.lineAfter (e.lineAfter line)
  | .slice e start stop step =>
      optionLineAfter (optionLineAfter (optionLineAfter (e.lineAfter line) start) stop) step

/-- The line behind expressions. -/
def linesAfter (line : Nat) : List Expr → Nat
  | [] => line
  | e :: rest => linesAfter (e.lineAfter line) rest

/-- The line behind an expression that may be missing. -/
def optionLineAfter (line : Nat) : Option Expr → Nat
  | none => line
  | some e => e.lineAfter line

/-- The line behind the arguments by position. -/
def valueLinesAfter (line : Nat) : List Arg → Nat
  | [] => line
  | .value e :: rest | .spread e :: rest => valueLinesAfter (e.lineAfter line) rest
  | _ :: rest => valueLinesAfter line rest

/-- The line behind the arguments by name. -/
def nameLinesAfter (line : Nat) : List Arg → Nat
  | [] => line
  | .named _ e :: rest | .spreadNamed e :: rest => nameLinesAfter (e.lineAfter line) rest
  | _ :: rest => nameLinesAfter line rest
end

/-- The line behind arguments. -/
def argLinesAfter (line : Nat) (args : List Arg) : Nat :=
  let line := valueLinesAfter line args
  if namesAreKnown args then line else nameLinesAfter line args

mutual
/-- The line behind an assignment to a target. -/
def Target.lineAfter (line : Nat) : Target → Nat
  | .placed own t => t.lineAfter own
  | .name _ | .attribute .. => line
  | .unpack targets => targetLinesAfter line targets

/-- The line behind assignments to targets. -/
def targetLinesAfter (line : Nat) : List Target → Nat
  | [] => line
  | t :: rest => targetLinesAfter (t.lineAfter line) rest
end

/-- The line behind filters of a block. -/
def callLinesAfter (line : Nat) (calls : List FilterCall) : Nat :=
  calls.foldl (fun _ call => argLinesAfter call.line call.args) line

mutual
/-- The line behind a statement. -/
def Stmt.lineAfter (line : Nat) : Stmt → Nat
  | .placed own s => s.lineAfter own
  | .data _ | .block .. => line
  | .emit e | .run e | .inherit e | .insert e _ | .importNames e _ => e.lineAfter line
  | .loop target items only _ body otherwise =>
      let line := items.lineAfter line
      let line := if only.isSome then optionLineAfter (target.lineAfter line) only else line
      lineAfterAll (lineAfterAll (target.lineAfter line) body) otherwise
  | .choose test yes no => lineAfterAll (lineAfterAll (test.lineAfter line) yes) no
  | .scope targets values body =>
      lineAfterAll (targetLinesAfter (linesAfter line values) targets) body
  | .assign target value => target.lineAfter (value.lineAfter line)
  | .assignBlock target calls body =>
      target.lineAfter (callLinesAfter (lineAfterAll line body) calls)
  | .escaping mode body => lineAfterAll (mode.lineAfter line) body
  | .filtered calls body => callLinesAfter (lineAfterAll line body) calls
  | .importAll source target => target.lineAfter (source.lineAfter line)
  | .routine _ _ _ _ body => lineAfterAll line body
  | .callBlock call _ _ _ _ => call.lineAfter line
  | .param _ default => optionLineAfter line default

/-- The line behind statements. -/
def lineAfterAll (line : Nat) : List Stmt → Nat
  | [] => line
  | s :: rest => lineAfterAll (s.lineAfter line) rest
end

end Stencil.Template
