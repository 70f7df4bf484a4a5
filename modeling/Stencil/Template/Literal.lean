import Stencil.Template.Operator

/-!
# Expressions of literals

An expression that is built from literals alone has its value before a template
runs.  Its operators do what they always do, but an `and` of two such expressions
that does not hold is false.
-/

namespace Stencil.Template

/-- The world of an expression that is about nothing but literals. -/
def World.empty : World := ⟨.empty, {}⟩

/-- The value of a literal. -/
def Expr.literal? : Expr → Option Value
  | .placed _ e => e.literal?
  | .const c => some (.ofConstant c)
  | _ => none

/-- The value of an expression of literals, unless an operator in it has no result.  A list or a map
counts only if all of its items are literals. -/
def Expr.known? : Expr → Option Value
  | .placed _ e => e.known?
  | .const c => some (.ofConstant c)
  | .list items => (items.mapM Expr.literal?).map .list
  | .map keys values => do
      let keys ← keys.mapM Expr.literal?
      let values ← values.mapM Expr.literal?
      some (.map ((keys.zip values).foldl (fun es (k, v) => World.empty.put k v es) []))
  | .unary .not e => e.known?.map fun v => .bool !(World.empty.isTrue v)
  | .unary .negate e => e.known?.bind fun v => (World.negate v).toOption
  | .binary .and l r => do
      let a ← l.known?
      let b ← r.known?
      some (if World.empty.isTrue a && World.empty.isTrue b then b else .bool false)
  | .binary op l r => do
      let a ← l.known?
      let b ← r.known?
      (World.empty.binary op a b).toOption
  | _ => none

end Stencil.Template
