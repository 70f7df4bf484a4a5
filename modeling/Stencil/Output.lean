import Stencil.Files.Tree

/-!
# Output files

When a rendered text replaces what is on disk.
-/

namespace Stencil

/-- How an existing file is treated. -/
inductive Overwrite where
  /-- Written whatever is there. -/
  | always
  /-- Written unless the same text is there. -/
  | ifChanged
  /-- Written only if nothing is there. -/
  | ifMissing
  deriving DecidableEq, Repr

/-- What became of an output file. -/
inductive WriteResult where
  | written
  | unchanged
  | preserved
  deriving DecidableEq, Repr

/-- The treatment that the flags of a rule and of a run ask for; force wins. -/
def Overwrite.ofFlags (preserve force : Bool) : Overwrite :=
  if force then .always else if preserve then .ifMissing else .ifChanged

namespace Files.Tree

/-- Whether a file holds exactly this text. -/
def holds (t : Tree) (path text : String) : Bool :=
  match t.readText path with
  | .ok s => s = text
  | .error _ => false

/-- Whether an output file has to be written, or what becomes of it instead. -/
def outcome (t : Tree) (o : Overwrite) (path text : String) : WriteResult :=
  match o with
  | .always => .written
  | .ifChanged => if t.holds path text then .unchanged else .written
  | .ifMissing =>
      if t.holds path text then .unchanged
      else if t.exists_ path then .preserved
      else .written

/-- Puts an output file on disk. -/
def output (t : Tree) (o : Overwrite) (path text : String) : Except Fault (WriteResult × Tree) :=
  match t.outcome o path text with
  | .written => (t.write path (.text text)).map (.written, ·)
  | r => .ok (r, t)

end Files.Tree

end Stencil
