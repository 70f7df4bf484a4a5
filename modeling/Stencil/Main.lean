import Stencil.Command.Run

/-!
# The program

A run sees the files whose names stand on standard input, one to a line, and the
builtin configuration.  What it changes is written back before its lines are
printed.
-/

namespace Stencil.Main

open Files

/-- The environment variable with the path of the builtin configuration. -/
def configVariable : String := "STENCIL_CONFIG"

/-- The lines of a stream. -/
partial def lines (input : IO.FS.Stream) : IO (List String) := do
  let line ← input.getLine
  if line.isEmpty then return []
  let name := String.ofList (Text.dropReturn (line.toList.filter (· != '\n')))
  return name :: (← lines input)

/-- The content of a file, if it can be read. -/
def content? (path : String) : IO (Option Content) := do
  try
    return some (.ofBytes (← IO.FS.readBinFile path).toList)
  catch _ =>
    return none

/-- Puts a file into the tree. -/
def see (t : Tree) (path : String) : IO Tree := do
  match ← content? path with
  | some c => return ((t.write path c).toOption).getD t
  | none => return t

/-- Writes an entry of the tree. -/
def save (entry : Location × Entry) : IO Unit :=
  let path := "/" ++ String.intercalate "/" entry.1
  match entry.2 with
  | .directory => IO.FS.createDirAll path
  | .file c => IO.FS.writeBinFile path c.bytes

/-- Prints what a run leaves behind, and exits as it does. -/
def finish (e : Command.Exit) : IO UInt32 := do
  e.output.forM IO.println
  e.messages.forM IO.eprintln
  return UInt32.ofNat e.code

/-- The names from the root to the working directory. -/
def working : IO Location := do
  return (Text.split '/' ((← IO.getEnv "PWD").getD "")).filter (!·.isEmpty)

end Stencil.Main

open Stencil in
/-- Runs the program. -/
def main (arguments : List String) : IO UInt32 := do
  let start := Files.Tree.ofWorking (← Main.working)
  match Command.Invocation.read arguments with
  | .error i => Main.finish (Command.interrupted start i)
  | .ok invocation => do
      let config := Builtin.locate (← IO.getEnv Main.configVariable) (toString (← IO.appDir))
      let names ← Main.lines (← IO.getStdin)
      let before ← (config :: names).foldlM Main.see start
      let e := Command.run config before invocation
      (before.changes e.files).forM Main.save
      Main.finish e
