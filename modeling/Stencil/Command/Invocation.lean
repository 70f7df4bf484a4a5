import Stencil.Command.Arguments
import Stencil.Generate.Session

/-!
# Invocations of the program

The commands of the program, and what a list of arguments asks for.
-/

namespace Stencil.Command

/-- What the program is asked to do. -/
inductive Invocation where
  | generate (r : Generate.Request)
  | selfCheck
  | templates (searchPath : List String)
  deriving Repr

/-- The option for more reports, which every command takes. -/
def verboseChoice : Choice := { name := "verbose", letter := some 'v', valued := false }

/-- The option for a directory with templates. -/
def searchChoice : Choice :=
  { name := "template-search-path", letter := some 'T', repeatable := true }

/-- The options before the name of a command. -/
def programForm : Form := ⟨[verboseChoice, helpChoice, versionChoice], none⟩

/-- The arguments of the command that generates files: documents and, last, the destination. -/
def generateForm : Form where
  choices :=
    [{ name := "template", letter := some 't', emptyAllowed := true }, searchChoice,
      { name := "module", emptyAllowed := true }, { name := "force", valued := false },
      { name := "annotation", letter := some 'A', repeatable := true },
      { name := "import", letter := some 'I', repeatable := true }, verboseChoice, helpChoice]
  leastRun := some 2

/-- The arguments of the self check. -/
def selfCheckForm : Form := ⟨[verboseChoice, helpChoice], none⟩

/-- The arguments of the command that lists templates. -/
def templatesForm : Form := ⟨[searchChoice, verboseChoice, helpChoice], none⟩

/-- The names of the commands. -/
def names : List String := ["generate", "selfcheck", "templates", "help"]

/-- The request in the arguments of the command that generates files. -/
def request (r : Reading) : Except Interruption Generate.Request :=
  match r.operands.getLast?, r.value? "template" with
  | none, _ => refuse .missingOperands
  | _, none => refuse (.missingOption "template")
  | some destination, some template => .ok {
      sources := r.operands.dropLast, destination, template
      searchPath := r.values "template-search-path", module := r.value? "module"
      force := r.has "force", annotations := r.values "annotation", imports := r.values "import" }

namespace Invocation

/-- What a command with its arguments asks for. -/
def ofCommand (name : String) (arguments : List String) : Except Interruption Invocation :=
  match name with
  | "generate" => do return .generate (← request (← generateForm.read arguments))
  | "selfcheck" => do
      let _ ← selfCheckForm.read arguments
      return .selfCheck
  | "templates" => do
      let r ← templatesForm.read arguments
      if r.has "template-search-path" then return .templates (r.values "template-search-path")
      else refuse (.missingOption "template-search-path")
  | "help" =>
      match arguments.find? fun name => !names.contains name with
      | some name => refuse (.unknownCommand name)
      | none =>
          match arguments with
          | _ :: text :: _ => refuse (.unexpectedOperand text)
          | _ => .error .help
  | _ => refuse (.unknownCommand name)

/-- What arguments ask for: options, the name of a command, and its arguments. -/
def ofArguments (r : Reading) : List String → Except Interruption Invocation
  | [] => refuse .noCommand
  | text :: rest =>
      match r.verbatim, Word.ofText text with
      | false, .plain name => ofCommand name rest
      | _, _ => do ofArguments (← r.argument programForm text) rest

/-- What the arguments of the program ask for. -/
def read (arguments : List String) : Except Interruption Invocation := ofArguments {} arguments

end Invocation

end Stencil.Command
