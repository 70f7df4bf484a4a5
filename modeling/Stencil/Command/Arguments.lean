import Stencil.Text.Split

/-!
# Arguments of a command

Options are written with two dashes and a name, or with one dash and letters.
What is neither an option nor the value of one is an operand.  Operands come in
runs that no option interrupts; every run has a least length.
-/

namespace Stencil.Command

/-- An option. -/
structure Choice where
  name : String
  letter : Option Char := none
  /-- Whether it has a value; otherwise it only is given or not. -/
  valued : Bool := true
  repeatable : Bool := false
  /-- Whether its value may be empty. -/
  emptyAllowed : Bool := false
  deriving DecidableEq, Repr

/-- What the arguments of a command may be. -/
structure Form where
  choices : List Choice
  /-- The least length of a run of operands, if there may be any. -/
  leastRun : Option Nat := none

/-- Why arguments are not understood. -/
inductive UsageError where
  | unknownOption (text : String)
  | unexpectedValue (option : String)
  | missingValue (option : String)
  | repeated (option : String)
  | unexpectedOperand (text : String)
  | emptyOperand
  | shortRun (least : Nat)
  | missingOption (option : String)
  | missingOperands
  | noCommand
  | unknownCommand (name : String)
  deriving DecidableEq, Repr

/-- The text of an error. -/
def UsageError.message : UsageError → String
  | .unknownOption text => "unexpected argument '" ++ text ++ "'"
  | .unexpectedValue option => "option '--" ++ option ++ "' takes no value"
  | .missingValue option => "option '--" ++ option ++ "' needs a value"
  | .repeated option => "option '--" ++ option ++ "' cannot be used multiple times"
  | .unexpectedOperand text => "unexpected argument '" ++ text ++ "'"
  | .emptyOperand => "arguments must not be empty"
  | .shortRun least => toString least ++ " or more arguments are needed in a row"
  | .missingOption option => "option '--" ++ option ++ "' is required"
  | .missingOperands => "source documents and a destination are required"
  | .noCommand => "a command is required"
  | .unknownCommand name => "unknown command '" ++ name ++ "'"

/-- Why arguments are not read to their end: they are wrong, or they ask for a text about the
program. -/
inductive Interruption where
  | usage (e : UsageError)
  | help
  | version
  deriving DecidableEq, Repr

/-- What an argument is before anything is known about the options. -/
inductive Word where
  | separator
  | long (name : String) (value : Option String)
  | letters (cs : List Char)
  | plain (text : String)
  deriving DecidableEq, Repr

/-- The word of an argument.  A single dash is a plain word. -/
def Word.ofText (text : String) : Word :=
  match text.toList with
  | ['-', '-'] => .separator
  | '-' :: '-' :: cs =>
      match Text.cutFirst '=' (String.ofList cs) with
      | some (name, value) => .long name (some value)
      | none => .long (String.ofList cs) none
  | '-' :: c :: cs => .letters (c :: cs)
  | _ => .plain text

/-- What has been read of the arguments of a command. -/
structure Reading where
  /-- The options that were given, with their values, in order. -/
  given : List (String × String) := []
  operands : List String := []
  /-- The run of operands that is not complete yet. -/
  run : List String := []
  /-- The option whose value comes next. -/
  awaiting : Option Choice := none
  /-- Whether all further arguments are operands. -/
  verbatim : Bool := false

/-- The option that asks for help. -/
def helpChoice : Choice := { name := "help", letter := some 'h', valued := false }

/-- The option that asks for the version. -/
def versionChoice : Choice := { name := "version", letter := some 'V', valued := false }

/-- Stops with an error. -/
def refuse {α : Type} (e : UsageError) : Except Interruption α := .error (.usage e)

namespace Reading

/-- Completes what is open before an option or at the end. -/
def close (form : Form) (r : Reading) : Except Interruption Reading :=
  match r.awaiting with
  | some c => refuse (.missingValue c.name)
  | none =>
      let least := form.leastRun.getD 0
      if r.run.isEmpty then .ok r
      else if r.run.length < least then refuse (.shortRun least)
      else if r.run.any (·.isEmpty) then refuse .emptyOperand
      else .ok { r with operands := r.operands ++ r.run, run := [] }

/-- Notes an option with its value. -/
def note (c : Choice) (value : String) (r : Reading) : Except Interruption Reading :=
  if c = helpChoice then .error .help
  else if c = versionChoice then .error .version
  else if !c.repeatable && r.given.any (·.1 = c.name) then refuse (.repeated c.name)
  else if c.valued && value.isEmpty && !c.emptyAllowed then refuse (.missingValue c.name)
  else .ok { r with given := r.given ++ [(c.name, value)], awaiting := none }

/-- Reads an option written with its name. -/
def long (form : Form) (name : String) (value : Option String) (r : Reading) :
    Except Interruption Reading :=
  match form.choices.find? (·.name = name), value with
  | none, _ => refuse (.unknownOption ("--" ++ name))
  | some c, some v =>
      if c.valued then do (← r.close form).note c v else refuse (.unexpectedValue name)
  | some c, none => do
      let r ← r.close form
      if c.valued then return { r with awaiting := some c } else r.note c ""

/-- Reads options written with letters.  What follows the letter of an option with a value is that
value, with or without an equals sign. -/
def letters (form : Form) : List Char → Reading → Except Interruption Reading
  | [], r => .ok r
  | l :: rest, r =>
      match form.choices.find? (·.letter = some l) with
      | none => refuse (.unknownOption ("-" ++ String.singleton l))
      | some c => do
          let r ← r.close form
          if !c.valued then letters form rest (← r.note c "")
          else
            match rest with
            | [] => return { r with awaiting := some c }
            | '=' :: value => r.note c (String.ofList value)
            | value => r.note c (String.ofList value)

/-- Reads an operand. -/
def operand (form : Form) (text : String) (r : Reading) : Except Interruption Reading :=
  match r.awaiting, form.leastRun with
  | some c, _ => refuse (.missingValue c.name)
  | none, some _ => .ok { r with run := r.run ++ [text] }
  | none, none => refuse (.unexpectedOperand text)

/-- Reads an argument. -/
def argument (form : Form) (r : Reading) (text : String) : Except Interruption Reading :=
  if r.verbatim then r.operand form text
  else
    match Word.ofText text, r.awaiting with
    | .separator, _ => .ok { r with verbatim := true }
    | .long name value, _ => r.long form name value
    | .letters cs, _ => r.letters form cs
    | .plain text, some c => { r with awaiting := none }.note c text
    | .plain text, none => r.operand form text

/-- The value of an option that is given at most once. -/
def value? (name : String) (r : Reading) : Option String := r.given.lookup name

/-- The values of an option that may be repeated, in order. -/
def values (name : String) (r : Reading) : List String :=
  (r.given.filter (·.1 = name)).map (·.2)

/-- Whether an option is given. -/
def has (name : String) (r : Reading) : Bool := (r.value? name).isSome

end Reading

/-- Reads the arguments of a command. -/
def Form.read (form : Form) (arguments : List String) : Except Interruption Reading := do
  (← arguments.foldlM (Reading.argument form) {}).close form

end Stencil.Command
