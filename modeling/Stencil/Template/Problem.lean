import Stencil.Spelling.Error
import Stencil.Template.Value
import Stencil.Template.Stream
import Stencil.Text.Quoted

/-!
# What can go wrong in a template

The causes for which rendering stops, with their texts.
-/

namespace Stencil.Template

/-- Why rendering stops. -/
inductive Problem where
  | unreadable (f : ReadFault)
  | missingTemplate (name : String)
  | brokenTemplate (path : String)
  | missingInsert (name : String)
  | missingInserts (names : String)
  | sourceNotText
  | inheritanceCycle (name : String)
  | secondParent
  | nestingLimit
  | undefinedValue
  | notIterable (k : Kind)
  | unpackNothing
  | unpackCount (expected found : Nat)
  | assignAttribute (k : Kind)
  | unknownFilter (name : String)
  | unknownTest (name : String)
  | unknownFunction (name : String)
  | notCallable (k : Kind)
  | objectNotCallable
  | loopNotCallable
  | noMethod (k : Kind) (name : String)
  | noLoopMethod (name : String)
  | missingArgument
  | tooManyArguments
  | duplicateArgument (name : String)
  | unknownArgument (name : String)
  | superArguments
  | superOutside
  | noParentBlock
  | unknownBlock (name : String)
  | requiredBlock (name : String)
  | loopArguments
  | loopOutside
  | notRecursive
  | impossible (operator : String) (left right : Kind)
  | failedOperation (operator left right : String)
  | invalidOperation
  | overflow
  | textRepeat
  | listRepeat
  | unsizedRepeat
  | noContainment
  | notSliceable (k : Kind)
  | zeroStep
  | rangeTooLong
  | noLength (k : Kind)
  | notReversible (k : Kind)
  | notNumber (what : String)
  | badEscaping
  | filterArgument (message : String)
  | spelling (e : Spelling.Error)
  | unknownSymbol (filter shown : String) (k : Option Kind)
  | raised (message : String)
  /-- A division by zero that no template can be told about: it ends the run. -/
  | divisionByZero
  deriving DecidableEq

/-- The text of a problem. -/
def Problem.message : Problem → String
  | .unreadable f => f.message
  | .missingTemplate name => "template " ++ Text.quoted name ++ " does not exist"
  | .brokenTemplate path => "could not read template '" ++ path ++ "'"
  | .missingInsert name => "tried to include non-existing template " ++ Text.quoted name
  | .missingInserts names =>
      "tried to include one of multiple templates, none of which existed " ++ names
  | .sourceNotText => "template name was not a string"
  | .inheritanceCycle name =>
      "cycle in template inheritance. " ++ Text.quoted name ++ " was referenced more than once"
  | .secondParent => "tried to extend a second time in a template"
  | .nestingLimit => "recursion limit exceeded"
  | .undefinedValue => "undefined value"
  | .notIterable k => k.word ++ " is not iterable"
  | .unpackNothing => "value is not iterable"
  | .unpackCount expected found =>
      "sequence of wrong length (expected " ++ toString expected ++ ", got " ++ toString found
        ++ ")"
  | .assignAttribute k => "can only assign to namespaces, not " ++ k.word
  | .unknownFilter name => "filter " ++ name ++ " is unknown"
  | .unknownTest name => "test " ++ name ++ " is unknown"
  | .unknownFunction name => name ++ " is unknown"
  | .notCallable k => "value of type " ++ k.word ++ " is not callable"
  | .objectNotCallable => "object is not callable"
  | .loopNotCallable => "loop recursion cannot be called this way"
  | .noLoopMethod name => "loop object has no method named " ++ name
  | .noMethod k name => k.word ++ " has no method named " ++ name
  | .missingArgument => "missing argument"
  | .tooManyArguments => "too many arguments"
  | .duplicateArgument name => "duplicate argument \x60" ++ name ++ "\x60"
  | .unknownArgument name => "unknown keyword argument \x60" ++ name ++ "\x60"
  | .superArguments => "super() takes no arguments"
  | .superOutside => "cannot super outside of block"
  | .noParentBlock => "no parent block exists"
  | .requiredBlock name => "Required block '" ++ name ++ "' not found"
  | .unknownBlock name => "block '" ++ name ++ "' not found"
  | .loopArguments => "loop() takes one argument"
  | .loopOutside => "cannot recurse outside of loop"
  | .notRecursive => "cannot recurse outside of recursive loop"
  | .impossible operator left right =>
      "tried to use " ++ operator ++ " operator on unsupported types " ++ left.word ++ " and "
        ++ right.word
  | .failedOperation operator left right =>
      "unable to calculate " ++ left ++ " " ++ operator ++ " " ++ right
  | .invalidOperation => "invalid operation"
  | .overflow => "overflow"
  | .textRepeat => "strings can only be multiplied with integers"
  | .listRepeat => "sequences and iterables can only be multiplied with integers"
  | .unsizedRepeat => "cannot repeat unsized iterables"
  | .noContainment => "cannot perform a containment check on this value"
  | .notSliceable k => "value of type " ++ k.word ++ " cannot be sliced"
  | .zeroStep => "cannot slice by step size of 0"
  | .rangeTooLong => "range has too many elements"
  | .noLength k => "cannot calculate length of value of type " ++ k.word
  | .notReversible k => "cannot reverse values of type " ++ k.word
  | .notNumber what => what
  | .badEscaping => "invalid value to autoescape tag"
  | .filterArgument message => message
  | .spelling e => e.message
  | .unknownSymbol filter shown (some k) =>
      filter ++ ": Unknown symbol " ++ shown ++ " of type " ++ k.word
  | .unknownSymbol filter shown none => filter ++ ": Unknown symbol " ++ shown
  | .raised message => message
  | .divisionByZero => "division by zero"

/-- Whether a problem ends the run instead of being reported. -/
def Problem.isFatal : Problem → Bool
  | .divisionByZero => true
  | _ => false

end Stencil.Template
