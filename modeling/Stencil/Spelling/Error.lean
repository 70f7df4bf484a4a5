import Stencil.Model.Symbol

/-!
# Why a symbol has no spelling
-/

namespace Stencil.Spelling

/-- The opening marks of a comment, tried in this order. -/
def commentMarks : List String := ["/**", "/*!", "/*"]

/-- Why a symbol, an annotation or a comment cannot be written in the generated code. -/
inductive Error where
  | unknownType (filter symbol type : String)
  | shape (filter symbol expected : String)
  | fieldCount (filter symbol : String) (expected actual : Nat)
  | emptyEnum (filter name : String)
  /-- The text of the value would never end, as a struct contains itself. -/
  | endless (filter name : String)
  | notAComment
  | notAModule
  deriving DecidableEq, Repr

/-- The text of an error. -/
def Error.message : Error → String
  | .unknownType filter symbol type =>
      filter ++ ": Unknown symbol " ++ symbol ++ " of type " ++ type
  | .shape filter symbol expected =>
      filter ++ ": value in annotation for symbol " ++ symbol ++ " is supposed to be a "
        ++ expected
  | .fieldCount filter symbol expected actual =>
      filter ++ ": argument count in annotation for symbol " ++ symbol
        ++ " and number of struct fields does not match: Expected " ++ toString expected
        ++ " instead of " ++ toString actual
  | .emptyEnum filter name => filter ++ ": enum " ++ name ++ " has no members"
  | .endless filter name => filter ++ ": struct " ++ name ++ " contains itself"
  | .notAComment =>
      "comment_text: The provided comment needs to be start with one of these strings: ["
        ++ String.intercalate ", " (commentMarks.map fun m => "\"" ++ m ++ "\"") ++ "]"
  | .notAModule => "symbol is not a module"

/-- The error for a symbol whose type has no spelling. -/
def Error.unknown (filter : String) (s : Model.Symbol) : Error :=
  .unknownType filter s.name s.type.name

end Stencil.Spelling
