/-!
# Cutting text

Pieces between separators, lines, the part after the last dot, prefixes and
the place of a text inside another.  Each function works on lists of
characters and has a form on strings.
-/

namespace Stencil.Text

/-- The pieces between the separators, one more than there are separators. -/
def pieces (sep : Char) : List Char → List (List Char)
  | [] => [[]]
  | c :: rest =>
      if c = sep then [] :: pieces sep rest
      else
        match pieces sep rest with
        | [] => [[c]]
        | p :: ps => (c :: p) :: ps

/-- The pieces of a text between the separators. -/
def split (sep : Char) (s : String) : List String :=
  (pieces sep s.toList).map String.ofList

/-- The text before and after the first separator. -/
def cutFirstList (sep : Char) : List Char → Option (List Char × List Char)
  | [] => none
  | c :: rest =>
      if c = sep then some ([], rest)
      else (cutFirstList sep rest).map fun (a, b) => (c :: a, b)

/-- What stands before and after the last separator. -/
def cutLastList {α : Type} [DecidableEq α] (sep : α) : List α → Option (List α × List α)
  | [] => none
  | c :: rest =>
      match cutLastList sep rest with
      | some (a, b) => some (c :: a, b)
      | none => if c = sep then some ([], rest) else none

/-- The text before and after the first separator. -/
def cutFirst (sep : Char) (s : String) : Option (String × String) :=
  (cutFirstList sep s.toList).map fun (a, b) => (String.ofList a, String.ofList b)

/-- The text before and after the last separator. -/
def cutLast (sep : Char) (s : String) : Option (String × String) :=
  (cutLastList sep s.toList).map fun (a, b) => (String.ofList a, String.ofList b)

/-- The text after the last separator, all of it when there is none. -/
def afterLast (sep : Char) (s : String) : String :=
  match cutLast sep s with
  | some (_, b) => b
  | none => s

/-- What follows the given characters, if the text starts with them. -/
def dropPrefixList : List Char → List Char → Option (List Char)
  | [], cs => some cs
  | _ :: _, [] => none
  | p :: ps, c :: cs => if p = c then dropPrefixList ps cs else none

/-- What follows the given text, if the string starts with it. -/
def dropPrefix (start s : String) : Option String :=
  (dropPrefixList start.toList s.toList).map String.ofList

theorem dropPrefixList_eq_some_iff {ps cs rest : List Char} :
    dropPrefixList ps cs = some rest ↔ cs = ps ++ rest := by
  induction ps generalizing cs with
  | nil => simp [dropPrefixList]
  | cons p ps ih =>
      cases cs with
      | nil => simp [dropPrefixList]
      | cons c cs =>
          by_cases h : p = c
          · simp [dropPrefixList, h, ih]
          · simp [dropPrefixList, h, Ne.symm h]

/-- What precedes the given characters, if the text ends with them. -/
def dropSuffixList (ending cs : List Char) : Option (List Char) :=
  (dropPrefixList ending.reverse cs.reverse).map List.reverse

theorem dropSuffixList_eq_some_iff {ending cs rest : List Char} :
    dropSuffixList ending cs = some rest ↔ cs = rest ++ ending := by
  simp only [dropSuffixList, Option.map_eq_some_iff, dropPrefixList_eq_some_iff]
  constructor
  · rintro ⟨a, h, rfl⟩
    simpa using congrArg List.reverse h
  · rintro rfl
    exact ⟨rest.reverse, by simp⟩

/-- What precedes the given text, if the string ends with it. -/
def dropSuffix (ending s : String) : Option String :=
  (dropSuffixList ending.toList s.toList).map String.ofList

/-- The text without a leading `QT`. -/
def stripQt (s : String) : String :=
  (dropPrefix "QT" s).getD s

/-- The characters before the first place where the needle stands. -/
def beforeList (needle : List Char) : List Char → Option (List Char)
  | [] => if needle.isEmpty then some [] else none
  | c :: rest =>
      if (dropPrefixList needle (c :: rest)).isSome then some []
      else (beforeList needle rest).map (c :: ·)

/-- The byte offset of the first place where the needle stands. -/
def find? (needle s : String) : Option Nat :=
  (beforeList needle.toList s.toList).map fun cs => (String.ofList cs).utf8ByteSize

/-- Whether the needle stands somewhere in the text. -/
def contains (needle s : String) : Bool :=
  (beforeList needle.toList s.toList).isSome

/-- Every place of the needle replaced, from left to right. -/
def replaceList (fuel : Nat) (needle by_ : List Char) (cs : List Char) : List Char :=
  match fuel with
  | 0 => cs
  | fuel + 1 =>
      match dropPrefixList needle cs with
      | some rest =>
          if needle.isEmpty then
            match cs with
            | [] => by_
            | c :: rest => by_ ++ c :: replaceList fuel needle by_ rest
          else by_ ++ replaceList fuel needle by_ rest
      | none =>
          match cs with
          | [] => []
          | c :: rest => c :: replaceList fuel needle by_ rest

/-- Every place of the needle replaced; an empty needle stands around every character. -/
def replace (needle by_ s : String) : String :=
  String.ofList (replaceList (s.toList.length + 1) needle.toList by_.toList s.toList)

/-- A line without the carriage return at its end. -/
def dropReturn (cs : List Char) : List Char :=
  match cs.reverse with
  | '\r' :: rest => rest.reverse
  | _ => cs

/-- The lines of a text; a line break at the end starts no further line. -/
def lineList (cs : List Char) : List (List Char) :=
  let all := pieces '\n' cs
  let body := all.dropLast.map dropReturn
  match all.getLast? with
  | none | some [] => body
  | some l => body ++ [l]

/-- The lines of a text. -/
def lines (s : String) : List String :=
  (lineList s.toList).map String.ofList

end Stencil.Text
