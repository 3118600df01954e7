/-! Texts cut at a separating character, and joined again. -/

namespace SchemaClasses

/-- The pieces between separators; there is always one more piece than separators. -/
def cut (separator : Char) : List Char → List (List Char)
  | [] => [[]]
  | c :: rest =>
    if c = separator then [] :: cut separator rest
    else match cut separator rest with
      | [] => [[c]]
      | piece :: pieces => (c :: piece) :: pieces

/-- The pieces of a text between separators. -/
def cutText (separator : Char) (text : String) : List String :=
  (cut separator text.toList).map String.ofList

/-- Pieces with separators between them. -/
def joinText (separator : String) (pieces : List String) : String :=
  String.intercalate separator pieces

/-- The parts before and behind the first separator, if there is one. -/
def cutOnce (separator : Char) (text : String) : Option (String × String) :=
  let before := text.toList.takeWhile (· != separator)
  match text.toList.drop before.length with
  | _ :: after => some (String.ofList before, String.ofList after)
  | [] => none

/-- The parts before and behind the last separator, if there is one. -/
def cutLast (separator : Char) (text : String) : Option (String × String) :=
  match (cut separator text.toList).reverse with
  | last :: before :: more =>
    some (joinText (String.singleton separator) ((before :: more).reverse.map String.ofList),
      String.ofList last)
  | _ => none

/-- The last piece of a text. -/
def lastPiece (separator : Char) (text : String) : String :=
  match (cut separator text.toList).reverse with
  | last :: _ => String.ofList last
  | [] => text

end SchemaClasses
