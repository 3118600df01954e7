import SchemaClasses.Json
import SchemaClasses.Text.Segments

/-! JSON pointers: escaped member names, and the value a pointer selects. -/

namespace SchemaClasses

namespace Pointer

/-- A character of a member name inside a pointer. -/
def escapeChar : Char → List Char
  | '~' => ['~', '0']
  | '/' => ['~', '1']
  | c => [c]

/-- A member name as a pointer token: `~` becomes `~0` and `/` becomes `~1`. -/
def escape (name : String) : String := String.ofList (name.toList.flatMap escapeChar)

/-- Every `~1` read as a slash. -/
def decodeSlash : List Char → List Char
  | '~' :: '1' :: rest => '/' :: decodeSlash rest
  | c :: rest => c :: decodeSlash rest
  | [] => []

/-- Every `~0` read as a tilde. -/
def decodeTilde : List Char → List Char
  | '~' :: '0' :: rest => '~' :: decodeTilde rest
  | c :: rest => c :: decodeTilde rest
  | [] => []

/-- The member name of a token; slashes are decoded before tildes, so `~01` is `~1`. -/
def unescape (token : String) : String :=
  String.ofList (decodeTilde (decodeSlash token.toList))

/-- The array index of a token: plain digits without a leading zero. -/
def index? (token : String) : Option Nat :=
  match token.toList with
  | ['0'] => some 0
  | '0' :: _ => none
  | [] => none
  | digits =>
    if digits.all Char.isDigit then
      some (digits.foldl (fun n c => n * 10 + (c.toNat - '0'.toNat)) 0)
    else none

/-- The member or item that one decoded token selects. -/
def step (value : Json) (token : String) : Option Json :=
  match value with
  | .object members => members.lookup token
  | .array items => (index? token).bind (items[·]?)
  | _ => none

/-- The value a pointer selects: the empty pointer is the whole value, any other starts with a
slash and names one step after each. -/
def select (value : Json) (pointer : String) : Option Json :=
  match cutText '/' pointer with
  | [""] => some value
  | "" :: tokens => (tokens.map unescape).foldlM step value
  | _ => none

end Pointer

end SchemaClasses
