import SchemaClasses.Binary64

/-! JSON values, in which integers and floats differ and members keep their order. -/

namespace SchemaClasses

/-- A JSON value; integer literals of 64 bits stay exact, all other numbers are doubles. -/
inductive Json where
  | null
  | bool (value : Bool)
  | integer (value : Int)
  | float (value : Binary64)
  | string (text : String)
  | array (items : List Json)
  | object (members : List (String × Json))
deriving Repr, Inhabited

namespace Json

mutual

/-- Equality of values, for which the order of members does not matter. -/
def same : Json → Json → Bool
  | null, null => true
  | bool a, bool b => a == b
  | integer a, integer b => a == b
  | float a, float b => a.equals b
  | string a, string b => a == b
  | array a, array b => sameItems a b
  | object a, object b => a.length == b.length && sameMembers a b
  | _, _ => false

/-- Item by item equality. -/
def sameItems : List Json → List Json → Bool
  | [], [] => true
  | a :: as, b :: bs => same a b && sameItems as bs
  | _, _ => false

/-- Whether every member on the left has an equal one on the right. -/
def sameMembers : List (String × Json) → List (String × Json) → Bool
  | [], _ => true
  | (key, a) :: rest, others =>
    (match others.lookup key with
      | some b => same a b
      | none => false) && sameMembers rest others

end

instance : BEq Json := ⟨same⟩

/-- The member of an object with a given name. -/
def member? (name : String) : Json → Option Json
  | object members => members.lookup name
  | _ => none

/-- The text of a string. -/
def text? : Json → Option String
  | string text => some text
  | _ => none

/-- The items of an array. -/
def items? : Json → Option (List Json)
  | array items => some items
  | _ => none

/-- The members of an object. -/
def members? : Json → Option (List (String × Json))
  | object members => some members
  | _ => none

/-- The value of a boolean. -/
def bool? : Json → Option Bool
  | bool value => some value
  | _ => none

/-- Whether the value is a string. -/
def isString (value : Json) : Bool := value.text?.isSome

/-- The numeric value, rounded to a double. -/
def double? : Json → Option Binary64
  | integer n => some (.ofInt n)
  | float x => some x
  | _ => none

/-- An integer literal that fits a signed 64-bit word. -/
def signed? : Json → Option Int
  | integer n => if -0x8000000000000000 ≤ n ∧ n < 0x8000000000000000 then some n else none
  | _ => none

/-- An integer literal that is not negative. -/
def natural? : Json → Option Nat
  | integer n => if 0 ≤ n then some n.toNat else none
  | _ => none

/-- Text, or JSON null in its absence. -/
def ofText? : Option String → Json
  | some text => string text
  | none => null

/-- An array of strings. -/
def ofTexts (texts : List String) : Json := array (texts.map string)

end Json

end SchemaClasses
