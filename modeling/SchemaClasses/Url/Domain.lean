import SchemaClasses.Text.Segments
import SchemaClasses.Unicode.Category
import SchemaClasses.Unicode.DomainName

/-! The names of network domains, in which letters of all scripts may occur. -/

namespace SchemaClasses

/-! Characters beyond ASCII, spelled with ASCII letters and digits. -/

namespace Punycode

/-- The value of a digit: letters come first. -/
def digitValue? (c : Char) : Option Nat :=
  if 'a' ≤ c ∧ c ≤ 'z' then some (c.toNat - 'a'.toNat)
  else if 'A' ≤ c ∧ c ≤ 'Z' then some (c.toNat - 'A'.toNat)
  else if c.isDigit then some (c.toNat - '0'.toNat + 26)
  else none

/-- The least value that ends a number at a place. -/
def threshold (place bias : Nat) : Nat :=
  if place ≤ bias then 1 else if bias + 26 ≤ place then 26 else place - bias

/-- A distance made small, and the bias that it has come to. -/
def shrink (distance bias : Nat) : Nat × Nat :=
  if 455 < distance then shrink (distance / 35) (bias + 36) else (distance, bias)
termination_by distance
decreasing_by exact Nat.div_lt_self (by omega) (by omega)

/-- The bias for the next number, by the last distance and the number of characters so far. -/
def adapt (distance count : Nat) (isFirst : Bool) : Nat :=
  let scaled := if isFirst then distance / 700 else distance / 2
  let (distance, bias) := shrink (scaled + scaled / count) 0
  bias + 36 * distance / (distance + 38)

/-- A number of which every digit but the last is not below the threshold of its place. -/
def number (bias : Nat) : (place weight sum : Nat) → List Char → Option (Nat × List Char)
  | _, _, _, [] => none
  | place, weight, sum, c :: rest => do
    let digit ← digitValue? c
    let sum := sum + digit * weight
    let least := threshold place bias
    if digit < least then some (sum, rest)
    else number bias (place + 36) (weight * (36 - least)) sum rest

/-- An item put into a list at a position. -/
def insertAt (position : Nat) (item : Nat) (items : List Nat) : List Nat :=
  items.take position ++ item :: items.drop position

/-- The code points put in, one for each number; `steps` bounds them. -/
def insertions : (steps code position bias : Nat) → List Nat → List Char → Option (List Nat)
  | _, _, _, _, found, [] => some found
  | 0, _, _, _, _, _ => none
  | steps + 1, code, position, bias, found, text => do
    let (distance, rest) ← number bias 36 1 0 text
    let count := found.length + 1
    let code := code + (position + distance) / count
    let place := (position + distance) % count
    if 0x10FFFF < code then none
    insertions steps code (place + 1) (adapt distance count (position = 0))
      (insertAt place code found) rest

/-- The code points that a text spells: those in front of the last hyphen stand for themselves, and
the numbers behind it tell where the others are put in. -/
def decode? (text : List Char) : Option (List Nat) :=
  let behind := (text.reverse.takeWhile (· != '-')).reverse
  let plain := text.take (text.length - behind.length - 1)
  insertions text.length 128 0 72 (plain.map Char.toNat) behind

end Punycode

/-! The names of network domains, in which letters of all scripts may occur. -/

namespace Domain

/-- Joins letters that would not be joined, or parts them. -/
def joiner : Char := '\u200d'

/-- Parts letters that would be joined. -/
def nonJoiner : Char := '\u200c'

/-- Whether a character cannot stand in the name of a domain. -/
def isRefused (c : Char) : Bool :=
  0x80 ≤ c.toNat && c != joiner && c != nonJoiner
    && (Unicode.refusedInNames.contains c || Unicode.unassigned.contains c
      || Unicode.privateUse.contains c || Unicode.controls.contains c)

/-- The name with plain characters in the place of others and without what does not count. -/
def plain (name : List Char) : List Char :=
  (name.filter fun c => c.toNat < 0x80 || !Unicode.ignoredInNames.contains c).map fun c =>
    if c.toNat < 0x80 then c.toLower else (Unicode.plainInNames? c).getD c

/-- Signs that belong to the character before them. -/
def isMark (c : Char) : Bool := Unicode.marks.contains c

/-- Signs that do not disturb the direction of their neighbours, or how they are joined. -/
def isTransparent (c : Char) : Bool :=
  Unicode.nonspacingMarks.contains c || Unicode.enclosingMarks.contains c

/-- Whether a joiner may stand between characters, the nearest of which come first on both sides. -/
def mayJoin (c : Char) (before after : List Char) : Bool :=
  let joinsOnward (c : Char) : Bool :=
    Unicode.joinedBehind.contains c || Unicode.joinedBothWays.contains c
  let joinsBackward (c : Char) : Bool :=
    Unicode.joinedBefore.contains c || Unicode.joinedBothWays.contains c
  before.head?.any Unicode.silencers.contains
    || (c == nonJoiner
      && (before.dropWhile isTransparent).head?.any joinsOnward
      && (after.dropWhile isTransparent).head?.any joinsBackward)

/-- Whether all joiners of a label stand where they may, behind the characters before it. -/
def joinersFit (before : List Char) : List Char → Bool
  | [] => true
  | c :: rest =>
    (if c == joiner || c == nonJoiner then mayJoin c before rest else true)
      && joinersFit (c :: before) rest

/-- How a character counts for the direction of a label. -/
inductive Direction where
  | leftToRight
  | rightToLeft
  | arabicNumber
  | europeanNumber
  | mark
  | neutral
deriving DecidableEq, Repr

/-- The direction of a character. -/
def directionOf (c : Char) : Direction :=
  if Unicode.rightToLeft.contains c then .rightToLeft
  else if Unicode.arabicNumbers.contains c then .arabicNumber
  else if Unicode.europeanNumbers.contains c then .europeanNumber
  else if isTransparent c then .mark
  else if Unicode.directionless.contains c then .neutral
  else .leftToRight

/-- Whether a label has a character that makes its domain one with two directions. -/
def turns (label : List Char) : Bool :=
  label.any fun c => directionOf c ∈ [.rightToLeft, .arabicNumber]

/-- Whether the directions in a label can be told apart, in a domain with two of them. -/
def isOrdered (label : List Char) : Bool :=
  let directions := label.map directionOf
  let last := (directions.reverse.dropWhile (· == .mark)).head?
  match directions.head? with
  | none => true
  | some .rightToLeft =>
    !directions.contains .leftToRight
      && last.any (· ∈ [.rightToLeft, .arabicNumber, .europeanNumber])
      && !(directions.contains .arabicNumber && directions.contains .europeanNumber)
  | some .leftToRight =>
    !directions.contains .rightToLeft && !directions.contains .arabicNumber
      && last.any (· ∈ [.leftToRight, .europeanNumber])
  | _ => false

/-- The label that a spelling in ASCII stands for, if it is one; it must be its only spelling. -/
def unfolded? (label : List Char) : Option (List Char) :=
  match label with
  | 'x' :: 'n' :: '-' :: '-' :: rest => do
    if rest.any (0x80 ≤ ·.toNat) then none
    let codes ← Punycode.decode? rest
    if !codes.all Nat.isValidChar then none
    let letters := codes.map Char.ofNat
    let isStable (c : Char) : Bool :=
      if c.toNat < 0x80 then c.toLower == c
      else !Unicode.replacedInNames.contains c && !Unicode.ignoredInNames.contains c
    if letters.all isStable && letters.any (0x80 ≤ ·.toNat) then some letters else none
  | label => some label

/-- Whether a label consists of characters that may stand in it. -/
def isLabel (label : List Char) : Bool :=
  !label.any isRefused && !label.head?.any isMark && joinersFit [] label

/-- The ASCII characters of the name of a domain, in lower case, if it is a valid one. Characters
beyond ASCII are kept. -/
def toPlain? (name : List Char) : Option (List Char) := do
  let plainName := plain name
  let labels ← (cut '.' plainName).mapM unfolded?
  if labels.all isLabel && (!labels.any turns || labels.all isOrdered) then some plainName
  else none

end Domain

end SchemaClasses
