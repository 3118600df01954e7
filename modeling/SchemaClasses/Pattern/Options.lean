import SchemaClasses.Unicode.Core
import SchemaClasses.Unicode.Property

/-! The options of a regular expression, and what they change. -/

namespace SchemaClasses

/-! Sets of characters closed under a change of case. -/

/-- Each character that has a lower case with it, and each further variant with the character that
stands for it. -/
def caseLinks : List (Nat × Nat) :=
  lowercaseRuns.flatMap (fun run =>
    (List.range ((run.last - run.first) / run.step + 1)).map fun i =>
      let code := run.first + run.step * i
      (code, (code + run.shift).toNat))
    ++ furtherVariants

namespace CodeSet

/-- The set of some code points. -/
def ofCodes (codes : List Nat) : CodeSet := ofRanges (codes.map fun code => (code, code))

/-- The set with the other cases of its characters. Characters that differ by case alone are linked
to one and the same of them, so a step along the links and a step back reach them all. -/
def withCases (set : CodeSet) : CodeSet :=
  let settled := caseLinks.filter fun (code, _) => !Unicode.newest.holds code
  let onward := settled.filterMap fun (code, target) =>
    if set.holds code then some target else none
  let base := set.union (ofCodes onward)
  let back := settled.filterMap fun (code, target) =>
    if base.holds target then some code else none
  base.union (ofCodes back)

/-- The codes of the letters of a range in the other case, where both cases are a distance apart. -/
def shiftedLetters (set : CodeSet) (first : Char) (shift : Nat → Nat) : List Nat :=
  (List.range 26).filterMap fun i =>
    if set.holds (first.toNat + i) then some (shift (first.toNat + i)) else none

/-- The set with the other cases of its ASCII letters. -/
def withNarrowCases (set : CodeSet) : CodeSet :=
  set.union (ofCodes (set.shiftedLetters 'a' (· - 32) ++ set.shiftedLetters 'A' (· + 32)))

end CodeSet

/-! The options of a regular expression, and the blanks that one of them allows inside it. -/

namespace Pattern

/-- The options that hold from a point of the expression on. -/
structure Options where
  /-- Letters stand for both of their cases. -/
  foldCase : Bool := false
  /-- The circumflex and the dollar sign speak of lines. -/
  multiLine : Bool := false
  /-- The dot stands for line breaks too. -/
  dotAll : Bool := false
  /-- Blanks and comments may stand between the parts of the expression. -/
  verbose : Bool := false
  /-- Repetitions take as little as they can. -/
  reluctant : Bool := false
  /-- A carriage return breaks lines too. -/
  anyLine : Bool := false
  /-- Classes have the characters of all scripts, and not of ASCII only. -/
  wide : Bool := true

/-- Blanks as verbose expressions have them. -/
def isBlank (c : Char) : Bool := Unicode.whiteSpace.contains c

/-- The text behind blanks and comments; a comment ends with its line. -/
def behindBlanks : (inComment : Bool) → List Char → List Char
  | true, c :: rest => behindBlanks (c != '\n') rest
  | false, c :: rest =>
    if isBlank c then behindBlanks false rest
    else if c == '#' then behindBlanks true rest
    else c :: rest
  | _, [] => []

namespace Options

/-- The text behind what a verbose expression may contain here. -/
def skip (options : Options) (text : List Char) : List Char :=
  if options.verbose then behindBlanks false text else text

/-- The next character that counts behind one that is looked beyond. -/
def glance (options : Options) (text : List Char) : Option Char :=
  if options.verbose then
    let ahead := text.dropWhile isBlank
    let ahead := match ahead with
      | '#' :: rest => rest.dropWhile isBlank
      | ahead => ahead
    -- Where only blanks are left, the first of them is what is seen.
    ahead.head? <|> text.head?
  else text.head?

/-- A set with the other cases of its characters, where case does not matter. -/
def folded (options : Options) (set : CodeSet) : CodeSet :=
  if options.foldCase then
    if options.wide then set.withCases else set.withNarrowCases
  else set

/-- All characters but those of a set. Without the characters of all scripts there is no such
set, since it would have halves of characters. -/
def negated? (options : Options) (negated : Bool) (set : CodeSet) : Option CodeSet :=
  if !negated then some set
  else if options.wide then some set.complement
  else none

end Options

end Pattern

end SchemaClasses
