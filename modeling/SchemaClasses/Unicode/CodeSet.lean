import SchemaClasses.Text.Segments

/-! Sets of characters as ranges of code points. -/

namespace SchemaClasses

/-- A set of characters: ranges of code points in ascending order, no two of which touch. -/
structure CodeSet where
  ranges : List (Nat × Nat) := []
deriving DecidableEq, Repr, Inhabited

namespace CodeSet

/-- The code points that are no characters but halves of one. -/
def surrogates : Nat × Nat := (0xD800, 0xDFFF)

/-- The greatest code point. -/
def lastCode : Nat := 0x10FFFF

/-- A range and those behind it, in ascending order, with ranges that touch made one. -/
def joinFrom (range : Nat × Nat) : List (Nat × Nat) → List (Nat × Nat)
  | [] => [range]
  | next :: rest =>
    if next.1 ≤ range.2 + 1 then joinFrom (range.1, max range.2 next.2) rest
    else range :: joinFrom next rest

/-- Ranges in ascending order with those that touch made one. -/
def joined : List (Nat × Nat) → List (Nat × Nat)
  | [] => []
  | range :: rest => joinFrom range rest

/-- Whether a range does not start behind another. -/
def startsBefore (a b : Nat × Nat) : Bool := a.1 ≤ b.1

/-- The set of the code points in some ranges. -/
def ofRanges (ranges : List (Nat × Nat)) : CodeSet := ⟨joined (ranges.mergeSort startsBefore)⟩

/-- The set of the code points between two of them. -/
def range (first last : Nat) : CodeSet := if first ≤ last then ⟨[(first, last)]⟩ else ⟨[]⟩

/-- The set of one character. -/
def single (c : Char) : CodeSet := range c.toNat c.toNat

/-- The characters of either set. -/
def union (a b : CodeSet) : CodeSet := ⟨joined (List.merge a.ranges b.ranges startsBefore)⟩

/-- The characters of any of the sets. -/
def unionAll (sets : List CodeSet) : CodeSet := sets.foldl union {}

/-- The gaps between ranges, from a code point on. -/
def gapsFrom (start : Nat) : List (Nat × Nat) → List (Nat × Nat)
  | [] => if start ≤ lastCode then [(start, lastCode)] else []
  | (first, last) :: rest =>
    if start < first then (start, first - 1) :: gapsFrom (last + 1) rest
    else gapsFrom (last + 1) rest

/-- All characters that do not belong to a set. -/
def complement (set : CodeSet) : CodeSet := ⟨gapsFrom 0 (set.union ⟨[surrogates]⟩).ranges⟩

/-- All characters. -/
def all : CodeSet := complement {}

/-- The characters of both sets. -/
def inter (a b : CodeSet) : CodeSet := (a.complement.union b.complement).complement

/-- The characters of the first set that do not belong to the second. -/
def difference (a b : CodeSet) : CodeSet := (a.complement.union b).complement

/-- The characters of exactly one of the sets. -/
def symmetricDifference (a b : CodeSet) : CodeSet := (a.difference b).union (b.difference a)

/-- Whether a code point belongs to the set. -/
def holds (set : CodeSet) (code : Nat) : Bool :=
  set.ranges.any fun (first, last) => first ≤ code && code ≤ last

/-- Whether a character belongs to the set. -/
def contains (set : CodeSet) (c : Char) : Bool := set.holds c.toNat

/-- Whether the set has no character. -/
def isEmpty (set : CodeSet) : Bool := set.ranges.isEmpty

/-- Whether the set has ASCII characters only. -/
def isAscii (set : CodeSet) : Bool := set.ranges.all fun (_, last) => last < 0x80

/-- The only character of the set, if there is one. -/
def only? (set : CodeSet) : Option Nat :=
  match set.ranges with
  | [(first, last)] => if first = last then some first else none
  | _ => none

/-- The value of hexadecimal digits with letters in upper case. -/
def codeOf (digits : List Char) : Nat :=
  digits.foldl
    (fun n c => n * 16 + if c.isDigit then c.toNat - '0'.toNat else c.toNat - 'A'.toNat + 10) 0

/-- The ranges that a word such as `41`, `41-5A` or `100-12E/2` stands for; the last one is every
second code point. -/
def rangesOfWord (word : List Char) : List (Nat × Nat) :=
  match cut '-' word with
  | [first, last] =>
    let start := codeOf first
    match cut '/' last with
    | [last, _] =>
      (List.range ((codeOf last - start) / 2 + 1)).map fun i => (start + 2 * i, start + 2 * i)
    | _ => [(start, codeOf last)]
  | _ => [(codeOf word, codeOf word)]

/-- The set that lines of words stand for. -/
def ofWords (lines : List String) : CodeSet :=
  ofRanges (lines.flatMap fun line => (cut ' ' line.toList).flatMap rangesOfWord)

end CodeSet

end SchemaClasses
