import SchemaClasses.Pattern

/-! The size of the automaton that a regular expression stands for, which is limited. -/

namespace SchemaClasses

/-- The ranges of the bytes of characters, one for each byte. -/
abbrev ByteRanges := List (Nat × Nat)

namespace CodeSet

/-- The number of bytes of a code point. -/
def byteCount (code : Nat) : Nat :=
  if code < 0x80 then 1 else if code < 0x800 then 2 else if code < 0x10000 then 3 else 4

/-- The bytes of a code point behind its first one. -/
def trailingBytes : Nat → Nat → List Nat
  | 0, _ => []
  | count + 1, code => trailingBytes count (code / 64) ++ [0x80 + code % 64]

/-- The bytes of a code point. -/
def bytesOf (code : Nat) : List Nat :=
  match byteCount code with
  | 1 => [code]
  | 2 => (0xC0 + code / 64) :: trailingBytes 1 code
  | 3 => (0xE0 + code / 4096) :: trailingBytes 2 code
  | _ => (0xF0 + code / 262144) :: trailingBytes 3 code

/-- The parts of a range that are cut after the given code points. -/
def cutAfter (cuts : List Nat) (range : Nat × Nat) : List (Nat × Nat) :=
  match cuts with
  | [] => [range]
  | at_ :: rest =>
    if range.1 ≤ at_ ∧ at_ < range.2 then (range.1, at_) :: cutAfter rest (at_ + 1, range.2)
    else cutAfter rest range

/-- The parts of a range in which the lowest bytes run freely, or do not vary at all. -/
def aligned : List Nat → (Nat × Nat) → List (Nat × Nat)
  | [], range => [range]
  | unit :: units, (first, last) =>
    if first / unit = last / unit then aligned units (first, last)
    else
      let start := if first % unit = 0 then first else (first / unit + 1) * unit
      let stop := if last % unit = unit - 1 then last + 1 else last / unit * unit
      (if first < start then aligned units (first, start - 1) else [])
        ++ (if start < stop then [(start, stop - 1)] else [])
        ++ (if stop ≤ last then aligned units (stop, last) else [])

/-- The byte ranges that together are the characters of a set. -/
def byteRanges (set : CodeSet) : List ByteRanges :=
  -- The complement of the complement has no halves of characters.
  set.complement.complement.ranges.flatMap fun range =>
    ((cutAfter [0x7F, 0x7FF, 0xFFFF] range).flatMap fun (first, last) =>
      if last < 0x80 then [(first, last)] else aligned [262144, 4096, 64] (first, last)).map
        fun (first, last) => (bytesOf first).zip (bytesOf last)

end CodeSet

namespace Pattern

/-- The size that an automaton may have, in bytes. -/
def sizeLimit : Nat := 10485760

/-- The bytes of one state. -/
def stateSize : Nat := 32

/-- The bytes of a branch of a state to one of several others. -/
def branchSize : Nat := 4

/-- The bytes of a transition on some bytes, where a state has several. -/
def transitionSize : Nat := 8

/-- What a part of the automaton takes. -/
structure Extent where
  bytes : Nat
  /-- Whether its last state branches, so that going on from it is one more branch. -/
  isOpen : Bool := false

/-- The bytes for going on behind a part. -/
def Extent.exit (extent : Extent) : Nat := if extent.isOpen then branchSize else 0

/-- The byte ranges that start with each of the first ranges, without it. -/
def byFirst (sequences : List ByteRanges) : List ((Nat × Nat) × List ByteRanges) :=
  sequences.foldr (fun spelling found =>
    match spelling, found with
    | first :: rest, (other, rests) :: more =>
      if first = other then (other, rest :: rests) :: more else (first, [rest]) :: found
    | first :: rest, [] => [(first, [rest])]
    | [], _ => found) []

/-- The states with which byte ranges are told apart byte by byte, each with its number of
transitions; states with the same continuations are one. -/
def trieStates : (width : Nat) → List ByteRanges → List (List ByteRanges × Nat)
  | 0, _ => []
  | width + 1, sequences =>
    let branches := byFirst sequences
    let here := if branches.isEmpty then [] else [(sequences, branches.length)]
    here ++ branches.flatMap fun (_, rests) => trieStates width rests

/-- The number of byte ranges in which sequences differ from those before them. -/
def freshRanges : ByteRanges → ByteRanges → Nat
  | [], spelling => spelling.length
  | _, [] => 0
  | first :: before, other :: rest =>
    if first = other then freshRanges before rest else rest.length + 1

/-- The states with which sequences that share their starts are spelled. -/
def spelledStates (before : ByteRanges) : List ByteRanges → Nat
  | [] => 0
  | spelling :: rest => freshRanges before spelling + spelledStates spelling rest

/-- The extent of a set of characters. -/
def setExtent (reverse : Bool) (set : CodeSet) : Nat :=
  match set.only? with
  | some code => stateSize * CodeSet.byteCount code
  | none =>
    if set.isAscii then 2 * stateSize + transitionSize * set.ranges.length
    else
      let sequences := set.byteRanges
      if reverse then
        2 * stateSize + branchSize * sequences.length + stateSize * spelledStates [] sequences
      else
        let states := (trieStates 4 sequences).eraseDups
        states.foldl (fun total (_, count) => total + stateSize + transitionSize * count) stateSize

/-- Whether a pattern takes no character. -/
def isEmptyOnly : Pattern → Bool
  | empty | assertion _ => true
  | chars _ => false
  | sequence a b | alternative a b => isEmptyOnly a && isEmptyOnly b
  | repetition body _ most _ => isEmptyOnly body || most == some 0
  | group body => isEmptyOnly body

/-- Whether every match of a pattern takes a character. -/
def takesSome : Pattern → Bool
  | empty | assertion _ => false
  | chars set => !set.isEmpty
  | sequence a b => takesSome a || takesSome b
  | alternative a b => takesSome a && takesSome b
  | repetition body least most _ => 0 < least && most != some 0 && takesSome body
  | group body => takesSome body

/-- The set of all characters that a choice between single characters admits. -/
def asSet? : Pattern → Option CodeSet
  | chars set => some set
  | alternative a b => do return (← asSet? a).union (← asSet? b)
  | _ => none

/-- The extent of a number of repetitions of a part. -/
def repeatedExtent (body : Extent) (takesSome : Bool) (least : Nat) (most : Option Nat) : Extent :=
  let times (n : Nat) : Nat := n * body.bytes + (n - 1) * body.exit
  match most with
  | none =>
    if least = 0 ∧ !takesSome then ⟨body.bytes + body.exit + 3 * stateSize + 4 * branchSize, false⟩
    else
      let copies := max least 1
      ⟨copies * (body.bytes + body.exit) + stateSize + branchSize, true⟩
  | some most =>
    if least = 0 ∧ most = 1 then ⟨body.bytes + body.exit + 2 * stateSize + 2 * branchSize, false⟩
    else if least = most then ⟨times least, body.isOpen⟩
    else
      let further := most - least
      let (start, exits) := if least = 0 then (stateSize, further) else (times least, further + 1)
      ⟨start + stateSize + further * (body.bytes + stateSize + 2 * branchSize) + exits * body.exit,
        false⟩

/-- Whether a pattern is written away where it follows or precedes another. -/
def isEmpty : Pattern → Bool
  | empty => true
  | repetition body least most _ => most == some 0 || (least == 1 && most == some 1 && isEmpty body)
  | _ => false

/-- The extent of a pattern whose characters are taken forwards, or from the last one on. In the
second case nothing is noted of groups. -/
def extent (reverse : Bool) : Pattern → Extent
  | empty | assertion _ => ⟨stateSize, false⟩
  | chars set => ⟨setExtent reverse set, false⟩
  | sequence a b =>
    if isEmpty a then extent reverse b
    else if isEmpty b then extent reverse a
    else
      let first := extent reverse a
      let second := extent reverse b
      if reverse then ⟨first.bytes + second.bytes + second.exit, first.isOpen⟩
      else ⟨first.bytes + second.bytes + first.exit, second.isOpen⟩
  | alternative a b =>
    match asSet? (.alternative a b) with
    | some set => ⟨setExtent reverse set, false⟩
    | none => ⟨2 * stateSize + branches reverse a + branches reverse b, false⟩
  | repetition body least most _ =>
    let (least, most) :=
      if isEmptyOnly body then (min least 1, some (min (most.getD 1) 1)) else (least, most)
    if most = some 0 then ⟨stateSize, false⟩
    else if least = 1 ∧ most = some 1 then extent reverse body
    else repeatedExtent (extent reverse body) body.takesSome least most
  | group body =>
    let inner := extent reverse body
    if reverse then inner else ⟨inner.bytes + inner.exit + 2 * stateSize, false⟩
where
  /-- The bytes of all branches of a choice. -/
  branches (reverse : Bool) : Pattern → Nat
    | alternative a b => branches reverse a + branches reverse b
    | other =>
      let inner := extent reverse other
      inner.bytes + inner.exit + branchSize

/-- Whether both automata of a pattern, which tell where a match ends and where it starts, are
within the limit. -/
def fits (pattern : Pattern) : Bool :=
  let forwards := extent false pattern
  let backwards := extent true pattern
  -- Behind the pattern stands the state of success; in front of it, any characters may be left out.
  forwards.bytes + forwards.exit + 3 * stateSize + startSize pattern ≤ sizeLimit
    && backwards.bytes + backwards.exit + 4 * stateSize + 3 * branchSize ≤ sizeLimit
where
  /-- The bytes of the part that leaves out characters in front of a match. -/
  startSize (pattern : Pattern) : Nat :=
    if startsAtStart pattern then stateSize else 3 * stateSize + 3 * branchSize
  /-- Whether a match can start at the start of the text only. -/
  startsAtStart : Pattern → Bool
    | assertion .textStart => true
    | sequence a _ => startsAtStart a
    | group body => startsAtStart body
    | _ => false

end Pattern

end SchemaClasses
