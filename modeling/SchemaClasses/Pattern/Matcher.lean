import SchemaClasses.Pattern

/-! Where regular expressions match in a text. -/

namespace SchemaClasses

namespace Pattern

/-- Whether a condition holds at a position of a text. -/
def holdsAt (text : Array Char) (position : Nat) (condition : Assertion) : Bool :=
  condition.holds (if position = 0 then none else text[position - 1]?) text[position]?

/-- The positions in their order, each where it occurs first; bit `i` of `seen` is set where `i`
has occurred before. -/
def distinct (seen : Nat) : List Nat → List Nat
  | [] => []
  | position :: rest =>
    if seen.testBit position then distinct seen rest
    else position :: distinct (seen ||| 1 <<< position) rest

/-- What is left to do for a repetition. -/
inductive Task where
  /-- Go on from a position after a number of rounds. -/
  | enter (rounds position : Nat)
  /-- Leave the repetition at a position. -/
  | leave (position : Nat)

/-- The positions at which a repetition can be left, in the order of preference. A round that goes
nowhere is as good as any number of such rounds, and behind `enough` rounds their number does not
matter. A position that has been entered after the same number of rounds is not entered again.
`steps` bounds the number of tasks. -/
def repeated (round : Nat → List Nat) (least : Nat) (most : Option Nat) (greedy : Bool)
    (enough : Nat) : (steps : Nat) → List Task → (seen : Nat) → List Nat
  | 0, _, _ => []
  | _ + 1, [], _ => []
  | steps + 1, .leave position :: rest, seen =>
    position :: repeated round least most greedy enough steps rest seen
  | steps + 1, .enter rounds position :: rest, seen =>
    let place := position * (enough + 1) + rounds
    if seen.testBit place then repeated round least most greedy enough steps rest seen
    else
      let onward := if most.any (· ≤ rounds) then [] else
        (round position).filterMap fun next =>
          if next ≠ position then some (Task.enter (min (rounds + 1) enough) next)
          else if rounds < least then some (.enter (min least enough) next)
          else none
      let leaving := if least ≤ rounds then [Task.leave position] else []
      let tasks := if greedy then onward ++ leaving else leaving ++ onward
      repeated round least most greedy enough steps (tasks ++ rest) (seen ||| 1 <<< place)

/-- The positions behind a match that starts at a position, in the order of preference. -/
def ends (text : Array Char) : Pattern → Nat → List Nat
  | empty, start => [start]
  | chars set, start => if text[start]?.any set.contains then [start + 1] else []
  | assertion condition, start => if holdsAt text start condition then [start] else []
  | sequence first second, start =>
    distinct 0 ((ends text first start).flatMap (ends text second))
  | alternative first second, start =>
    distinct 0 (ends text first start ++ ends text second start)
  | repetition body least most greedy, start =>
    -- No more rounds go anywhere than there are characters left.
    let possible := text.size - start + 1
    let enough := match most with
      | some most => if most ≤ possible then most else min least possible
      | none => min least possible
    let bound := match most with
      | some most => if most ≤ possible then some most else none
      | none => none
    distinct 0 (repeated (ends text body) (min least possible) bound greedy enough
      ((possible + 1) * (possible + 1) * (enough + 1) + 1) [.enter 0 start] 0)
  | group body, start => ends text body start

/-- For each position of a text, whether some match in progress has come to it. -/
abbrev Marks := List Bool

/-- The characters around each position of a text. -/
def neighbours : Option Char → List Char → List (Option Char × Option Char)
  | before, [] => [(before, none)]
  | before, c :: rest => (before, some c) :: neighbours (some c) rest

/-- The marks behind some rounds, or behind fewer after which nothing changes any more. -/
def afterRounds (round : Marks → Marks) : (rounds : Nat) → Marks → Marks
  | 0, marks => marks
  | rounds + 1, marks =>
    let next := round marks
    if next == marks then marks else afterRounds round rounds next

/-- The marks behind at most some rounds; `fresh` holds those that the last round has added. -/
def withinRounds (round : Marks → Marks) : (rounds : Nat) → (all fresh : Marks) → Marks
  | 0, all, _ => all
  | rounds + 1, all, fresh =>
    let added := List.zipWith (fun next old => next && !old) (round fresh) all
    if added.any id then withinRounds round rounds (List.zipWith or all added) added else all

/-- The marks to which matches lead from other marks, in the text of which the letters and their
neighbours are given. -/
def spread (letters : List Char) (around : List (Option Char × Option Char)) :
    Pattern → Marks → Marks
  | empty, marks => marks
  | chars set, marks =>
    false :: List.zipWith (fun isMarked c => isMarked && set.contains c) marks letters
  | assertion condition, marks =>
    List.zipWith (fun isMarked (before, after) => isMarked && condition.holds before after)
      marks around
  | sequence first second, marks =>
    spread letters around second (spread letters around first marks)
  | alternative first second, marks =>
    List.zipWith or (spread letters around first marks) (spread letters around second marks)
  | repetition body least most _, marks =>
    -- A round that moves no match is worth any number of rounds.
    let enough := letters.length + 1
    let begun := afterRounds (spread letters around body) (min least enough) marks
    let further := match most with
      | some most => min (most - least) enough
      | none => enough
    withinRounds (spread letters around body) further begun begun
  | group body, marks => spread letters around body marks

/-- Whether the pattern matches somewhere in a text. -/
def isMatch (pattern : Pattern) (text : String) : Bool :=
  let letters := text.toList
  let everywhere := List.replicate (letters.length + 1) true
  (spread letters (neighbours none letters) pattern everywhere).any id

end Pattern

end SchemaClasses
