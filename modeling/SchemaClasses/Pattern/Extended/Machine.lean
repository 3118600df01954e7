import SchemaClasses.Pattern.Extended.Program
import SchemaClasses.Pattern.Extended.Reader
import SchemaClasses.Pattern.Matcher

/-! The machine that runs the programs of extended expressions. -/

namespace SchemaClasses

namespace Extended

/-- How a search ends. -/
inductive Verdict where
  | found
  | absent
  /-- Too many alternatives have been tried. -/
  | tooManyRetreats
  /-- Too many alternatives have been put off. -/
  | tooManyBranches
deriving DecidableEq, Repr

/-- What the machine has noted: numbers in slots, and the numbers of alternatives that were put off
when the atomic groups around were entered. -/
structure Notes where
  slots : Array (Option Nat)
  atomics : List Nat := []

/-- A place in the program and in the text at which the machine goes on. -/
structure Thread where
  address : Address
  position : Nat
  notes : Notes

/-- Alternatives that are put off, the latest first, with their number. -/
structure Branches where
  threads : List Thread := []
  count : Nat := 0

namespace Branches

/-- One alternative more. -/
def push (branches : Branches) (thread : Thread) : Branches :=
  ⟨thread :: branches.threads, branches.count + 1⟩

/-- Only the first so many alternatives. -/
def cut (branches : Branches) (count : Nat) : Branches :=
  ⟨branches.threads.drop (branches.count - count), min branches.count count⟩

/-- The alternatives below the last one for an address. -/
def below (branches : Branches) (address : Address) : Branches :=
  let above := branches.threads.takeWhile (·.address != address)
  ⟨branches.threads.drop (above.length + 1), branches.count - (above.length + 1)⟩

end Branches

namespace Notes

/-- The number in a slot. -/
def get? (notes : Notes) (slot : Slot) : Option Nat := notes.slots[slot]?.join

/-- A number put into a slot. -/
def set (notes : Notes) (slot : Slot) (value : Nat) : Notes :=
  { notes with slots := notes.slots.setIfInBounds slot (some value) }

/-- What a group has matched, from where to where. -/
def span? (notes : Notes) (number : Nat) : Option (Nat × Nat) := do
  return (← notes.get? (2 * number), ← notes.get? (2 * number + 1))

end Notes

/-- What follows from one instruction. -/
inductive Effect where
  /-- Go on, with alternatives put off. -/
  | onward (thread : Thread) (branches : Branches)
  /-- Try the last alternative that was put off. -/
  | retreat (branches : Branches)
  | success

/-- Whether letters stand at a position. -/
def standsAt (text : Array Char) (letters : List Char) (position : Nat) : Bool :=
  (List.range letters.length).map (fun i => text[position + i]?) == letters.map some

/-- The rounds of a repetition go on, or are left, or both are tried in the order of preference. -/
def goRound (thread : Thread) (branches : Branches) (mayLeave greedy : Bool) (leave : Address) :
    Effect :=
  let inside := { thread with address := thread.address + 1 }
  let outside := { thread with address := leave }
  if !mayLeave then .onward inside branches
  else if greedy then .onward inside (branches.push outside)
  else .onward outside (branches.push inside)

/-- One instruction carried out. -/
def Instruction.perform (text : Array Char) (origin : Nat) (thread : Thread)
    (branches : Branches) : Instruction → Effect :=
  let notes := thread.notes
  let position := thread.position
  let next (position : Nat) : Effect :=
    .onward { thread with address := thread.address + 1, position } branches
  let noting (notes : Notes) : Effect :=
    .onward { thread with address := thread.address + 1, notes } branches
  fun
  | letters expected =>
    if standsAt text expected position then next (position + expected.length)
    else .retreat branches
  | any lineFeed =>
    if text[position]?.any (fun c => lineFeed || c != '\n') then next (position + 1)
    else .retreat branches
  | plain pattern =>
    match pattern.ends text position with
    | stop :: _ => next stop
    | [] => .retreat branches
  | split first second =>
    .onward { thread with address := first } (branches.push { thread with address := second })
  | jump target => .onward { thread with address := target } branches
  | save slot => noting (notes.set slot position)
  | clear slot => noting (notes.set slot 0)
  | restore slot => next ((notes.get? slot).getD position)
  | round least most greedy leave counter =>
    let rounds := (notes.get? counter).getD 0
    if most = some rounds then .onward { thread with address := leave } branches
    else
      goRound { thread with notes := notes.set counter (rounds + 1) } branches (least ≤ rounds)
        greedy leave
  | looseRound least greedy leave counter place =>
    let rounds := (notes.get? counter).getD 0
    if least < rounds ∧ notes.get? place = some position then .retreat branches
    else
      let counted := notes.set counter (rounds + 1)
      let counted := if least ≤ rounds then counted.set place position else counted
      goRound { thread with notes := counted } branches (least ≤ rounds) greedy leave
  | goBack count => if count ≤ position then next (position - count) else .retreat branches
  | refuse => .retreat (branches.below (thread.address + 1))
  | reference number =>
    match notes.span? number with
    | some (start, stop) =>
      let expected := (text.extract start stop).toList
      if standsAt text expected position then next (position + expected.length)
      else .retreat branches
    | none => .retreat branches
  | entered number => if (notes.get? (2 * number)).isSome then next position else .retreat branches
  | beginAtomic => noting { notes with atomics := branches.count :: notes.atomics }
  | endAtomic =>
    .onward
      { thread with
        address := thread.address + 1, notes := { notes with atomics := notes.atomics.drop 1 } }
      (branches.cut (notes.atomics.head?.getD branches.count))
  | searchStart => if position = origin then next position else .retreat branches
  | finish => .success

/-- How many alternatives may be tried, and how many of them may be put off at a time. -/
def retreatLimit : Nat := 1000000

/-- The program run from a thread on, with a number of retreats left; `steps` bounds the
instructions. -/
def Program.run (program : Program) (text : Array Char) (origin : Nat) :
    (steps retreats : Nat) → Thread → Branches → Verdict
  | 0, _, _, _ => .tooManyRetreats
  | steps + 1, retreats, thread, branches =>
    match program.instructions[thread.address]? with
    | none => .absent
    | some instruction =>
      match instruction.perform text origin thread branches with
      | .success => .found
      | .onward thread branches =>
        if retreatLimit < branches.count then .tooManyBranches
        else program.run text origin steps retreats thread branches
      | .retreat branches =>
        match branches.threads, retreats with
        | [], _ => .absent
        | _ :: _, 0 => .tooManyRetreats
        | thread :: rest, retreats + 1 =>
          program.run text origin steps retreats thread ⟨rest, branches.count - 1⟩

/-- The number of instructions after which a search is given up. -/
def stepLimit : Nat := 1000000000000

/-- The search for a match from the start of a text on. -/
def Program.search (program : Program) (text : String) : Verdict :=
  program.run text.toList.toArray 0 stepLimit retreatLimit
    ⟨0, 0, ⟨Array.replicate program.slots none, []⟩⟩ {}

end Extended

/-- An expression of the extended dialect that is ready for use. -/
inductive Expression where
  | plain (pattern : Pattern)
  | compiled (program : Extended.Program)

namespace Expression

/-- The expression that a text spells. What the plain dialect can do is left to it. -/
def ofList? (text : List Char) : Option Expression := do
  let (found, referred) ← Extended.read? text
  let groups ← found.groupsBehind? 1
  if found.isHard referred then
    return .compiled (← Extended.program? found referred groups)
  else return .plain (← Pattern.read? (found.spelling 0))

/-- Whether the expression matches somewhere in a text. -/
def search (text : String) : Expression → Extended.Verdict
  | plain pattern => if pattern.isMatch text then .found else .absent
  | compiled program => program.search text

/-- Whether the expression is known to match somewhere in a text. -/
def isMatch (expression : Expression) (text : String) : Bool :=
  expression.search text = .found

end Expression

end SchemaClasses
