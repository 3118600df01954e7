import SchemaClasses.Pattern.Extended
import SchemaClasses.Pattern.Reader

/-! Expressions of the extended dialect as programs for a machine that tries one alternative after
the other. -/

namespace SchemaClasses

namespace Extended

/-- A place where the machine notes a position or a number. -/
abbrev Slot := Nat

/-- The number of an instruction in its program. -/
abbrev Address := Nat

/-- One instruction of a program. -/
inductive Instruction where
  /-- These letters stand here. -/
  | letters (text : List Char)
  | any (lineFeed : Bool)
  /-- A pattern of the plain dialect matches here, in the way that it prefers. -/
  | plain (pattern : Pattern)
  /-- Go on at the first address, and later at the second if that fails. -/
  | split (first second : Address)
  | jump (target : Address)
  /-- Note the position. -/
  | save (slot : Slot)
  /-- Note a zero. -/
  | clear (slot : Slot)
  /-- Go back to the position noted. -/
  | restore (slot : Slot)
  /-- Count the rounds of a repetition, and leave it for another address. -/
  | round (least : Nat) (most : Option Nat) (greedy : Bool) (leave : Address) (counter : Slot)
  /-- The same for rounds that may go nowhere, which are not repeated without need. -/
  | looseRound (least : Nat) (greedy : Bool) (leave : Address) (counter place : Slot)
  /-- Go back by a number of characters. -/
  | goBack (count : Nat)
  /-- What has been looked for is there, and must not be. -/
  | refuse
  | reference (number : Nat)
  | entered (number : Nat)
  | beginAtomic
  | endAtomic
  | searchStart
  | finish

/-- The instructions for an expression, given the address of the first of them and the first slot
that is free, with the next free slot. -/
abbrev Emitter := Address → Slot → Option (List Instruction × Slot)

namespace Emitter

/-- A single instruction. -/
def one (instruction : Instruction) : Emitter := fun _ free => some ([instruction], free)

/-- Nothing. -/
def none : Emitter := fun _ free => some ([], free)

/-- The instructions of one expression behind those of another. -/
def andThen (first second : Emitter) : Emitter := fun start free => do
  let (before, free) ← first start free
  let (after, free) ← second (start + before.length) free
  return (before ++ after, free)

/-- The instructions of expressions one after the other. -/
def all (emitters : List Emitter) : Emitter := emitters.foldr andThen none

/-- Instructions between others that depend on the address behind them all. -/
def around (before : (start stop : Address) → Instruction) (body : Emitter)
    (after : List ((start : Address) → Instruction)) : Emitter := fun start free => do
  let (inner, free) ← body (start + 1) free
  let stop := start + 1 + inner.length + after.length
  return (before start stop :: (inner ++ after.map (· start)), free)

/-- One of several expressions, in their order. -/
def choice : List Emitter → Emitter
  | [] => none
  | [last] => last
  | branch :: rest => fun start free => do
    let (first, free) ← branch (start + 1) free
    let next := start + 2 + first.length
    let (others, free) ← choice rest next free
    return (.split (start + 1) next :: (first ++ .jump (next + others.length) :: others), free)

/-- The addresses of a split in the order of preference. -/
def splitFor (greedy : Bool) (enter leave : Address) : Instruction :=
  if greedy then .split enter leave else .split leave enter

/-- An expression that may be left out. -/
def optional (greedy : Bool) (body : Emitter) : Emitter :=
  around (fun start stop => splitFor greedy (start + 1) stop) body []

/-- An expression any number of times. -/
def star (greedy : Bool) (body : Emitter) : Emitter :=
  around (fun start stop => splitFor greedy (start + 1) stop) body [fun start => .jump start]

/-- An expression at least once. -/
def plus (greedy : Bool) (body : Emitter) : Emitter := fun start free => do
  let (inner, free) ← body start free
  return (inner ++ [splitFor greedy start (start + inner.length + 1)], free)

/-- A repetition whose rounds are counted. -/
def counted (least : Nat) (most : Option Nat) (greedy : Bool) (body : Emitter) : Emitter :=
  fun start free => do
    let (rounds, next) ← around (fun _ stop => .round least most greedy stop free) body
      [fun start => .jump start] (start + 1) (free + 1)
    return (.clear free :: rounds, next)

/-- A repetition whose rounds are counted and may go nowhere. -/
def countedLoosely (least : Nat) (greedy : Bool) (body : Emitter) : Emitter :=
  fun start free => do
    let (rounds, next) ← around
      (fun _ stop => .looseRound least greedy stop free (free + 1)) body
      [fun start => .jump start] (start + 1) (free + 2)
    return (.clear free :: rounds, next)

/-- A condition that something stands at the position. -/
def present (body : Emitter) : Emitter := fun start free => do
  let (inner, next) ← body (start + 1) (free + 1)
  return (.save free :: (inner ++ [.restore free]), next)

/-- A condition that something does not stand at the position. -/
def absent (body : Emitter) : Emitter :=
  around (fun start stop => .split (start + 1) stop) body [fun _ => .refuse]

/-- A choice by a test, which is not tried again once it has held. -/
def conditional (test yes no : Emitter) : Emitter := fun start free => do
  let (tested, free) ← test (start + 2) free
  let holds := start + 3 + tested.length
  let (yes, free) ← yes holds free
  let fails := holds + yes.length + 1
  let (no, free) ← no fails free
  return (.beginAtomic :: .split (start + 2) fails :: (tested ++ .endAtomic :: (yes
    ++ .jump (fails + no.length) :: no)), free)

end Emitter

/-- Expressions of the plain dialect one after the other, as one instruction. -/
def plainly (parts : List Extended) : Emitter :=
  match letters? (.sequence parts) with
  | some text => .one (.letters text)
  | none => fun _ free => do
    let spelled := parts.flatMap (spelling 1)
    -- It is compiled with a mark in front that binds it to its position.
    let _ ← Pattern.read? ('^' :: spelled)
    return ([.plain (← Pattern.read? spelled)], free)

/-- Expressions of the plain dialect at both ends of a sequence are taken together: at the start
those of a fixed width, at the end too, or all of them where nothing follows. -/
def emitSequence (referred : List Nat) (hard : Bool) (parts : List (Extended × Emitter)) : Emitter :=
  let isSimple (part : Extended × Emitter) : Bool :=
    part.1.width.isFixed && !part.1.isHard referred
  let start := parts.takeWhile isSimple
  let rest := parts.drop start.length
  let stop := rest.reverse.takeWhile fun part =>
    if hard then isSimple part else !part.1.isHard referred
  let middle := rest.take (rest.length - stop.length)
  let together (parts : List (Extended × Emitter)) : Emitter :=
    if parts.isEmpty then .none else plainly (parts.map (·.1))
  .all [together start, .all (middle.map (·.2)), together stop.reverse]

/-- A repetition of an expression with a width. -/
def emitRepetition (width : Width) (least : Nat) (most : Option Nat) (greedy : Bool)
    (body : Emitter) : Emitter :=
  match least, most with
  | 0, some 1 => body.optional greedy
  | least, none =>
    if width.least = 0 then body.countedLoosely least greedy
    else match least with
      | 0 => body.star greedy
      | 1 => body.plus greedy
      | least => body.counted least none greedy
  | least, most => body.counted least most greedy

/-- What is looked for behind a position must have a fixed width. -/
def emitSought (behind : Bool) (body : Extended) (emitter : Emitter) : Emitter :=
  if !behind then emitter
  else if body.width.isFixed then .all [.one (.goBack body.width.least), emitter]
  else fun _ _ => none

/-- A condition on the text ahead or behind; behind a position the branches of a choice may differ
in width. -/
def emitLook (behind negated : Bool) (body : Extended) (branches : List (Extended × Emitter))
    (emitter : Emitter) : Emitter :=
  if behind && !body.width.isFixed && !branches.isEmpty then
    let each := branches.map fun (branch, emitter) => emitSought behind branch emitter
    if negated then .all (each.map Emitter.absent) else .choice (each.map Emitter.present)
  else if negated then (emitSought behind body emitter).absent
  else (emitSought behind body emitter).present

mutual

/-- The instructions for an expression. What is not hard, and does not stand where another way to
match may be asked for, is left to the plain dialect. -/
def emit (referred : List Nat) (hard : Bool) : Extended → Emitter
  | .empty => if hard then .none else plainly [.empty]
  | .literal c foldCase => plainly [.literal c foldCase]
  | .any lineFeed => if hard then .one (.any lineFeed) else plainly [.any lineFeed]
  | .limit isEnd ofLine => plainly [.limit isEnd ofLine]
  | .plain spelling width foldCase => plainly [.plain spelling width foldCase]
  | .sequence parts =>
    if !hard && !isHard referred (.sequence parts) then plainly [.sequence parts]
    else emitSequence referred hard (parts.zip (emitAll referred true parts))
  | .alternatives branches =>
    if !hard && !isHard referred (.alternatives branches) then plainly [.alternatives branches]
    else .choice (emitAll referred hard branches)
  | .group number body =>
    if !hard && !isHard referred (.group number body) then plainly [.group number body]
    else .all [.one (.save (2 * number)), emit referred hard body, .one (.save (2 * number + 1))]
  | .repetition body least most greedy =>
    if !hard && !isHard referred body then plainly [.repetition body least most greedy]
    else
      let optional := least == 0 && most == some 1
      emitRepetition body.width least most greedy (emit referred (hard || !optional) body)
  | .look behind negated body =>
    emitLook behind negated body (emitBranches referred body) (emit referred false body)
  | .atomic body => .all [.one .beginAtomic, emit referred false body, .one .endAtomic]
  | .reference number => .one (.reference number)
  | .entered number => .one (.entered number)
  | .keepOut => .one (.save 0)
  | .searchStart => .one .searchStart
  | .conditional test yes no =>
    .conditional (emit referred hard test) (emit referred hard yes) (emit referred hard no)

/-- The instructions for each of some expressions. -/
def emitAll (referred : List Nat) (hard : Bool) : List Extended → List Emitter
  | [] => []
  | part :: rest => emit referred hard part :: emitAll referred hard rest

/-- The branches of a choice with their instructions. -/
def emitBranches (referred : List Nat) : Extended → List (Extended × Emitter)
  | .alternatives branches => branches.zip (emitAll referred false branches)
  | _ => []

end

/-- A program, and the number of slots that it uses. -/
structure Program where
  instructions : Array Instruction
  slots : Nat

/-- The program that looks for an expression from the start of a text on. -/
def program? (expression : Extended) (referred : List Nat) (groups : Nat) : Option Program := do
  let search : Extended :=
    .sequence [.repetition (.any true) 0 none false, .group 0 expression]
  let (instructions, slots) ← emit referred false search 0 (2 * groups)
  return ⟨(instructions ++ [Instruction.finish]).toArray, slots⟩

end Extended

end SchemaClasses
