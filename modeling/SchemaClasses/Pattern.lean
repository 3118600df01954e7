import SchemaClasses.Unicode.Property

/-! Regular expressions as syntax trees, and the positions of a text at which their conditions
hold. -/

namespace SchemaClasses

/-- What the neighbours of a position say about words. -/
inductive WordEdge where
  /-- Exactly one neighbour belongs to a word. -/
  | boundary
  /-- Both neighbours belong to a word, or neither. -/
  | inside
  /-- A word starts or ends at the position. -/
  | start | finish
  /-- No word reaches the position from before, or goes on behind it. -/
  | startHalf | finishHalf
deriving DecidableEq, Repr

/-- A condition on a position of the text. -/
inductive Assertion where
  | textStart
  | textEnd
  /-- Lines are separated by a line feed. -/
  | lineStart | lineEnd
  /-- Lines are separated by a line feed, a carriage return or both of them. -/
  | anyLineStart | anyLineEnd
  /-- The words are those of all scripts, or those of ASCII letters only. -/
  | word (edge : WordEdge) (wide : Bool)
deriving DecidableEq, Repr

/-- A regular expression. -/
inductive Pattern where
  | empty
  | chars (set : CodeSet)
  | assertion (condition : Assertion)
  | sequence (first second : Pattern)
  | alternative (first second : Pattern)
  | repetition (body : Pattern) (least : Nat) (most : Option Nat) (greedy : Bool)
  | group (body : Pattern)
deriving Repr, Inhabited

namespace Pattern

/-- Letters, digits, marks and joining characters of all scripts. -/
def wideWord : CodeSet := Unicode.settled Unicode.wordCharacters

/-- ASCII letters and digits, and the underscore. -/
def narrowWord : CodeSet := .ofWords ["30-39 41-5A 5F 61-7A"]

/-- The letters that words consist of. -/
def wordSet (wide : Bool) : CodeSet := if wide then wideWord else narrowWord

end Pattern

/-- Whether an edge of a word lies between two neighbours. -/
def WordEdge.holds : WordEdge → (before after : Bool) → Bool
  | boundary, before, after => before != after
  | inside, before, after => before == after
  | start, before, after => !before && after
  | finish, before, after => before && !after
  | startHalf, before, _ => !before
  | finishHalf, _, after => !after

/-- Whether a condition holds between two neighbours, which are missing at the ends of the text. -/
def Assertion.holds (before after : Option Char) : Assertion → Bool
  | textStart => before.isNone
  | textEnd => after.isNone
  | lineStart => before.all (· == '\n')
  | lineEnd => after.all (· == '\n')
  | anyLineStart =>
    before.all fun c => c == '\n' || (c == '\r' && after != some '\n')
  | anyLineEnd =>
    after.all fun c => c == '\r' || (c == '\n' && before != some '\r')
  | word edge wide =>
    edge.holds (before.any (Pattern.wordSet wide).contains)
      (after.any (Pattern.wordSet wide).contains)

end SchemaClasses
