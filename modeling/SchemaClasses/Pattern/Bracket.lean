import SchemaClasses.Pattern.Escape

/-! Sets of characters in brackets. -/

namespace SchemaClasses

namespace Pattern

/-- The sets that have names inside brackets. -/
def bracketNames : List (String × CodeSet) := [
  ("alnum", .ofWords ["30-39 41-5A 61-7A"]), ("alpha", .ofWords ["41-5A 61-7A"]),
  ("ascii", .ofWords ["0-7F"]), ("blank", .ofWords ["9 20"]), ("cntrl", .ofWords ["0-1F 7F"]),
  ("digit", .ofWords ["30-39"]), ("graph", .ofWords ["21-7E"]), ("lower", .ofWords ["61-7A"]),
  ("print", .ofWords ["20-7E"]), ("punct", .ofWords ["21-2F 3A-40 5B-60 7B-7E"]),
  ("space", .ofWords ["9-D 20"]), ("upper", .ofWords ["41-5A"]),
  ("word", .ofWords ["30-39 41-5A 5F 61-7A"]), ("xdigit", .ofWords ["30-39 41-46 61-66"])]

/-- A set of characters that has been read, and how deeply sets are nested in it. -/
structure Nested where
  members : CodeSet
  depth : Nat := 0

/-- The name of a set between colons, behind an opening bracket. -/
def bracketName : List Char → Option (CodeSet × Bool × List Char)
  | ':' :: rest => do
    let (negated, rest) := match rest with
      | '^' :: rest => (true, rest)
      | rest => (false, rest)
    let name := rest.takeWhile Char.isAlpha
    let set ← bracketNames.lookup (String.ofList name)
    match rest.drop name.length with
    | ':' :: ']' :: rest => return (set, negated, rest)
    | _ => none
  | _ => none

/-- One member of a set in brackets: a character, or the characters that an escape stands for. -/
def bracketItem (options : Options) : List Char → Option (Escape × List Char)
  | '\\' :: rest =>
    match escape options rest with
    | some (.condition _, _) => none
    | found => found
  | c :: rest => some (.literal c, rest)
  | [] => none

/-- The code points from one character to another. Without the characters of all scripts only ASCII
characters can be members. -/
def charRange? (options : Options) (first last : Char) : Option CodeSet :=
  if first ≤ last && (options.wide || last.toNat < 0x80) then
    some (.range first.toNat last.toNat)
  else none

/-- One member, or a range between two characters in their order. -/
def bracketRange (options : Options) (text : List Char) : Option (CodeSet × List Char) := do
  let (first, rest) ← bracketItem options text
  let alone : Option CodeSet := match first with
    | .literal c => charRange? options c c
    | .set members => some members
    | .condition _ => none
  match options.skip rest with
  | [] => none
  | '-' :: behind =>
    -- A hyphen before the closing bracket is a character, and two of them are an operator.
    if options.glance behind = some ']' ∨ options.glance behind = some '-' then
      return (← alone, '-' :: behind)
    else
      let (last, rest) ← bracketItem options (options.skip behind)
      match first, last with
      | .literal a, .literal b => return (← charRange? options a b, rest)
      | _, _ => none
  | rest => return (← alone, rest)

/-- How the sets on both sides of an operator are combined. -/
inductive SetOperator where
  | intersection
  | difference
  | symmetricDifference

/-- The combination of two sets. -/
def SetOperator.apply : SetOperator → CodeSet → CodeSet → CodeSet
  | intersection => .inter
  | difference => .difference
  | symmetricDifference => .symmetricDifference

/-- The union of members; several of them are one level deeper than the deepest. -/
def unionOf (items : List Nested) : Nested :=
  let depths := items.map Nested.depth
  ⟨.unionAll (items.map Nested.members),
    if 2 ≤ items.length then depths.foldl max 0 + 1 else depths.foldl max 0⟩

/-- The members so far, combined with what stands before the last operator. -/
def combined (options : Options) (pending : Option (SetOperator × Nested)) (items : List Nested) :
    Nested :=
  let latest := unionOf items
  match pending with
  | none => latest
  | some (operator, before) =>
    ⟨operator.apply (options.folded before.members) (options.folded latest.members),
      max before.depth latest.depth + 1⟩

/-- The hyphens at the start of a set, which stand for themselves. -/
def leadingHyphens (options : Options) : Nat → List Char → Nat × List Char
  | 0, text => (0, text)
  | steps + 1, text =>
    match text with
    | '-' :: rest =>
      let (count, rest) := leadingHyphens options steps (options.skip rest)
      (count + 1, rest)
    | text => (0, text)

/-- The start of a set: whether it is negated, and the hyphens or the bracket that stand for
themselves there. -/
def bracketStart (options : Options) (text : List Char) : Bool × List Nested × List Char :=
  let (negated, text) := match options.skip text with
    | '^' :: rest => (true, options.skip rest)
    | text => (false, text)
  let (hyphens, rest) := leadingHyphens options text.length text
  match hyphens, rest with
  | 0, ']' :: rest => (negated, [⟨.single ']', 0⟩], options.skip rest)
  | _, rest => (negated, List.replicate hyphens ⟨.single '-', 0⟩, rest)

/-- A set behind its start; `steps` bounds the number of members. -/
def bracketRest (options : Options) : Nat → (negated : Bool) → Option (SetOperator × Nested) →
    List Nested → List Char → Option (Nested × List Char)
  | 0, _, _, _, _ => none
  | steps + 1, negated, pending, items, text => do
    let onOperator (operator : SetOperator) (rest : List Char) :=
      bracketRest options steps negated (some (operator, combined options pending items)) [] rest
    match options.skip text with
    | [] => none
    | ']' :: rest =>
      let found := combined options pending items
      let members ← options.negated? negated (options.folded found.members)
      return (⟨members, found.depth + 1⟩, rest)
    | '&' :: '&' :: rest => onOperator .intersection rest
    | '-' :: '-' :: rest => onOperator .difference rest
    | '~' :: '~' :: rest => onOperator .symmetricDifference rest
    | '[' :: rest =>
      match bracketName rest with
      | some (set, negation, rest) =>
        let members ← options.negated? negation (options.folded set)
        bracketRest options steps negated pending (⟨members, 0⟩ :: items) rest
      | none => do
        let (innerNegated, innerItems, rest) := bracketStart options rest
        let (inner, rest) ← bracketRest options steps innerNegated none innerItems rest
        bracketRest options steps negated pending (inner :: items) rest
    | text => do
      let (members, rest) ← bracketRange options text
      bracketRest options steps negated pending (⟨members, 0⟩ :: items) rest

/-- A set behind its opening bracket. -/
def bracket (options : Options) (text : List Char) : Option (Nested × List Char) :=
  let (negated, items, rest) := bracketStart options text
  bracketRest options (text.length + 1) negated none items rest

end Pattern

end SchemaClasses
