import SchemaClasses.Proofs.Binary64
import SchemaClasses.Proofs.Reading.Places
import SchemaClasses.SchemaTree.Reading

/-! The form that the value of each keyword must have, and that it is all that is asked of the keywords
without schemas inside. -/

namespace SchemaClasses

namespace Json

/-- Whether a value names a type. -/
def isTypeName : Json → Bool
  | .string name => (JsonType.ofName? name).isSome
  | _ => false

/-- Whether a value is a number. -/
def isNumber : Json → Bool
  | .integer _ | .float _ => true
  | _ => false

/-- Whether a value is a whole number that is not negative. -/
def isCount : Json → Bool
  | .integer n => 0 ≤ n
  | .float x => x.isIntegral && 0 ≤ x.trunc
  | _ => false

end Json

/-- The keywords whose value is a schema. -/
def schemaKeywords : List String := ["additionalProperties", "items", "not"]

/-- The keywords whose value is an object with schemas for members. -/
def tableKeywords : List String := ["properties", "patternProperties"]

/-- The keywords whose value is an array of schemas. -/
def branchKeywords : List String := ["allOf", "anyOf", "oneOf"]

/-- The keywords whose value is a number. -/
def numberKeywords : List String := ["minimum", "maximum", "multipleOf"]

/-- The keywords whose value is a count. -/
def countKeywords : List String :=
  ["minLength", "maxLength", "minItems", "maxItems", "minProperties", "maxProperties"]

/-- Whether the value of a keyword in a document has the form that the keyword asks for. A reference
must lead to a value; a keyword that is not recognised takes any value. -/
def Documents.accepts (documents : Documents) (document key : String) (value : Json) : Bool :=
  if key ∈ tableKeywords then value.members?.isSome
  else if key ∈ branchKeywords ∨ key = "enum" ∨ key = "examples" then value.items?.isSome
  else if key ∈ numberKeywords then value.isNumber
  else if key ∈ countKeywords then value.isCount
  else match key with
    | "$ref" =>
      ((value.text?.bind (documents.resolve? document)).bind documents.valueAt?).isSome
    -- Arrays of schemas, one for each position, are not supported.
    | "items" => value.items?.isNone
    | "type" => value.isTypeName || (value.items?.any fun names => names.all Json.isTypeName)
    | "format" | "pattern" => value.isString
    | "exclusiveMinimum" | "exclusiveMaximum" => value.isNumber || value.bool?.isSome
    | "uniqueItems" => value.bool?.isSome
    | "required" => value.bool?.isSome || (value.items?.any fun names => names.all Json.isString)
    | _ => true

namespace Reading

variable {documents : Documents} {location document key name : String} {value : Json}
variable {siblings : List (String × Json)}

@[simp] theorem isOk_pure {ε α : Type} {result : α} :
    (pure result : Except ε α).isOk = true := rfl

@[simp] theorem isOk_error {ε α : Type} {fault : ε} :
    (Except.error fault : Except ε α).isOk = false := rfl

/-- What is made of a result decides nothing. -/
@[simp] theorem isOk_map {ε α β : Type} {step : Except ε α} {make : α → β} :
    (make <$> step).isOk = step.isOk := by
  cases step <;> rfl

/-- All items are read exactly if each is. -/
@[simp] theorem isOk_mapM {ε α β : Type} {read : α → Except ε β} {items : List α} :
    (items.mapM read).isOk = items.all fun item => (read item).isOk := by
  induction items with
  | nil => rfl
  | cons item rest ih =>
    rw [List.mapM_cons, List.all_cons, ← ih]
    -- The first item that cannot be read stops the reading.
    cases read item with
    | error => rfl
    | ok result =>
      cases rest.mapM read <;> rfl

/-- A text is read exactly from a string. -/
@[simp] theorem isOk_expectText : (expectText location value).isOk = value.isString := by
  cases value <;> rfl

/-- A type is read exactly from its name. -/
@[simp] theorem isOk_expectType : (expectType location value).isOk = value.isTypeName := by
  cases value with
  | string name =>
    have text : expectText location (.string name) = .ok name := rfl
    simp only [expectType, text, bind, Except.bind, Json.isTypeName]
    cases JsonType.ofName? name <;> rfl
  | _ => rfl

/-- Types are read exactly from a name or a list of names. -/
@[simp] theorem isOk_expectTypes :
    (expectTypes location value).isOk =
      (value.isTypeName || (value.items?.any fun names => names.all Json.isTypeName)) := by
  cases value with
  -- A list is read item by item, and any other value as a single name.
  | array names =>
    simp only [expectTypes, isOk_mapM, isOk_expectType]
    rfl
  | _ =>
    rw [expectTypes, bind_pure_comp, isOk_map, isOk_expectType]
    · simp [Json.items?]
    · simp

/-- A quantity is read exactly from a number. -/
@[simp] theorem isOk_expectNumber : (expectNumber location value).isOk = value.isNumber := by
  unfold expectNumber Quantity.ofJson?
  cases value with
  | integer n => cases (Json.integer n).signed? <;> rfl
  | _ => rfl

/-- A count is read exactly from a whole number that is not negative. -/
theorem isOk_expectCount (proper : value.isProper = true) :
    (expectCount location value).isOk = value.isCount := by
  -- A count is a natural number, or a double that is whole and not negative.
  have known : (expectCount location value).isOk =
      (value.natural?.isSome || value.double?.any fun x => x.isIntegral && 0 ≤ x.trunc) := by
    unfold expectCount count?
    cases value.natural? with
    | some n => rfl
    | none =>
      cases value.double? with
      | none => rfl
      | some x =>
        simp only [Option.bind_some, Option.any_some, Option.isSome_none, Bool.false_or]
        by_cases whole : x.isIntegral = true ∧ 0 ≤ x.trunc
        · simp only [whole.1, whole.2, decide_true, Bool.and_self]
          rfl
        · rw [if_neg whole]
          exact (by simpa using whole : (x.isIntegral && decide (0 ≤ x.trunc)) = false).symm
  rw [known]
  cases value with
  -- Only a literal below zero needs an argument, as it may still be read as a double.
  | integer n =>
    obtain ⟨bounded, -⟩ := Bool.and_eq_true_iff.mp proper
    simp only [Json.natural?, Json.double?, Json.isCount, Option.any_some]
    by_cases negative : n < 0
    · -- The double nearest to a negative number is no count either.
      have below := Binary64.trunc_ofInt_neg negative (of_decide_eq_true bounded)
      rw [if_neg (Int.not_le.mpr negative), decide_eq_false (Int.not_le.mpr negative),
        decide_eq_false (Int.not_le.mpr below)]
      simp
    · simp [Int.not_lt.mp negative]
  | _ => rfl

/-- A number with a bound is read exactly from a number. -/
@[simp] theorem isOk_sideBound {side : Side} :
    (sideBound location siblings side key value).isOk = value.isNumber := by
  simp [sideBound]

/-- A bound is read exactly from a number, and left out for a boolean. -/
@[simp] theorem isOk_exclusiveBound {side : Side} :
    (exclusiveBound location side value).isOk = (value.isNumber || value.bool?.isSome) := by
  cases value with
  | bool _ => rfl
  | _ => simp [exclusiveBound, Json.bool?]

/-- A keyword that holds no schemas is none of those that hold some. -/
theorem notMem_of_nesting (plain : nesting key value = .none) :
    key ∉ schemaKeywords ∧ key ∉ tableKeywords ∧ key ∉ branchKeywords := by
  simp only [schemaKeywords, tableKeywords, branchKeywords, List.mem_cons, List.not_mem_nil,
    or_false]
  -- For each of these names the nesting would be another one.
  refine ⟨?_, ?_, ?_⟩
  · rintro (rfl | rfl | rfl)
    · cases plain
    · cases value <;> cases plain
    · cases plain
  · rintro (rfl | rfl) <;> cases value <;> cases plain
  · rintro (rfl | rfl | rfl) <;> cases value <;> cases plain

/-- A keyword without schemas inside is read exactly if its value has the form that it asks for. -/
theorem isOk_plainKeyword (proper : value.isProper = true) (plain : nesting key value = .none)
    (direct : key ≠ "$ref") :
    (plainKeyword location siblings key value).isOk = documents.accepts document key value := by
  obtain ⟨single, table, branch⟩ := notMem_of_nesting plain
  have counts : (expectCount location value).isOk = value.isCount := isOk_expectCount proper
  unfold plainKeyword
  -- Each keyword that is read has a form of its own, and all of these are compared with what is
  -- accepted.
  split
  case h_27 =>
    -- A keyword that is not recognised takes any value.
    have free : documents.accepts document key value = true := by
      unfold Documents.accepts
      rw [if_neg table, if_neg (by simp_all), if_neg (by simp_all [numberKeywords]),
        if_neg (by simp_all [countKeywords])]
      split <;> simp_all [schemaKeywords]
    rw [free, isOk_pure]
  all_goals
    simp [counts, Documents.accepts, tableKeywords, branchKeywords, numberKeywords, countKeywords,
      Json.items?, Json.bool?]

end Reading

end SchemaClasses
