import SchemaClasses.Record

/-! What keywords state in a record, apart from the records inside it. -/

namespace SchemaClasses

/-- A list with a new value holds that value beside the old ones. -/
theorem mem_addNew {α : Type} [BEq α] [LawfulBEq α] {values : List α} {value other : α} :
    other ∈ addNew values value ↔ other ∈ values ∨ other = value := by
  -- A value that is known is in the list already.
  unfold addNew
  split
  · rename_i known
    have known : value ∈ values := by simpa using known
    exact ⟨.inl, fun either => either.elim id fun same => same ▸ known⟩
  · simp

/-- A new item leaves the others in the list. -/
theorem subset_addNew {α : Type} [BEq α] {values : List α} {value : α} :
    values ⊆ addNew values value := by
  unfold addNew
  split
  · exact List.Subset.refl _
  · exact List.subset_append_left _ _

/-- A new item in a list without duplicates makes none. -/
theorem nodup_addNew {α : Type} [BEq α] [LawfulBEq α] {values : List α} {value : α}
    (nodup : values.Nodup) : (addNew values value).Nodup := by
  -- A value is added only where no known one equals it.
  unfold addNew
  split
  · exact nodup
  · rename_i unknown
    refine List.nodup_append.mpr ⟨nodup, by simp, fun known member new last same => ?_⟩
    rw [same, List.mem_singleton.mp last] at member
    exact unknown (by simpa using member)

/-- Items are all read when each of them is read, and the results stand in their order. -/
theorem mapM_eq_some_iff {α β : Type} {items : List α} {read : α → Option β} {results : List β} :
    items.mapM read = some results ↔ items.map read = results.map some := by
  induction items generalizing results with
  | nil => cases results <;> simp
  | cons first rest ih =>
    rw [List.mapM_cons]
    -- A first item that is not read makes both sides false.
    cases here : read first with
    | none => cases results <;> simp [here]
    | some result =>
      cases results with
      | nil => cases rest.mapM read <;> simp
      | cons result' results =>
        -- The first result is compared by itself, and the others are those of the rest.
        rw [List.map_cons, List.map_cons, List.cons.injEq, ← ih, here]
        cases rest.mapM read <;> simp

/-- What is read of all items is read of each. -/
theorem exists_of_mapM_eq_some {α β : Type} {items : List α} {read : α → Option β} {results : List β}
    (all : items.mapM read = some results) {item : α} (member : item ∈ items) :
    ∃ result ∈ results, read item = some result := by
  have listed : read item ∈ results.map some := mapM_eq_some_iff.mp all ▸ List.mem_map_of_mem member
  obtain ⟨result, member, same⟩ := List.mem_map.mp listed
  exact ⟨result, member, same.symm⟩

/-- Whatever is read of all items is read of one of them. -/
theorem exists_of_mem_mapM {α β : Type} {items : List α} {read : α → Option β} {results : List β}
    (all : items.mapM read = some results) {result : β} (member : result ∈ results) :
    ∃ item ∈ items, read item = some result := by
  have listed : some result ∈ items.map read :=
    (mapM_eq_some_iff.mp all).symm ▸ List.mem_map_of_mem member
  exact List.mem_map.mp listed

/-- Items are all read if each of them is. -/
theorem exists_mapM_eq_some {α β : Type} {items : List α} {read : α → Option β}
    (each : ∀ item ∈ items, (read item).isSome) : ∃ results, items.mapM read = some results := by
  -- The head has a result, and the rest has results by the induction.
  induction items with
  | nil => exact ⟨[], rfl⟩
  | cons first rest ih =>
    obtain ⟨result, here⟩ := Option.isSome_iff_exists.mp (each first List.mem_cons_self)
    obtain ⟨results, there⟩ := ih fun item member => each item (List.mem_cons_of_mem _ member)
    exact ⟨result :: results, by rw [List.mapM_cons, here, there]; rfl⟩

namespace Record

variable {record : Record} {values : List Json}

/-- Allowed values that are read as numbers are all of them numbers. -/
theorem exists_of_numericEnumeration? {numbers : List Quantity}
    (read : record.numericEnumeration? = some numbers) :
    ∃ values, record.enumeration = some values ∧ values.mapM Quantity.ofJson? = some numbers := by
  -- Only a list with a first value is read.
  unfold numericEnumeration? at read
  split at read
  · rename_i value rest stated
    exact ⟨value :: rest, stated, read⟩
  · cases read

/-- Allowed values, of which there is one at least, are read as numbers one by one. -/
theorem numericEnumeration?_of_ne_nil (stated : record.enumeration = some values)
    (filled : values ≠ []) : record.numericEnumeration? = values.mapM Quantity.ofJson? := by
  obtain ⟨value, rest, rfl⟩ := List.exists_cons_of_ne_nil filled
  rw [numericEnumeration?, stated]

/-- Allowed values that are read as texts are all of them texts. -/
theorem exists_of_textEnumeration? {texts : List String}
    (read : record.textEnumeration? = some texts) :
    ∃ values, record.enumeration = some values ∧ values.mapM Json.text? = some texts := by
  unfold textEnumeration? at read
  split at read
  · rename_i value rest stated
    exact ⟨value :: rest, stated, read⟩
  · cases read

/-- Allowed values, of which there is one at least, are read as texts one by one. -/
theorem textEnumeration?_of_ne_nil (stated : record.enumeration = some values)
    (filled : values ≠ []) : record.textEnumeration? = values.mapM Json.text? := by
  obtain ⟨value, rest, rfl⟩ := List.exists_cons_of_ne_nil filled
  rw [textEnumeration?, stated]

end Record

namespace Record

/-- A record that holds what keywords state in another one and nothing else. -/
def stated (record : Record) : Record :=
  { types := record.types
    nullable := record.nullable
    minimum := record.minimum
    maximum := record.maximum
    multipleOf := record.multipleOf
    length := record.length
    patterns := record.patterns
    formats := record.formats
    enumeration := record.enumeration
    constant := record.constant
    required := record.required
    propertyCount := record.propertyCount
    itemCount := record.itemCount
    uniqueItems := record.uniqueItems
    default := record.default
    examples := record.examples
    extensions := record.extensions }

/-- A record with what keywords state in another one. -/
def restate (record statements : Record) : Record :=
  { record with
    types := statements.types
    nullable := statements.nullable
    minimum := statements.minimum
    maximum := statements.maximum
    multipleOf := statements.multipleOf
    length := statements.length
    patterns := statements.patterns
    formats := statements.formats
    enumeration := statements.enumeration
    constant := statements.constant
    required := statements.required
    propertyCount := statements.propertyCount
    itemCount := statements.itemCount
    uniqueItems := statements.uniqueItems
    default := statements.default
    examples := statements.examples
    extensions := statements.extensions }

variable {record merged : Record} {location : String} {keyword : Keyword}

/-- A fold over steps that only state something only states something. -/
theorem restate_foldl {α : Type} {step : Record → α → Record}
    (restates : ∀ record item, record.restate (step record item) = step record item)
    (items : List α) (record : Record) :
    record.restate (items.foldl step record) = items.foldl step record := by
  induction items generalizing record with
  | nil => rfl
  | cons item rest ih =>
    -- What the first step leaves alone is left alone by the steps that follow.
    have first := restates record item
    calc record.restate (rest.foldl step (step record item))
        = (record.restate (step record item)).restate (rest.foldl step (step record item)) := rfl
      _ = rest.foldl step (step record item) := by rw [first, ih]

/-- A constant is taken in if it agrees with the one that is held. -/
theorem setConstant_eq_ok {value : Json} :
    record.setConstant location value = .ok merged ↔
      (∀ held, record.constant = some held → (held == value) = true) ∧
        { record with constant := some value } = merged := by
  unfold setConstant
  cases record.constant with
  | none => simp
  | some held => by_cases agree : (held == value) = true <;> simp [agree]

/-- An enumeration is taken in if it agrees with the one that is held. -/
theorem setEnumeration_eq_ok {values : List Json} :
    record.setEnumeration location values = .ok merged ↔
      (∀ held, record.enumeration = some held → (held == values) = true) ∧
        { record with enumeration := some values } = merged := by
  unfold setEnumeration
  cases record.enumeration with
  | none => simp
  | some held => by_cases agree : (held == values) = true <;> simp [agree]

/-- A default is taken in if it can be represented and agrees with the one that is held. -/
theorem setDefault_eq_ok {value : Json} :
    record.setDefault location value = .ok merged ↔
      ∃ incoming, DefaultValue.ofJson? value = some incoming ∧
        (∀ held, record.default = some held → (held == incoming) = true) ∧
        { record with default := some incoming } = merged := by
  unfold setDefault
  -- A value that cannot be represented is refused, and so is one that differs from what is held.
  cases DefaultValue.ofJson? value with
  | none => simp
  | some incoming =>
    cases record.default with
    | none => simp
    | some held => by_cases agree : (held == incoming) = true <;> simp [agree]

/-- A type states a type or that null is allowed. -/
theorem restate_addType (record : Record) (type : JsonType) :
    record.restate (record.addType type) = record.addType type := by
  unfold addType
  split <;> rfl

/-- A keyword changes nothing but what keywords state. -/
theorem restate_absorb (absorbed : record.absorb location keyword = .ok merged) :
    record.restate merged = merged := by
  unfold absorb at absorbed
  split at absorbed
  -- Types, required names and examples come in lists; constants, enumerations and defaults may clash.
  case h_1 => cases absorbed; exact restate_foldl restate_addType _ _
  case h_2 => obtain ⟨-, rfl⟩ := setConstant_eq_ok.mp absorbed; rfl
  case h_3 => obtain ⟨-, rfl⟩ := setEnumeration_eq_ok.mp absorbed; rfl
  case h_16 => obtain ⟨-, -, -, rfl⟩ := setDefault_eq_ok.mp absorbed; rfl
  case h_17 => cases absorbed; exact restate_foldl (fun _ _ => rfl) _ _
  case h_18 => cases absorbed; exact restate_foldl (fun _ _ => rfl) _ _
  -- Every other keyword fills in one field that `restate` copies.
  all_goals cases absorbed; rfl

/-- Adding a type to the statements alone. -/
theorem stated_addType (record : Record) (type : JsonType) :
    record.stated.addType type = (record.addType type).stated := by
  unfold addType
  split <;> rfl

/-- Setting a constant in the statements alone. -/
theorem stated_setConstant {value : Json} :
    record.stated.setConstant location value =
      (record.setConstant location value).map stated := by
  have same : record.stated.constant = record.constant := rfl
  unfold setConstant
  rw [same]
  cases record.constant with
  | none => rfl
  | some held => by_cases agree : (held == value) = true <;> simp only [agree] <;> rfl

/-- Setting an enumeration in the statements alone. -/
theorem stated_setEnumeration {values : List Json} :
    record.stated.setEnumeration location values =
      (record.setEnumeration location values).map stated := by
  have same : record.stated.enumeration = record.enumeration := rfl
  unfold setEnumeration
  rw [same]
  cases record.enumeration with
  | none => rfl
  | some held => by_cases agree : (held == values) = true <;> simp only [agree] <;> rfl

/-- Setting a default in the statements alone. -/
theorem stated_setDefault {value : Json} :
    record.stated.setDefault location value = (record.setDefault location value).map stated := by
  have same : record.stated.default = record.default := rfl
  unfold setDefault
  -- The default is one of the statements, so both records decide the clash in the same way.
  rw [same]
  cases DefaultValue.ofJson? value with
  | none => rfl
  | some incoming =>
    cases record.default with
    | none => rfl
    | some held => by_cases agree : (held == incoming) = true <;> simp only [agree] <;> rfl

/-- What a keyword makes of the statements does not depend on anything else in the record. -/
theorem stated_absorb :
    record.stated.absorb location keyword = (record.absorb location keyword).map stated := by
  unfold absorb
  split
  -- A loop over the values of a keyword commutes with dropping the rest, as each round does.
  case h_1 => exact congrArg _ (List.foldl_hom stated stated_addType)
  case h_2 => exact stated_setConstant
  case h_3 => exact stated_setEnumeration
  case h_16 => exact stated_setDefault
  case h_17 => exact congrArg _ (List.foldl_hom stated fun _ _ => rfl)
  case h_18 => exact congrArg _ (List.foldl_hom stated fun _ _ => rfl)
  -- Any other keyword writes to a field that is kept.
  all_goals rfl

end Record

end SchemaClasses
