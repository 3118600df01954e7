import SchemaClasses.Proofs.Resolution.Steps

/-! A walk is a sequence of steps behind which every class that it nested is whole: all values of its
properties have been analysed. No analysis is left half done. -/

namespace SchemaClasses

/-- Whether a record is the value of a property of another one, under its own name, a pattern or
neither. -/
def Record.IsMember (record : Record) (id : RecordId) : Prop :=
  id ∈ record.properties ∨ id ∈ record.patternProperties.map (·.record) ∨
    record.additional = some (.schema id)

/-- The values of properties lie inside the record. -/
theorem Record.IsMember.mem_children {record : Record} {id : RecordId} (member : record.IsMember id) :
    id ∈ record.children := by
  rw [Record.mem_children]
  -- Properties, patterns and additional properties are all listed among the children.
  rcases member with property | pattern | additional
  · exact .inl property
  · exact .inr (.inl (List.mem_map.mp pattern))
  · exact .inr (.inr (.inl additional))

/-- Whether the analysis of a record goes on to another one. -/
def Record.LeadsTo (record : Record) (id : RecordId) : Prop :=
  record.IsMember id ∨ record.items = some id

/-- An analysis goes on to records inside the record. -/
theorem Record.LeadsTo.mem_children {record : Record} {id : RecordId} (leads : record.LeadsTo id) :
    id ∈ record.children := by
  rcases leads with member | items
  · exact member.mem_children
  · exact Record.mem_children.mpr (.inr (.inr (.inr (.inl items))))

/-- A record that is settled keeps the values of its properties. -/
theorem Record.Settles.isMember {a b : Record} (settles : a.Settles b) {id : RecordId} :
    b.IsMember id ↔ a.IsMember id := by
  -- Settling a record changes none of the three places where values are held.
  unfold IsMember
  rw [settles.properties_eq, settles.patternRecords_eq, settles.additional_eq]

/-- Whether a shape is one of a value: objects and enums of identifiers are settled on classes. -/
def Shape.IsValue (shape : Shape) : Prop := shape ≠ .object ∧ shape ≠ .identifierEnum

namespace Model

/-- Whether the analysis of a record is complete: it has the shape of a value, for which its class
uses the library types, and if it is an array that of its items is complete as well. -/
inductive Settled (model : Model) (owner : DeclarationId) : RecordId → Prop where
  | intro {id : RecordId} {shape : Shape} (present : id.index < model.ledger.size)
      (shaped : (model.ledger.record id).shape = some shape) (isValue : shape.IsValue)
      (used : shape.libraryTypes ⊆ (model.declaration owner).libraryTypes)
      (items : shape = .array → ∀ items, (model.ledger.record id).items = some items →
        Settled model owner items) : Settled model owner id

/-- Whether the analysis of a record is complete, unless it has not begun. -/
def Clean (model : Model) (owner : DeclarationId) (id : RecordId) : Prop :=
  (model.ledger.record id).shape = none ∨ model.Settled owner id

/-- Whether the records of a scope from a number on, except negations, are analysed completely or not
at all. -/
def CleanFrom (model : Model) (owner : DeclarationId) (scope : Set RecordId) (low : Nat) : Prop :=
  ∀ id ∈ scope, low ≤ id.index → (model.ledger.record id).negationOf = none →
    model.Clean owner id

/-- Whether a record is there and the values of all its properties have been analysed. -/
structure Whole (model : Model) (owner : DeclarationId) (id : RecordId) : Prop where
  present : id.index < model.ledger.size
  settled : ∀ member, (model.ledger.record id).IsMember member → model.Settled owner member

/-- Whether the concrete classes nested in a declaration from a number on are whole. -/
def WholeFrom (model : Model) (owner : DeclarationId) (number : Nat) : Prop :=
  ∀ (index : Nat) (nested : NestedClass), number ≤ index →
    (model.declaration owner).nested[index]? = some nested → nested.kind = .concrete →
    model.Whole owner nested.record

end Model

/-- Records that lie before those inside them; the negation of a record is marked as one, and no
analysis leads to it. -/
structure Ledger.Ordered (ledger : Ledger) (scope : Set RecordId) : Prop where
  behind : ∀ id ∈ scope, ∀ child ∈ (ledger.record id).children, id.index < child.index
  positive : ∀ id ∈ scope, ∀ child, (ledger.record id).LeadsTo child →
    (ledger.record child).negationOf = none
  negative : ∀ id ∈ scope, ∀ negation, (ledger.record id).negation = some negation →
    (ledger.record negation).negationOf.isSome

/-- Records that hold only each other stay in order while they are settled. -/
theorem Ledger.Settles.ordered {before after : Ledger} {scope : Set RecordId}
    (settles : before.Settles after) (closed : before.Closed scope)
    (ordered : before.Ordered scope) : after.Ordered scope := by
  have same {id : RecordId} (acts : id ∈ scope) := settles.record id (closed.present id acts)
  -- Settling adds shapes and classes, so an analysis goes on to the same records as before.
  have leadsTo {id child : RecordId} (acts : id ∈ scope) (leads : (after.record id).LeadsTo child) :
      (before.record id).LeadsTo child := by
    unfold Record.LeadsTo at leads ⊢
    rw [(same acts).isMember, (same acts).items_eq] at leads
    exact leads
  -- Each order is about children, and these are those from before.
  refine ⟨fun id acts child inside => ?_, fun id acts child leads => ?_,
    fun id acts negation held => ?_⟩
  · rw [(same acts).children_eq] at inside
    exact ordered.behind id acts child inside
  · have leads := leadsTo acts leads
    -- The child keeps its side of a negation, for it lies within the same scope.
    rw [(same (closed.inside id acts child leads.mem_children)).sameOrigin.negationOf]
    exact ordered.positive id acts child leads
  · rw [(same acts).negation_eq] at held
    have acts' := closed.inside id acts negation (Record.mem_children.mpr (by simp [held]))
    rw [(same acts').sameOrigin.negationOf]
    exact ordered.negative id acts negation held

namespace Modelling

variable {context : Context} {owner : DeclarationId} {site : Site} {scope : Set RecordId}
variable {before after a b c : Model} {id : RecordId}

/-- What has been analysed stays so. -/
theorem Later.settled (later : Later before after) (settled : before.Settled owner id) :
    after.Settled owner id := by
  -- An array is settled through its items, which stay the same.
  induction settled with
  | @intro id shape present shaped isValue used items ih =>
    refine .intro ?_ ((later.settles id).shape shape shaped) isValue
      (List.Subset.trans used (later.grows owner).libraryTypes) fun array inner held => ?_
    · rw [later.size]
      exact present
    · rw [(later.settles id).items_eq] at held
      exact ih array inner held

/-- A class that is whole stays so. -/
theorem Later.whole (later : Later before after) (whole : before.Whole owner id) :
    after.Whole owner id where
  present := by
    rw [later.size]
    exact whole.present
  settled member held := later.settled (whole.settled member ((later.settles id).isMember.mp held))

/-- Classes that are whole stay so. -/
theorem Later.wholeFrom (later : Later before after) {number : Nat}
    (whole : before.WholeFrom owner number)
    (same : (after.declaration owner).nested = (before.declaration owner).nested) :
    after.WholeFrom owner number := by
  -- The classes are the same, and what their records hold is settled further.
  intro index nested atLeast there concrete
  rw [same] at there
  exact later.whole (whole index nested atLeast there concrete)

/-- What is complete stays so. -/
theorem Later.clean (later : Later before after) (clean : before.Clean owner id)
    (same : (after.ledger.record id).shape = (before.ledger.record id).shape) :
    after.Clean owner id :=
  clean.imp (fun unset => same.trans unset) later.settled

/-- Classes that are whole stay so while others that are whole are nested behind them. -/
theorem wholeFrom_of_grown {number : Nat}
    (grows : (before.declaration owner).Grows (after.declaration owner))
    (keeps : ∀ id, before.Whole owner id → after.Whole owner id)
    (whole : after.WholeFrom owner (before.declaration owner).nested.size)
    (earlier : before.WholeFrom owner number) : after.WholeFrom owner number := by
  intro index nested atLeast there concrete
  -- The class may be new or one of those from before.
  by_cases new : (before.declaration owner).nested.size ≤ index
  · exact whole index nested new there concrete
  · -- The class was nested before, and it is still the one under its number.
    have inside : index < (before.declaration owner).nested.size := Nat.not_le.mp new
    have found := Array.getElem?_eq_getElem inside
    have kept := grows.getElem?_nested found
    rw [there] at kept
    rw [← Option.some_inj.mp kept] at found
    exact keeps _ (earlier index nested atLeast found concrete)

/-- A site where a class may be analysed: it is declared and the class around it is there, the records
in its scope hold only each other, each before those inside it, and from a number on no analysis is
half done. -/
structure Ready (site : Site) (scope : Set RecordId) (low : Nat) (model : Model) : Prop where
  declared : site.owner.index < model.declarations.size
  placed : ∀ index, site.scope = some index → model.HasClass (.nested site.owner index)
  closed : model.ledger.Closed scope
  ordered : model.ledger.Ordered scope
  clean : model.CleanFrom site.owner scope low

/-- A declaration lies in no class. -/
theorem Site.scope_outermost {index : Nat} : (⟨owner, none⟩ : Site).scope ≠ some index :=
  (Option.some_ne_none index).symm

/-- A class that is there stays there. -/
theorem Later.hasClass (later : Later before after) {ref : ClassRef} (there : before.HasClass ref) :
    after.HasClass ref := by
  -- No declaration and no nested class is taken away.
  cases ref with
  | declaration id =>
    show id.index < after.declarations.size
    rw [later.declarations]
    exact there
  | nested owner index => exact Nat.lt_of_lt_of_le there (later.grows owner).size_le

/-- Steps behind which the classes that they nested are whole and no analysis is half done. -/
structure Walk (context : Context) (owner : DeclarationId) (scope : Set RecordId)
    (before after : Model) : Prop where
  steps : Steps context owner scope before after
  whole : after.WholeFrom owner (before.declaration owner).nested.size
  clean : ∀ id, (before.ledger.record id).negationOf = none → before.Clean owner id →
    after.Clean owner id

namespace Walk

/-- Steps that nest no class and decide no shape but that of a negation. -/
theorem ofSteps (steps : Steps context owner scope before after)
    (same : (after.declaration owner).nested.size ≤ (before.declaration owner).nested.size)
    (shape : ∀ id, (before.ledger.record id).negationOf = none →
      (after.ledger.record id).shape = (before.ledger.record id).shape) :
    Walk context owner scope before after where
  steps := steps
  whole index nested atLeast there _ := by
    -- There is no class behind those that were nested before.
    obtain ⟨inside, -⟩ := Array.getElem?_eq_some_iff.mp there
    omega
  clean id positive clean := (Steps.ahead steps).toLater.clean clean (shape id positive)

theorem refl (model : Model) : Walk context owner scope model model :=
  ofSteps .refl (Nat.le_refl _) fun _ _ => rfl

theorem ahead (walk : Walk context owner scope before after) : Ahead before after :=
  Steps.ahead walk.steps

theorem later (walk : Walk context owner scope before after) : Later before after :=
  walk.ahead.toLater

theorem trans (first : Walk context owner scope a b) (second : Walk context owner scope b c) :
    Walk context owner scope a c where
  steps := first.steps.trans second.steps
  whole := wholeFrom_of_grown (second.later.grows owner) (fun _ => second.later.whole) second.whole
    first.whole
  clean id positive clean := by
    -- The first walk makes no record a negation.
    refine second.clean id ?_ (first.clean id positive clean)
    rw [(first.later.settles id).sameOrigin.negationOf]
    exact positive

/-- Walks keep an analysis from being half done. -/
theorem cleanFrom {low : Nat} {scope' : Set RecordId} (walk : Walk context owner scope before after)
    (clean : before.CleanFrom owner scope' low) : after.CleanFrom owner scope' low := by
  -- Which records are negations does not change on a walk.
  intro id acts atLeast positive
  rw [(walk.later.settles id).sameOrigin.negationOf] at positive
  exact walk.clean id positive (clean id acts atLeast positive)

end Walk

variable {low : Nat}

/-- A class that may be analysed may be so after a walk. -/
theorem Ready.walk (ready : Ready site scope low before)
    (walk : Walk context site.owner scope before after) : Ready site scope low after where
  declared := by
    rw [walk.later.declarations]
    exact ready.declared
  placed index held := walk.later.hasClass (ready.placed index held)
  closed := walk.later.closed ready.closed
  ordered := walk.later.ledger.ordered ready.closed ready.ordered
  clean := walk.cleanFrom ready.clean

instance : Course (Ready site scope low) (Walk context site.owner scope) where
  refl := .refl
  trans := .trans
  ready led ready := ready.walk led

/-- A part of an analysis is a walk. -/
abbrev Works {α : Type} (context : Context) (site : Site) (scope : Set RecordId) (low : Nat)
    (part : Modelling α) : Prop :=
  Takes (Ready site scope low) (Walk context site.owner scope) part

/-- A part of an analysis is a walk, and its result fits the model that it leaves. -/
def Yields {α : Type} (context : Context) (owner : DeclarationId) (scope : Set RecordId)
    (part : Modelling α) (start : Model) (fits : α → Model → Prop) : Prop :=
  Ends part start (fun result last => Walk context owner scope start last ∧ fits result last)
    (fun _ => True)

/-- What holds at the end of a part that goes on from where a walk has led. -/
theorem Yields.further {α : Type} {part : Modelling α} {fits : α → Model → Prop}
    (yields : Yields context owner scope part b fits) (led : Walk context owner scope a b) :
    Ends part b (fun result last => Walk context owner scope a last ∧ fits result last)
      (fun _ => True) :=
  Ends.imp yields (fun _ _ walked => ⟨led.trans walked.1, walked.2⟩) fun _ _ => trivial

/-- A loop over records that settles each of them. -/
theorem yields_forM {α : Type} {items : List α} {round : α → Modelling Unit} {start : Model}
    (record : α → RecordId) (ready : Ready site scope low start)
    (settles : ∀ item ∈ items, ∀ middle, Ready site scope low middle →
      Walk context site.owner scope start middle →
      Yields context site.owner scope (round item) middle fun _ last =>
        last.Settled site.owner (record item)) :
    Yields context site.owner scope (items.forM round) start fun _ last =>
      ∀ item ∈ items, last.Settled site.owner (record item) := by
  -- A record that is settled stays so in the later rounds.
  unfold Yields at settles ⊢
  exact Takes.forEach _ ready (fun _ _ _ walk settled => walk.later.settled settled) settles

end Modelling

end SchemaClasses
