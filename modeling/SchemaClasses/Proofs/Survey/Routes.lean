import SchemaClasses.Proofs.Survey.Places

/-! Routes from a root to the records under it, and where they lead while a survey goes on. -/

namespace SchemaClasses

/-- A leg on the way from one record to another: into a place, or to the negation. -/
inductive Leg where
  | slot (slot : Slot)
  | mirror

/-- The kind of place that a leg leads to. -/
def Leg.place : Leg → PlaceKind
  | .slot (.property _) => .property
  | .slot (.patternProperty _) => .patternProperty
  | .slot .additional => .additional
  | .slot .items => .items
  | .mirror => .negation

/-- A way from a root to a record under it, with the last leg first. -/
abbrev Route := List Leg

/-- The route to what the value at the end of a route must not be; what it must not be there is the
value itself. -/
def Route.flip : Route → Route
  | .mirror :: route => route
  | route => .mirror :: route

/-- Where a route leads. -/
inductive Standing where
  | vacant
  /-- To additional properties that are forbidden. -/
  | lost
  | here (id : RecordId)

/-- The standing of a record that may not be there. -/
def Standing.of : Option RecordId → Standing
  | some id => .here id
  | none => .vacant

theorem Standing.of_eq_here {held : Option RecordId} {id : RecordId} :
    Standing.of held = .here id ↔ held = some id := by
  cases held <;> simp [Standing.of]

/-- Whether the places of one kind are the same in two records. -/
def Record.SameAt (record merged : Record) : PlaceKind → Prop
  | .property => merged.properties = record.properties
  | .patternProperty => merged.patternProperties = record.patternProperties
  | .additional => merged.additional = record.additional
  | .items => merged.items = record.items
  | .branch => merged.oneOf = record.oneOf
  | .negation => merged.negation = record.negation

theorem Record.SameAt.refl (record : Record) (place : PlaceKind) : record.SameAt record place := by
  cases place <;> rfl

/-- A filled place leaves those of other kinds alone. -/
theorem Slot.sameAt_fill {slot : Slot} {child : RecordId} {record : Record} {place : PlaceKind}
    (apart : place ≠ (Leg.slot slot).place) : record.SameAt (slot.fill child record) place := by
  cases slot <;> cases place <;> first | rfl | exact absurd rfl apart

namespace Ledger

/-- Where a leg leads from a record. -/
def leg (ledger : Ledger) (id : RecordId) : Leg → Standing
  | .mirror => .of (ledger.record id).negation
  | .slot .additional =>
    match (ledger.record id).additional with
    | some .forbidden => .lost
    | _ => .of (Slot.additional.held? ledger id)
  | .slot slot => .of (slot.held? ledger id)

/-- Where a route leads from a root. -/
def standing (ledger : Ledger) (root : RecordId) : Route → Standing
  | [] => .here root
  | leg :: route =>
    match ledger.standing root route with
    | .here id => ledger.leg id leg
    | nowhere => nowhere

variable {ledger later : Ledger} {root id other child : RecordId} {route route' : Route}
variable {leg leg' : Leg} {slot : Slot}

/-- A leg into a place leads to the record that stands there. -/
theorem leg_slot_eq_here : ledger.leg id (.slot slot) = .here child ↔
    slot.held? ledger id = some child := by
  cases slot with
  | additional =>
    -- A place for additional properties leads to a record only if it holds a schema.
    cases held : (ledger.record id).additional with
    | none => simp [leg, Slot.held?, held, Standing.of]
    | some additional =>
      cases additional <;>
        simp [leg, Slot.held?, held, AdditionalProperties.record?, Standing.of]
  | _ => exact Standing.of_eq_here

/-- Only what forbidden additional properties would be is lost. -/
theorem leg_eq_lost : ledger.leg id leg = .lost ↔
    leg = .slot .additional ∧ (ledger.record id).additional = some .forbidden := by
  have never (held : Option RecordId) : Standing.of held ≠ .lost := by cases held <;> simp [Standing.of]
  rcases leg with (_ | _ | _ | _) | _
  case slot.additional =>
    cases held : (ledger.record id).additional with
    | none => simp [leg, held, never]
    | some additional => cases additional <;> simp [leg, held, never]
  all_goals simp [leg, never]

/-- A leg into a free place leads nowhere, unless nothing is allowed to stand there. -/
theorem leg_slot_of_free (free : slot.held? ledger id = none)
    (open' : slot = .additional → (ledger.record id).additional ≠ some .forbidden) :
    ledger.leg id (.slot slot) = .vacant := by
  cases slot with
  | additional =>
    have open' := open' rfl
    simp only [leg, free, Standing.of]
  | _ => exact congrArg Standing.of free

/-- A leg leads to a record inside the one at hand, in a place of its kind. -/
theorem mem_inside_of_leg (leads : ledger.leg id leg = .here child) :
    child ∈ (ledger.record id).inside leg.place := by
  -- The mirror stands in the place of the negation, any other record in its slot.
  cases leg with
  | mirror => exact Option.mem_toList.mpr (Standing.of_eq_here.mp leads)
  | slot slot =>
    have held := leg_slot_eq_here.mp leads
    cases slot with
    | property name => exact List.mem_of_find?_eq_some held
    | patternProperty pattern =>
      -- The entry of the pattern is in the list.
      obtain ⟨entry, found, same⟩ := Option.map_eq_some_iff.mp held
      exact List.mem_map.mpr ⟨entry, List.mem_of_find?_eq_some found, same⟩
    | additional => exact Option.mem_toList.mpr held
    | items => exact Option.mem_toList.mpr held

theorem mem_children_of_leg (leads : ledger.leg id leg = .here child) :
    child ∈ (ledger.record id).children :=
  Record.mem_children_iff.mpr ⟨_, mem_inside_of_leg leads⟩

/-- A leg leads where it did as long as the places of its kind are the same and the properties have
kept their names. -/
theorem leg_congr (same : (ledger.record id).SameAt (later.record id) leg.place)
    (named : ∀ property ∈ (ledger.record id).properties, later.name property = ledger.name property) :
    later.leg id leg = ledger.leg id leg := by
  cases leg with
  | mirror =>
    have same : (later.record id).negation = (ledger.record id).negation := same
    simp only [leg, same]
  | slot slot =>
    cases slot with
    | property name =>
      have same : (later.record id).properties = (ledger.record id).properties := same
      -- The lookup by name goes through the same list with the same names.
      have found : later.property? id name = ledger.property? id name := by
        unfold property?
        rw [same]
        exact List.find?_congr fun property member => by
          have := named property member
          unfold Ledger.name at this
          rw [this]
      exact congrArg Standing.of found
    | patternProperty pattern =>
      have same : (later.record id).patternProperties = (ledger.record id).patternProperties := same
      simp only [leg, Slot.held?, same]
    | additional =>
      have same : (later.record id).additional = (ledger.record id).additional := same
      simp only [leg, Slot.held?, same]
    | items =>
      have same : (later.record id).items = (ledger.record id).items := same
      simp only [leg, Slot.held?, same]

/-- A change of a record that keeps its name and the places of one kind keeps the legs to them. -/
theorem leg_update {change : Record → Record}
    (same : (ledger.record id).SameAt (change (ledger.record id)) leg.place)
    (named : (change (ledger.record id)).name = (ledger.record id).name) :
    (ledger.update id change).leg other leg = ledger.leg other leg :=
  leg_congr (@rel_update _ _ _ (fun before after => Record.SameAt before after leg.place) _
    (fun _ => .refl _ _) same) fun _ _ => field_update Record.name named

/-- A change of one record changes no leg from another one. -/
theorem leg_update_of_ne {change : Record → Record} (apart : other ≠ id)
    (named : (change (ledger.record id)).name = (ledger.record id).name) :
    (ledger.update id change).leg other leg = ledger.leg other leg :=
  leg_congr (record_update_of_ne apart ▸ .refl _ _) fun _ _ => field_update Record.name named

/-- A created record changes no leg of those that were there. -/
theorem leg_create {schema : Option SchemaId} {name : Option String} (forest : ledger.Forest)
    (present : id.index < ledger.size) :
    (ledger.create schema name).2.leg id leg = ledger.leg id leg := by
  have kept {other : RecordId} (present : other.index < ledger.size) :
      (ledger.create schema name).2.record other = ledger.record other := record_create_of_lt present
  refine leg_congr (kept present ▸ .refl _ _) fun property member => ?_
  unfold Ledger.name
  rw [kept (forest.inside id property (Record.mem_children.mpr (.inl member))).2]

theorem standing_cons (here : ledger.standing root route = .here id) :
    ledger.standing root (leg :: route) = ledger.leg id leg := by
  simp only [standing, here]

/-- A route to a record leads through the record around it. -/
theorem exists_of_standing_cons (here : ledger.standing root (leg :: route) = .here child) :
    ∃ id, ledger.standing root route = .here id ∧ ledger.leg id leg = .here child := by
  cases before : ledger.standing root route with
  | here id => exact ⟨id, rfl, by rw [← standing_cons before, here]⟩
  | vacant => simp [standing, before] at here
  | lost => simp [standing, before] at here

/-- What lies beyond a lost place is lost. -/
theorem standing_of_suffix (lost : ledger.standing root route = .lost) (further : route <:+ route') :
    ledger.standing root route' = .lost := by
  obtain ⟨legs, rfl⟩ := further
  induction legs with
  | nil => exact lost
  | cons leg rest ih => simp only [List.cons_append, standing, ih]

/-- A record with nothing inside leads nowhere. -/
theorem leg_of_barren (barren : (ledger.record id).children = [])
    (open' : (ledger.record id).additional ≠ some .forbidden) : ledger.leg id leg = .vacant := by
  cases leads : ledger.leg id leg with
  | vacant => rfl
  | here child =>
    have inside := mem_children_of_leg leads
    rw [barren] at inside
    cases inside
  | lost => exact absurd (leg_eq_lost.mp leads).2 open'

section Sound

variable (sound : ledger.Sound) (present : root.index < ledger.size)

include sound present

/-- A route leads to a record of the ledger that does not lie before the root. -/
theorem bounds_of_standing (here : ledger.standing root route = .here id) :
    root.index ≤ id.index ∧ id.index < ledger.size := by
  induction route generalizing id with
  -- The empty route ends at the root.
  | nil =>
    cases here
    exact ⟨Nat.le_refl _, present⟩
  | cons leg rest ih =>
    obtain ⟨parent, before, leads⟩ := exists_of_standing_cons here
    -- A leg leads behind the record at hand and stays inside the ledger.
    obtain ⟨after, inside⟩ := sound.forest.inside parent id (mem_children_of_leg leads)
    exact ⟨Nat.le_trans (ih before).1 after.le, inside⟩

omit present in
/-- Different legs lead to different records. -/
theorem leg_inj (leads : ledger.leg id leg = .here child)
    (leads' : ledger.leg id leg' = .here child) : leg = leg' := by
  have nodup := sound.forest.nodup id
  -- The child stands in one place, so the legs lead to places of one kind.
  have same := Record.place_eq nodup (mem_inside_of_leg leads) (mem_inside_of_leg leads')
  -- Legs to places of one kind differ at most in a name or in a pattern, which the record shows.
  rcases leg with (name | pattern | _ | _) | _ <;>
    rcases leg' with (name' | pattern' | _ | _) | _ <;> first | rfl | cases same
  · -- Two names of one property are the same.
    have named := List.find?_some (leg_slot_eq_here.mp leads)
    have named' := List.find?_some (leg_slot_eq_here.mp leads')
    simp only [beq_iff_eq] at named named'
    rw [named] at named'
    cases named'
    rfl
  · obtain ⟨entry, found, here⟩ := Option.map_eq_some_iff.mp (leg_slot_eq_here.mp leads)
    obtain ⟨entry', found', here'⟩ := Option.map_eq_some_iff.mp (leg_slot_eq_here.mp leads')
    -- A record stands under one pattern only.
    have once : ((ledger.record id).patternProperties.map (·.record)).Nodup := by
      refine nodup.sublist ?_
      simp only [Record.children, List.append_assoc]
      exact (List.sublist_append_left _ _).trans (List.sublist_append_right _ _)
    have entries : entry = entry' :=
      List.inj_on_of_nodup_map once (List.mem_of_find?_eq_some found)
        (List.mem_of_find?_eq_some found') (here.trans here'.symm)
    have named := List.find?_some found
    have named' := List.find?_some found'
    simp only [beq_iff_eq] at named named'
    rw [← named, ← named', entries]

/-- Different routes lead to different records. -/
theorem standing_inj (here : ledger.standing root route = .here id)
    (here' : ledger.standing root route' = .here id) : route = route' := by
  -- No leg leads to the root, behind which everything else lies.
  have apart {leg : Leg} {rest : Route} (here : ledger.standing root (leg :: rest) = .here root) :
      False := by
    obtain ⟨parent, before, leads⟩ := exists_of_standing_cons here
    have after := (sound.forest.inside parent root (mem_children_of_leg leads)).1
    have := (bounds_of_standing sound present before).1
    omega
  -- The last legs are compared first, then the routes before them.
  induction route generalizing route' id with
  | nil =>
    cases here
    cases route' with
    | nil => rfl
    | cons leg rest => exact (apart here').elim
  | cons leg rest ih =>
    cases route' with
    | nil =>
      cases here'
      exact (apart here).elim
    | cons leg' rest' =>
      obtain ⟨parent, before, leads⟩ := exists_of_standing_cons here
      obtain ⟨parent', before', leads'⟩ := exists_of_standing_cons here'
      -- The record has one parent, so both routes pass through that.
      obtain rfl := sound.forest.single _ _ _ (mem_children_of_leg leads)
        (mem_children_of_leg leads')
      obtain rfl := leg_inj sound leads leads'
      rw [ih before before']

omit present in
/-- A record that stands in a place is no negation. -/
theorem negationOf_of_slot (here : ledger.standing root (.slot slot :: route) = .here id) :
    (ledger.record id).negationOf = none := by
  obtain ⟨parent, -, leads⟩ := exists_of_standing_cons here
  cases origin : (ledger.record id).negationOf with
  | none => rfl
  | some positive =>
    -- A negation stands in the place for it, and this is another place.
    have inside := mem_inside_of_leg leads
    have mirror : id ∈ (ledger.record positive).inside .negation :=
      Option.mem_toList.mpr ((sound.owned.mirror positive id).mpr origin)
    obtain rfl := sound.forest.single _ _ _ (Record.mem_children_iff.mpr ⟨_, inside⟩)
      (Record.mem_children_iff.mpr ⟨_, mirror⟩)
    have same := Record.place_eq (sound.forest.nodup parent) inside mirror
    cases slot <;> cases same

omit present in
/-- The route to the opposite of what stands at the end of a route leads to its mirror. -/
theorem standing_flip (positive : (ledger.record root).negationOf = none)
    (here : ledger.standing root route = .here id) :
    ledger.standing root route.flip = .of (ledger.mirror? id) := by
  -- A positive record is the start of a leg to its mirror.
  have ahead (positive : (ledger.record id).negationOf = none) :
      ledger.standing root (.mirror :: route) = .of (ledger.mirror? id) := by
    rw [standing_cons here, mirror?, positive]
    rfl
  cases route with
  | nil =>
    cases here
    exact ahead positive
  | cons leg rest =>
    cases leg with
    | slot slot => exact ahead (negationOf_of_slot sound here)
    | mirror =>
      -- The opposite of a negation is what it negates, where the route came from.
      obtain ⟨origin, before, leads⟩ := exists_of_standing_cons here
      have mirrored := (sound.owned.mirror origin id).mp (Standing.of_eq_here.mp leads)
      rw [mirror?, mirrored]
      exact before

/-- Where all legs lead as before, routes do so too. -/
theorem standing_congr
    (legs : ∀ id : RecordId, id.index < ledger.size → ∀ leg, later.leg id leg = ledger.leg id leg) :
    later.standing root route = ledger.standing root route := by
  induction route with
  | nil => rfl
  | cons leg rest ih =>
    -- A route that went nowhere goes nowhere by definition.
    cases before : ledger.standing root rest with
    | here id =>
      rw [before] at ih
      rw [standing_cons before, standing_cons ih]
      exact legs id (bounds_of_standing sound present before).2 leg
    | vacant => simp only [standing, ih, before]
    | lost => simp only [standing, ih, before]

/-- Where legs lead as before or to what is lost by now, routes do so too. -/
theorem standing_of_legs
    (legs : ∀ id : RecordId, id.index < ledger.size → ∀ leg,
      later.leg id leg = ledger.leg id leg ∨ later.leg id leg = .lost) :
    later.standing root route = ledger.standing root route ∨ later.standing root route = .lost := by
  induction route with
  | nil => exact .inl rfl
  | cons leg rest ih =>
    rcases ih with same | lost
    · -- What stood there before decides how the route went on.
      cases before : ledger.standing root rest with
      | here id =>
        rw [before] at same
        rw [standing_cons before, standing_cons same]
        exact legs id (bounds_of_standing sound present before).2 leg
      | vacant => exact .inl (by simp only [standing, same, before])
      | lost => exact .inl (by simp only [standing, same, before])
    · exact .inr (by simp only [standing, lost])

/-- A record that was put where nothing stood before is at the end of one more route, with nothing
beyond it, and all other routes lead where they did. -/
theorem standing_of_new {new : RecordId} (here : ledger.standing root route = .here id)
    (vacant : ledger.leg id leg = .vacant) (leads : later.leg id leg = .here new)
    (barren : ∀ leg, later.leg new leg = .vacant)
    (legs : ∀ other : RecordId, other.index < ledger.size → ∀ leg', ¬ (other = id ∧ leg' = leg) →
      later.leg other leg' = ledger.leg other leg') :
    later.standing root route' = ledger.standing root route' ∨
      route' = leg :: route ∧ later.standing root route' = .here new ∧
        ledger.standing root route' = .vacant := by
  induction route' with
  | nil => exact .inl rfl
  | cons leg' rest ih =>
    rcases ih with same | ⟨-, newest, before⟩
    · cases before : ledger.standing root rest with
      | here other =>
        rw [before] at same
        rw [standing_cons before, standing_cons same]
        -- A route leads to the new record only if its last leg is the one that was vacant.
        -- The leg at hand is the vacant one, and routes to its holder are the same.
        by_cases taken : other = id ∧ leg' = leg
        · obtain ⟨rfl, rfl⟩ := taken
          obtain rfl := standing_inj sound present before here
          exact .inr ⟨rfl, leads, vacant⟩
        · exact .inl (legs other (bounds_of_standing sound present before).2 leg' taken)
      | vacant => exact .inl (by simp only [standing, same, before])
      | lost => exact .inl (by simp only [standing, same, before])
    · refine .inl ?_
      -- Nothing stands beyond the new record.
      rw [standing_cons newest, barren]
      simp only [standing, before]

/-- Forbidden additional properties are lost, and nothing else changes. -/
theorem standing_forbid :
    (ledger.update id fun record => { record with additional := some .forbidden }).standing root route =
        ledger.standing root route ∨
      (ledger.update id fun record => { record with additional := some .forbidden }).standing root
        route = .lost := by
  refine standing_of_legs sound present fun other there leg => ?_
  -- Only legs to additional properties of the record may be lost.
  by_cases apart : leg.place = .additional
  · by_cases same : other = id
    · subst same
      refine .inr (leg_eq_lost.mpr ⟨?_, by rw [record_update_self there]⟩)
      rcases leg with (_ | _ | _ | _) | _ <;> first | rfl | cases apart
    · exact .inl (leg_update_of_ne same rfl)
  · refine .inl (leg_update ?_ rfl)
    cases place : leg.place <;> first | rfl | exact absurd place apart

/-- Where additional properties get allowed, nothing changes. -/
theorem standing_allow (unset : (ledger.record id).additional = none) :
    (ledger.update id fun record => { record with additional := some .allowed }).standing root route =
      ledger.standing root route := by
  refine standing_congr sound present fun other there leg => ?_
  -- The place is unset, so the leg leads nowhere before and after.
  by_cases apart : leg.place = .additional
  · by_cases same : other = id
    · subst same
      obtain rfl : leg = .slot .additional := by
        rcases leg with (_ | _ | _ | _) | _ <;> first | rfl | cases apart
      simp only [Ledger.leg, Slot.held?, record_update_self there, unset]
      rfl
    · exact leg_update_of_ne same rfl
  · refine leg_update ?_ rfl
    cases place : leg.place <;> first | rfl | exact absurd place apart

end Sound

/-- Legs after a free place of a record was filled with a new one. -/
theorem leg_attach (sound : ledger.Sound) (present : id.index < ledger.size)
    (free : slot.IsFree ledger id) (schema : SchemaId) :
    let after := (ledger.create (some schema) slot.name?).2.update id (slot.fill ⟨ledger.size⟩)
    after.leg id (.slot slot) = .here ⟨ledger.size⟩ ∧
      (∀ leg, after.leg ⟨ledger.size⟩ leg = .vacant) ∧
      ∀ other : RecordId, other.index < ledger.size → ∀ leg, ¬ (other = id ∧ leg = .slot slot) →
        after.leg other leg = ledger.leg other leg := by
  have fresh : (⟨ledger.size⟩ : RecordId) ≠ id := (RecordId.ne_next present).symm
  refine ⟨leg_slot_eq_here.mpr (Slot.held?_attach free sound.forest present schema),
    fun leg => ?_, fun other there leg apart => ?_⟩
  · -- The new record is blank, so no leg leads on from it.
    have newest : ((ledger.create (some schema) slot.name?).2.update id
        (slot.fill ⟨ledger.size⟩)).record ⟨ledger.size⟩ = ledger.fresh (some schema) slot.name? := by
      rw [record_update_of_ne fresh, record_create, if_pos rfl]
    exact leg_of_barren (by rw [newest]; rfl) (by rw [newest]; simp [Ledger.fresh])
  · -- Making the record moved no leg, so filling the place has to be looked at.
    rw [← @leg_create _ _ leg (some schema) slot.name? sound.forest there]
    have named : (slot.fill ⟨ledger.size⟩
        ((ledger.create (some schema) slot.name?).2.record id)).name =
        ((ledger.create (some schema) slot.name?).2.record id).name := Slot.sameOrigin_fill.name
    by_cases same : other = id
    · subst same
      have present' : other.index < (ledger.create (some schema) slot.name?).2.size := by
        simpa using Nat.lt_succ_of_lt there
      by_cases place : leg.place = (Leg.slot slot).place
      · -- The leg goes to a place of the same kind by another name or pattern.
        rcases leg with (name | pattern | _ | _) | _ <;>
          rcases slot with name' | pattern' | _ | _ <;>
          first | exact absurd ⟨rfl, rfl⟩ apart | cases place
        · -- Another name is not found at the new property.
          have different : name' ≠ name := fun same => apart ⟨rfl, by rw [same]⟩
          refine congrArg Standing.of ?_
          show Ledger.property? _ other name = Ledger.property? _ other name
          rw [Slot.property?_of_append (by rw [record_update_self present']; rfl)
            fun property _ => field_update Record.name named]
          have newest : (((ledger.create (some schema) (some name')).2.update other
              ((Slot.property name').fill ⟨ledger.size⟩)).record ⟨ledger.size⟩).name = some name' := by
            rw [record_update_of_ne fresh, record_create, if_pos rfl]
            rfl
          have unlike : (some name' == some name) = false := by simpa using different
          simp only [Slot.name?, List.find?_cons, newest, unlike, List.find?_nil, Option.or_none]
        · -- Another pattern is not found at the new entry.
          have different : pattern' ≠ pattern := fun same => apart ⟨rfl, by rw [same]⟩
          refine congrArg Standing.of ?_
          have unlike : (pattern' == pattern) = false := beq_false_of_ne different
          simp only [Slot.held?, record_update_self present', Slot.fill, List.find?_append,
            List.find?_cons, unlike, List.find?_nil, Option.or_none]
      · exact leg_update (Slot.sameAt_fill place) named
    · exact leg_update_of_ne same named

/-- Legs after a first negation. -/
theorem leg_negation (sound : ledger.Sound) (present : id.index < ledger.size)
    (positive : (ledger.record id).negationOf = none) (unset : (ledger.record id).negation = none) :
    (ledger.negation id).2.leg id .mirror = .here ⟨ledger.size⟩ ∧
      (∀ leg, (ledger.negation id).2.leg ⟨ledger.size⟩ leg = .vacant) ∧
      ∀ other : RecordId, other.index < ledger.size → ∀ leg, ¬ (other = id ∧ leg = .mirror) →
        (ledger.negation id).2.leg other leg = ledger.leg other leg := by
  have records (other : RecordId) := @record_negation ledger id other present positive unset
  refine ⟨?_, fun leg => ?_, fun other there leg apart => ?_⟩
  · -- The record leads to its new mirror.
    rw [leg, records, if_neg (RecordId.ne_next present), if_pos rfl]
    rfl
  · exact leg_of_barren (by rw [records, if_pos rfl]; rfl)
      (by rw [records, if_pos rfl]; simp [negative])
  · -- A leg is decided by the places of its record and the names of properties.
    refine leg_congr ?_ fun property member => ?_
    · rw [records, if_neg (RecordId.ne_next there)]
      split
      · rename_i same
        subst same
        -- Only the leg to the mirror is another one now.
        rcases leg with (_ | _ | _ | _) | _ <;> first | rfl | exact absurd ⟨rfl, rfl⟩ apart
      · exact .refl _ _
    · -- Properties keep their names, as no old record gets another one.
      have inside := (sound.forest.inside other property
        (Record.mem_children.mpr (.inl member))).2
      unfold Ledger.name
      rw [records, if_neg (RecordId.ne_next inside)]
      split
      · rename_i same
        rw [same]
      · rfl

end Ledger

namespace Survey

variable {tree : SchemaTree} {part : Surveying Unit} {root id : RecordId} {survey last : Survey}
variable {route : Route}

/-- A part of a survey does not move the record that it acts on. -/
theorem Works.standing_eq (works : Works tree id part) (refining : Refining tree part)
    (sound : survey.ledger.Sound) (present : root.index < survey.ledger.size)
    (positive : (survey.ledger.record root).negationOf = none)
    (here : survey.ledger.standing root route = .here id) (ran : part survey = .ok () last) :
    last.ledger.standing root route = .here id := by
  have refines := refining survey
  unfold lastState at refines
  rw [ran] at refines
  have refines := refines.ledger
  -- The record lies under one that is no negation: itself, or the one that it negates.
  obtain ⟨top, base, stands, topPositive, below, route_eq⟩ : ∃ top base,
      survey.ledger.standing root base = .here top ∧
      (survey.ledger.record top).negationOf = none ∧ id ∈ survey.ledger.under top ∧
      (route = base ∧ id = top ∨
        route = .mirror :: base ∧ (survey.ledger.record top).negation = some id) := by
    -- The last leg of the route tells which of the two it is.
    cases route with
    | nil =>
      cases here
      exact ⟨root, [], rfl, positive, .refl, .inl ⟨rfl, rfl⟩⟩
    | cons leg rest =>
      cases leg with
      | slot slot =>
        exact ⟨id, _, here, Ledger.negationOf_of_slot sound here, .refl, .inl ⟨rfl, rfl⟩⟩
      | mirror =>
        -- The route came through the mirror leg, so its record is above.
        obtain ⟨top, before, leads⟩ := Ledger.exists_of_standing_cons here
        have negation := Standing.of_eq_here.mp leads
        have origin := (sound.owned.mirror top id).mp negation
        exact ⟨top, rest, before, (sound.owned.shares id top origin).2.1,
          .single (Ledger.mem_children_of_leg leads), .inr ⟨rfl, negation⟩⟩
  have kept {other : RecordId} (before : other.index < top.index)
      (present : other.index < survey.ledger.size) :
      last.ledger.record other = survey.ledger.record other :=
    works.record_eq sound topPositive below ran present fun under =>
      absurd (Ledger.le_of_mem_under sound.forest under) (Nat.not_le.mpr before)
  -- All records on the way to the top lie before it.
  have follow : ∀ {way : Route} {other : RecordId},
      survey.ledger.standing root way = .here other → other.index ≤ top.index →
      last.ledger.standing root way = .here other := by
    intro way
    induction way with
    | nil => exact fun here _ => here
    | cons leg rest ih =>
      intro other here atMost
      obtain ⟨parent, before, leads⟩ := Ledger.exists_of_standing_cons here
      have inside := sound.forest.inside parent other (Ledger.mem_children_of_leg leads)
      have there := (Ledger.bounds_of_standing sound present before).2
      rw [Ledger.standing_cons (ih before (Nat.le_trans inside.1.le atMost)), ← leads]
      refine Ledger.leg_congr ?_ fun property member => ?_
      · rw [kept (Nat.lt_of_lt_of_le inside.1 atMost) there]
        -- The leg is the same for the same places and names.
        exact .refl _ _
      · have inside := (sound.forest.inside parent property
          (Record.mem_children.mpr (.inl member))).2
        exact (refines.record property inside).origin.name
  -- At the top the way is followed, and to its mirror there is one leg more.
  rcases route_eq with ⟨rfl, rfl⟩ | ⟨rfl, negation⟩
  · exact follow stands (Nat.le_refl _)
  · rw [Ledger.standing_cons (follow stands (Nat.le_refl _))]
    have there := (Ledger.bounds_of_standing sound present stands).2
    exact Standing.of_eq_here.mpr ((refines.record top there).negation id negation)

end Survey

end SchemaClasses
