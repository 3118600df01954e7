import SchemaClasses.Proofs.Resolution.Synthesis

/-! The variant of a class for a branch merges what the two hold, and leaves the class itself alone: its
record, its properties and the checks of these are what they were. -/

namespace SchemaClasses

/-- New values come behind those of a list, each once and in their order. -/
theorem foldl_addNew {α : Type} [BEq α] [LawfulBEq α] {values more : List α} :
    more.foldl addNew values = values ++ (more.filter fun value => !values.contains value).eraseDups := by
  induction more generalizing values with
  | nil => simp
  | cons value rest ih =>
    -- The value is known, or joins behind the others.
    rw [List.foldl_cons, ih, addNew]
    split
    · rename_i known
      rw [List.filter_cons_of_neg (by simpa using known)]
    · rename_i unknown
      -- The value is told apart from the rest once it has joined.
      have rest_eq : (rest.filter fun other => !(values ++ [value]).contains other) =
          (rest.filter fun other => !values.contains other).filter fun other => !other == value := by
        rw [List.filter_filter]
        refine List.filter_congr fun other _ => Bool.eq_iff_iff.mpr ?_
        simp [or_comm]
      rw [List.filter_cons_of_pos (by simpa using unknown), List.eraseDups_cons, rest_eq,
        List.append_assoc, List.singleton_append]

/-- The checks of another set that are new come behind those of a set, each once and in their order. -/
theorem CheckSet.items_extend {set more : CheckSet} :
    (set.extend more).items =
      set.items ++ (more.items.filter fun check => !set.contains check).eraseDups := by
  -- Checks are a list of values that are told apart in the same way.
  have items (checks : List Check) (set : CheckSet) :
      (checks.foldl add set).items = checks.foldl addNew set.items := by
    induction checks generalizing set with
    | nil => rfl
    | cons check rest ih => rw [List.foldl_cons, List.foldl_cons, ih, items_add]
  rw [extend, items, foldl_addNew]
  simp only [contains, List.contains_eq_mem]

/-- The records among some whose names no property of a record has. -/
def Ledger.lacking (ledger : Ledger) (id : RecordId) (properties : List RecordId) : List RecordId :=
  properties.filter fun property => ledger.name property ∉ ledger.names id

namespace Modelling

variable {context : Context} {first made model last : Model} {site : Site} {floor : Nat}
variable {container branch variant property id : RecordId} {done rest : List RecordId}

/-- A variant that has its class and the properties of its container, before it takes in the members of
its branch. -/
structure Pouring (context : Context) (first : Model) (site : Site) (floor : Nat)
    (container branch variant : RecordId) (made : Model) : Prop
    extends Filling context first site floor variant made where
  sole : made.ledger.Sole first.ledger.size
  member : container ∈ first.realm site.owner
  held : branch ∈ (first.ledger.record container).oneOf
  copies : ∀ copy ∈ (made.ledger.record variant).properties, floor ≤ copy.index ∧ copy ≠ variant
  names : made.ledger.names variant = first.ledger.names container

/-- Whether a record is that of a container, of a branch of it, or a property of the container. -/
def IsSource (first : Model) (container branch id : RecordId) : Prop :=
  id = container ∨ id = branch ∨ id ∈ (first.ledger.record container).properties

/-- What has become of a variant that has taken in some properties of its branch. -/
structure Poured (first : Model) (container branch variant : RecordId) (made : Model)
    (done : List RecordId) (model : Model) : Prop where
  record : model.ledger.record variant =
    { made.ledger.record variant with
      properties := (made.ledger.record variant).properties ++ first.ledger.lacking container done }
  copies : ∀ copy ∈ (made.ledger.record variant).properties,
    model.ledger.record copy = made.ledger.record copy
  matched : ∀ copy ∈ (made.ledger.record variant).properties, ∀ property ∈ done,
    first.ledger.name property = made.ledger.name copy →
    model.ledger.checks copy = (made.ledger.checks copy).extend (model.ledger.checks property)
  lone : ∀ copy ∈ (made.ledger.record variant).properties,
    (∀ property ∈ done, first.ledger.name property ≠ made.ledger.name copy) →
    model.ledger.checks copy = made.ledger.checks copy
  kept : ∀ id, IsSource first container branch id →
    model.ledger.record id = made.ledger.record id ∧ model.ledger.checks id = made.ledger.checks id

namespace Pouring

/-- The branch lies in the branches of its declaration. -/
theorem inBranches (pouring : Pouring context first site floor container branch variant made) :
    branch ∈ first.inBranches site.owner :=
  ⟨container, pouring.member, branch, pouring.held, Ledger.mem_scope_self⟩

/-- The container and its properties, the branch and its other properties lie outside of a property of the
branch, and so do copies. -/
theorem outside (pouring : Pouring context first site floor container branch variant made)
    (owned : property ∈ (first.ledger.record branch).properties)
    (apart : first.ledger.size ≤ id.index ∨ IsSource first container branch id ∨
      id ∈ (first.ledger.record branch).properties ∧ id ≠ property) :
    id ∉ first.ledger.scope property := by
  have sound := pouring.surveyed.sound
  have child : branch ∈ (first.ledger.record container).children :=
    Record.mem_children.mpr (.inr (.inr (.inr (.inr (.inl pouring.held)))))
  have child' : property ∈ (first.ledger.record branch).children := Record.mem_children.mpr (.inl owned)
  have above := (sound.forest.inside container branch child).1
  have above' := (sound.forest.inside branch property child').1
  intro below
  rcases apart with late | (rfl | rfl | inside) | ⟨inside, different⟩
  · exact absurd ((sound.closed_inside child').present id below) (Nat.not_lt.mpr late)
  · -- The container and the branch both come before what lies inside the property.
    have behind := sound.le_of_mem_scope below
    omega
  · have behind := sound.le_of_mem_scope below
    omega
  · -- A property of the container is another child of it than the branch.
    have nodup := sound.forest.nodup container
    simp only [Record.children, List.nodup_append] at nodup
    have different : id ≠ branch := nodup.1.2.2 id (by simp [inside]) branch pouring.held
    exact sound.not_mem_scope_of_child child (Record.mem_children.mpr (.inl inside)) different
      (Ledger.scope_subset child' below)
  · -- Another property of the branch is another child of it.
    exact sound.not_mem_scope_of_child child' (Record.mem_children.mpr (.inl inside)) different below

/-- The container and its properties, and the branch, were surveyed. -/
theorem surveyed_source (pouring : Pouring context first site floor container branch variant made)
    (source : IsSource first container branch id) : id.index < first.ledger.size := by
  have forest := pouring.surveyed.sound.forest
  rcases source with rfl | rfl | inside
  · exact (pouring.surveyed.closed_scope pouring.declared).present _ pouring.member
  · exact (forest.inside container _
      (Record.mem_children.mpr (.inr (.inr (.inr (.inr (.inl pouring.held))))))).2
  · exact (forest.inside container id (Record.mem_children.mpr (.inl inside))).2

/-- So were the properties of the branch. -/
theorem surveyed_property (pouring : Pouring context first site floor container branch variant made)
    (owned : property ∈ (first.ledger.record branch).properties) :
    property.index < first.ledger.size :=
  (pouring.surveyed.sound.forest.inside branch property (Record.mem_children.mpr (.inl owned))).2

/-- A property of the branch that comes behind others has another name than these. -/
theorem fresh (pouring : Pouring context first site floor container branch variant made) {other : RecordId}
    (split : done ++ property :: rest = (first.ledger.record branch).properties)
    (member : other ∈ done) : first.ledger.name other ≠ first.ledger.name property := by
  have nodup := pouring.surveyed.sound.named.nodup branch
  rw [Ledger.names, ← split, List.map_append, List.nodup_append] at nodup
  exact nodup.2.2 _ (List.mem_map_of_mem member) _ (by simp)

/-- The variant and its copies are later. -/
theorem late_of (pouring : Pouring context first site floor container branch variant made)
    (own : id = variant ∨ id ∈ (made.ledger.record variant).properties) :
    first.ledger.size ≤ id.index := by
  rcases own with rfl | copy
  · exact Nat.le_trans pouring.low pouring.late
  · exact Nat.le_trans pouring.low (pouring.copies id copy).1

/-- All of them are there. -/
theorem present_of (pouring : Pouring context first site floor container branch variant made)
    (own : id = variant ∨ id ∈ (made.ledger.record variant).properties) : id ∈ made.everywhere := by
  rcases own with rfl | copy
  · exact pouring.whole.present
  · exact pouring.enclosed variant id (Record.mem_children.mpr (.inl copy))

/-- The copies have different names. -/
theorem copy_eq (pouring : Pouring context first site floor container branch variant made)
    {copy other : RecordId} (member : copy ∈ (made.ledger.record variant).properties)
    (member' : other ∈ (made.ledger.record variant).properties)
    (same : made.ledger.name other = made.ledger.name copy) : other = copy :=
  List.inj_on_of_nodup_map (pouring.named.nodup variant) member' member same

end Pouring

namespace Poured

/-- A variant before it has taken in any property. -/
theorem start : Poured first container branch variant made [] made where
  record := by simp [Ledger.lacking]
  copies _ _ := rfl
  matched _ _ _ member := absurd member List.not_mem_nil
  lone _ _ _ := rfl
  kept _ _ := ⟨rfl, rfl⟩

/-- What was taken in stays so while all that it depends on is left as it is. -/
theorem congr (poured : Poured first container branch variant made done model)
    (same : ∀ id, id = variant ∨ id ∈ (made.ledger.record variant).properties ∨ id ∈ done ∨
      IsSource first container branch id →
      last.ledger.record id = model.ledger.record id ∧ last.ledger.checks id = model.ledger.checks id) :
    Poured first container branch variant made done last where
  record := (same variant (.inl rfl)).1.trans poured.record
  copies copy member := (same copy (.inr (.inl member))).1.trans (poured.copies copy member)
  matched copy member property joined named := by
    -- Checks are compared between records that are both left as they are.
    rw [(same copy (.inr (.inl member))).2, (same property (.inr (.inr (.inl joined)))).2]
    exact poured.matched copy member property joined named
  lone copy member free :=
    (same copy (.inr (.inl member))).2.trans (poured.lone copy member free)
  kept id source := by
    have kept := poured.kept id source
    have same := same id (.inr (.inr (.inr source)))
    exact ⟨same.1.trans kept.1, same.2.trans kept.2⟩

/-- A property that the container has too adds its checks to those of the copy. -/
theorem extend {copy : RecordId} (poured : Poured first container branch variant made done model)
    (member : copy ∈ (made.ledger.record variant).properties)
    (named : first.ledger.name property = made.ledger.name copy)
    (known : first.ledger.name property ∈ first.ledger.names container)
    (fresh : ∀ other ∈ done, first.ledger.name other ≠ first.ledger.name property)
    (single : ∀ other ∈ (made.ledger.record variant).properties,
      made.ledger.name other = made.ledger.name copy → other = copy)
    (inRange : (model.ledger.record copy).checks.index < model.ledger.checkSets.size)
    (apart : ∀ id, id ≠ copy → id ∈ (made.ledger.record variant).properties ∨ id ∈ done ++ [property] ∨
      IsSource first container branch id →
      (model.ledger.record id).checks ≠ (model.ledger.record copy).checks)
    (others : copy ∉ done ++ [property] ∧ ¬IsSource first container branch copy) :
    Poured first container branch variant made (done ++ [property])
      (model.withLedger
        (model.ledger.updateChecks copy (·.extend (model.ledger.checks property)))) := by
  have self : (model.ledger.updateChecks copy (·.extend (model.ledger.checks property))).checks copy =
      (model.ledger.checks copy).extend (model.ledger.checks property) := by
    rw [Ledger.checks_updateChecks, if_pos ⟨rfl, inRange⟩]
  -- All other records own other sets of checks.
  have other {id : RecordId} (different : id ≠ copy)
      (listed : id ∈ (made.ledger.record variant).properties ∨ id ∈ done ++ [property] ∨
        IsSource first container branch id) :
      (model.ledger.updateChecks copy (·.extend (model.ledger.checks property))).checks id =
        model.ledger.checks id := by
    rw [Ledger.checks_updateChecks, if_neg]
    exact fun shared => apart id different listed shared.1
  have joined {id : RecordId} (listed : id ∈ done ++ [property]) : id ≠ copy := by
    rintro rfl
    exact others.1 listed
  -- The variant itself does not change, and of its copies only this one.
  refine ⟨?_, poured.copies, fun target member' source joined' same => ?_, fun target member' free => ?_,
    fun id source => ⟨(poured.kept id source).1, ?_⟩⟩
  · -- A known name is lacking nowhere, so the list of the variant is the same.
    rw [Model.ledger_withLedger]
    show model.ledger.record variant = _
    rw [poured.record, Ledger.lacking, Ledger.lacking, List.filter_append,
      List.filter_cons_of_neg (by simpa using known), List.filter_nil, List.append_nil]
  · -- A property that has joined keeps its checks, and so does any other copy.
    rw [Model.ledger_withLedger, other (joined joined') (.inr (.inl joined'))]
    by_cases here : target = copy
    · subst here
      -- Only the new property has the name of the copy.
      rcases List.mem_append.mp joined' with earlier | new
      · exact absurd (same.trans named.symm) (fresh source earlier)
      · rw [self, List.mem_singleton.mp new, poured.lone target member fun before listed =>
          named ▸ fresh before listed]
    · rw [other here (.inl member')]
      rcases List.mem_append.mp joined' with earlier | new
      · exact poured.matched target member' source earlier same
      · rw [List.mem_singleton.mp new, named] at same
        exact absurd (single target member' same.symm) here
  · -- A copy that no name matches is not the one with the name of the property.
    have here : target ≠ copy := by
      rintro rfl
      exact free property (by simp) named
    rw [Model.ledger_withLedger, other here (.inl member')]
    exact poured.lone target member' fun before listed => free before (List.mem_append_left _ listed)
  · -- The container and the branch do not share the set of the copy.
    rw [Model.ledger_withLedger, other _ (.inr (.inr source))]
    · exact (poured.kept id source).2
    · rintro rfl
      exact others.2 source

/-- A property that the container lacks joins the variant itself. -/
theorem gain (poured : Poured first container branch variant made done model)
    (present : variant ∈ model.everywhere)
    (unknown : first.ledger.name property ∉ first.ledger.names container)
    (names : made.ledger.names variant = first.ledger.names container)
    (apart : variant ∉ (made.ledger.record variant).properties ∧ ¬IsSource first container branch variant) :
    Poured first container branch variant made (done ++ [property])
      (model.updateRecord variant fun record =>
        { record with properties := record.properties ++ [property] }) := by
  have checks {id : RecordId} : (model.updateRecord variant fun record =>
      { record with properties := record.properties ++ [property] }).ledger.checks id =
        model.ledger.checks id := Ledger.checks_update rfl
  refine ⟨?_, fun copy member => ?_, fun copy member source joined same => ?_, fun copy member free => ?_,
    fun id source => ⟨?_, checks.trans (poured.kept id source).2⟩⟩
  · -- The variant has its own properties, those taken in before and the new one.
    rw [Model.ledger_updateRecord, Ledger.record_update_self present, poured.record]
    simp [Ledger.lacking, List.filter_append, unknown]
  · rw [Model.ledger_updateRecord, Ledger.record_update_of_ne]
    · exact poured.copies copy member
    · rintro rfl
      exact apart.1 member
  · rw [checks, checks]
    rcases List.mem_append.mp joined with earlier | new
    · exact poured.matched copy member source earlier same
    · -- The container has the names of all copies.
      rw [List.mem_singleton.mp new] at same
      refine absurd ?_ unknown
      rw [same, ← names]
      exact List.mem_map_of_mem member
  · -- Checks are those of before, so a copy without a match has the ones that it was made with.
    exact checks.trans (poured.lone copy member fun before listed =>
      free before (List.mem_append_left _ listed))
  · rw [Model.ledger_updateRecord, Ledger.record_update_of_ne]
    · exact (poured.kept id source).1
    · rintro rfl
      exact apart.2 source

/-- The analysis of a property of the branch touches neither what is in the variant by now nor what that
comes from. -/
theorem analyse (poured : Poured first container branch variant made done model)
    (pouring : Pouring context first site floor container branch variant made)
    (split : done ++ property :: rest = (first.ledger.record branch).properties)
    (there : made.ledger.size ≤ model.ledger.size)
    (left : ∀ id ∈ model.everywhere, id ∉ first.ledger.scope property →
      last.ledger.record id = model.ledger.record id ∧ last.ledger.checks id = model.ledger.checks id) :
    Poured first container branch variant made done last := by
  have owned : property ∈ (first.ledger.record branch).properties := by simp [← split]
  have surveyed {id : RecordId} (old : id.index < first.ledger.size) : id ∈ model.everywhere :=
    Nat.lt_of_lt_of_le old (Nat.le_trans pouring.ledger.size_le there)
  refine poured.congr fun id relevant => ?_
  -- Four kinds of records matter, and each lies outside of the property that is analysed.
  rcases relevant with own | copy | joined | source
  · exact left id (Nat.lt_of_lt_of_le (pouring.present_of (.inl own)) there)
      (pouring.outside owned (.inl (pouring.late_of (.inl own))))
  · exact left id (Nat.lt_of_lt_of_le (pouring.present_of (.inr copy)) there)
      (pouring.outside owned (.inl (pouring.late_of (.inr copy))))
  · have earlier : id ∈ (first.ledger.record branch).properties := by simp [← split, joined]
    refine left id (surveyed (pouring.surveyed_property earlier))
      -- It is another property than the one analysed, because no property comes twice.
      (pouring.outside owned (.inr (.inr ⟨earlier, ?_⟩)))
    rintro rfl
    exact pouring.fresh split joined rfl
  · exact left id (surveyed (pouring.surveyed_source source)) (pouring.outside owned (.inr (.inl source)))

/-- A property of the variant with the name of the next one of the branch is a copy. -/
theorem copy_of_name {copy : RecordId} (poured : Poured first container branch variant made done model)
    (pouring : Pouring context first site floor container branch variant made)
    (split : done ++ property :: rest = (first.ledger.record branch).properties)
    (settles : first.ledger.Settles model.ledger)
    (member : copy ∈ (model.ledger.record variant).properties)
    (named : model.ledger.name copy = first.ledger.name property) :
    copy ∈ (made.ledger.record variant).properties ∧
      made.ledger.name copy = first.ledger.name property := by
  rw [poured.record] at member
  -- The property was copied for the variant or has come from the branch.
  rcases List.mem_append.mp member with copied | lacking
  · refine ⟨copied, ?_⟩
    rw [← named, Ledger.name, Ledger.name, poured.copies copy copied]
  · -- Those of the branch that are there have other names.
    have joined := (List.mem_filter.mp lacking).1
    have earlier : copy ∈ (first.ledger.record branch).properties := by simp [← split, joined]
    have inside := pouring.surveyed_property earlier
    exact absurd ((settles.record copy inside).name_eq.symm.trans named) (pouring.fresh split joined)

/-- The next property of the branch adds its checks to those of a copy with its name. -/
theorem match_copy {copy : RecordId} (poured : Poured first container branch variant made done model)
    (pouring : Pouring context first site floor container branch variant made)
    (split : done ++ property :: rest = (first.ledger.record branch).properties)
    (there : made.ledger.size ≤ model.ledger.size) (sole : model.ledger.Sole first.ledger.size)
    (member : copy ∈ (made.ledger.record variant).properties)
    (named : made.ledger.name copy = first.ledger.name property) :
    Poured first container branch variant made (done ++ [property])
      (model.withLedger
        (model.ledger.updateChecks copy (·.extend (model.ledger.checks property)))) := by
  have late := pouring.late_of (.inr member)
  -- What came late is a copy; all that joins and all sources are of the survey.
  have present {id : RecordId} (own : id ∈ (made.ledger.record variant).properties) :
      id.index < model.ledger.size := Nat.lt_of_lt_of_le (pouring.present_of (.inr own)) there
  have old {id : RecordId} (listed : id ∈ done ++ [property] ∨ IsSource first container branch id) :
      id.index < first.ledger.size := by
    rcases listed with joined | source
    · refine pouring.surveyed_property ?_
      rw [← split, ← List.singleton_append, ← List.append_assoc]
      exact List.mem_append_left _ joined
    · exact pouring.surveyed_source source
  refine poured.extend member named.symm ?_ (fun other joined => pouring.fresh split joined)
    (fun other listed same => pouring.copy_eq member listed same) (sole.inRange copy (present member))
    (fun id different listed shared => ?_)
    ⟨fun joined => absurd (old (.inl joined)) (Nat.not_lt.mpr late),
      fun source => absurd (old (.inr source)) (Nat.not_lt.mpr late)⟩
  · -- The name is one of the container, since the copies have its names.
    rw [← pouring.names, ← named]
    exact List.mem_map_of_mem member
  · -- The copy has its set of checks to itself.
    refine different (sole.alone copy id late (present member) ?_ shared.symm).symm
    rcases listed with copied | surveyed
    · exact present copied
    · exact Nat.lt_of_lt_of_le (old surveyed) (Nat.le_trans pouring.ledger.size_le there)

/-- The next property of the branch joins a variant that lacks its name. -/
theorem take_over {name : String} (poured : Poured first container branch variant made done model)
    (pouring : Pouring context first site floor container branch variant made)
    (there : made.ledger.size ≤ model.ledger.size)
    (called : first.ledger.name property = some name)
    (absent : model.ledger.property? variant name = none) :
    Poured first container branch variant made (done ++ [property])
      (model.updateRecord variant fun record =>
        { record with properties := record.properties ++ [property] }) := by
  refine poured.gain (Nat.lt_of_lt_of_le (pouring.present_of (.inl rfl)) there)
    (fun known => Ledger.not_mem_names absent ?_) pouring.names
    ⟨fun member => (pouring.copies variant member).2 rfl, fun source => ?_⟩
  · -- If the container had the name, so would a copy.
    rw [called, ← pouring.names] at known
    obtain ⟨copy, member, named⟩ := List.mem_map.mp known
    refine List.mem_map.mpr ⟨copy, ?_, (congrArg Record.name (poured.copies copy member)).trans named⟩
    rw [poured.record]
    exact List.mem_append_left _ member
  · -- A variant joins late, which no source does.
    exact absurd (pouring.surveyed_source source) (Nat.not_lt.mpr (pouring.late_of (.inl rfl)))

/-- One property of a branch more joins the variant. -/
theorem join (poured : Poured first container branch variant made done model)
    (pouring : Pouring context first site floor container branch variant made)
    (round : Round context first site.owner floor made model)
    (sole : model.ledger.Sole first.ledger.size)
    (split : done ++ property :: rest = (first.ledger.record branch).properties) :
    Ends (joinProperty context site variant property) model
      (fun _ last => Poured first container branch variant made (done ++ [property]) last)
      (fun _ => True) := by
  have sound := pouring.surveyed.sound
  have filling : Filling context first site floor variant model := Course.ready round pouring.toFilling
  have owned : property ∈ (first.ledger.record branch).properties := by simp [← split]
  have inside : property ∈ first.inBranches site.owner :=
    Model.scope_subset_inBranches pouring.inBranches (Ledger.mem_scope_of_property owned)
  have positive := sound.negationOf_eq_none (.inl (.inl owned))
  -- Properties of a survey have names.
  obtain ⟨name, called⟩ : ∃ name, first.ledger.name property = some name :=
    Option.ne_none_iff_exists'.mp fun absent => sound.named.named branch
      (List.mem_map.mpr ⟨property, owned, absent⟩)
  have given : (model.ledger.record property).name.getD "" = name := by
    have settles := filling.ledger.record property (pouring.surveyed_property owned)
    rw [settles.name_eq.trans called]
    rfl
  simp only [joinProperty, ends_bind, ends_record, ends_ledger, given]
  -- The analysis leaves what is outside of the property alone and keeps sets apart.
  have analysed := ((filling.analyseAny inside filling.placed positive (.property name)).and
    (leaves_analyseAny filling.toResolving sole inside filling.placed positive (.property name))).and
    (ends_sole (fun _ => labours_analyseAny) sole)
  refine analysed.imp (fun _ middle done' => ?_) fun _ _ => trivial
  obtain ⟨⟨⟨round', -⟩, left⟩, sole'⟩ := done'
  have settles : first.ledger.Settles middle.ledger :=
    (Course.ready round' filling : Filling context first site floor variant middle).ledger
  have there : made.ledger.size ≤ middle.ledger.size :=
    Nat.le_trans round.onward.size_le round'.onward.size_le
  have poured' := poured.analyse pouring split round.onward.size_le left
  -- The variant has a property of this name, or the property itself joins.
  split
  · rename_i copy found
    have named := List.find?_some found
    replace named : middle.ledger.name copy = some name := beq_iff_eq.mp named
    obtain ⟨member, same⟩ := poured'.copy_of_name pouring split settles (List.mem_of_find?_eq_some found)
      (named.trans called.symm)
    rw [ends_survey, ends_modify]
    exact poured'.match_copy pouring split there sole' member same
  · rename_i absent
    rw [ends_updateRecord]
    exact poured'.take_over pouring there called absent

end Poured

/-- The moments between two properties of a branch, with those that have still to join the variant. -/
structure Amid (context : Context) (first : Model) (site : Site) (floor : Nat)
    (container branch variant : RecordId) (made : Model) (left : List RecordId) (model : Model) : Prop where
  round : Round context first site.owner floor made model
  sole : model.ledger.Sole first.ledger.size
  poured : ∃ done, done ++ left = (first.ledger.record branch).properties ∧
    Poured first container branch variant made done model

/-- All properties of a branch join the variant. -/
theorem ends_joinProperties
    (pouring : Pouring context first site floor container branch variant made) :
    Ends ((made.ledger.record branch).properties.forM (joinProperty context site variant)) made
      (fun _ last => Amid context first site floor container branch variant made [] last)
      (fun _ => True) := by
  have old := pouring.surveyed_source (.inr (.inl rfl))
  -- The branch still has the properties that it was surveyed with.
  rw [(pouring.ledger.record branch old).properties_eq]
  refine Ends.forM_rest (Amid context first site floor container branch variant made)
    ⟨.refl made, pouring.sole, [], rfl, .start⟩ fun property rest model amid => ?_
  obtain ⟨round, sole, done, split, poured⟩ := amid
  have owned : property ∈ (first.ledger.record branch).properties := by simp [← split]
  have inside : property ∈ first.inBranches site.owner :=
    Model.scope_subset_inBranches pouring.inBranches (Ledger.mem_scope_of_property owned)
  -- The variant is in place behind every round.
  have filling : Filling context first site floor variant model := Course.ready round pouring.toFilling
  have joined := ((takes_joinProperty inside owned model filling).and
    (ends_sole (fun _ => labours_joinProperty) sole)).and (poured.join pouring round sole split)
  refine joined.imp (fun _ last done' => ?_) fun _ _ => trivial
  exact ⟨round.trans done'.1.1, done'.1.2, done ++ [property], by simpa using split, done'.2⟩

/-- The names that a branch requires join those of the variant, behind them. -/
theorem ends_joinRequired_required {names already : List String} (present : variant ∈ made.everywhere) :
    Ends (names.forM (joinRequired variant already)) made
      (fun _ last => (last.ledger.record variant).required =
        names.foldl addNew (made.ledger.record variant).required)
      (fun _ => True) := by
  -- One name after the other, so that the list grows from round to round.
  induction names generalizing made with
  | nil => exact rfl
  | cons name rest ih =>
    have requires (model : Model) (there : variant ∈ model.everywhere)
        (same : (model.ledger.record variant).required = (made.ledger.record variant).required) :
        Ends (rest.forM (joinRequired variant already)) (model.updateRecord variant (·.addRequired name))
          (fun _ last => (last.ledger.record variant).required =
            rest.foldl addNew (addNew (made.ledger.record variant).required name))
          (fun _ => True) := by
      -- The record of the variant is there, and only its list of names grows.
      refine (ih (?_ : variant.index < _)).mono fun _ last joined => ?_
      · rw [Model.ledger_updateRecord, Ledger.size_update]
        exact there
      · rw [joined, Model.ledger_updateRecord, Ledger.record_update_self there, ← same]
        rfl
    rw [List.forM, ends_bind]
    simp only [joinRequired]
    split
    · rw [ends_bind, ends_ledger]
      split
      · rw [ends_bind, ends_updateRecord, ends_updateRecord]
        -- Clearing a property changes none of the lists of names.
        refine requires _ ?_ (Ledger.field_update Record.required rfl)
        exact Nat.lt_of_lt_of_eq present Ledger.size_update.symm
      · rw [ends_updateRecord]
        exact requires _ present rfl
    · -- A name that was required before just joins the list again.
      rw [ends_updateRecord]
      exact requires _ present rfl

/-- What planning the checks of a variant and then reconciling its properties does. -/
structure ClosesVariant (variant : RecordId) (before after : Model) : Prop where
  /-- What neither a plan nor required names decide is left as it is. -/
  field : ∀ {α : Type} (field : Record → α),
    (∀ (record : Record) patternProperties mapBacked isRequired nullable,
      field { record with patternProperties, mapBacked, isRequired, nullable } = field record) →
    ∀ id, field (after.ledger.record id) = field (before.ledger.record id)
  aside : ∀ id, id ≠ variant →
    after.ledger.record id = before.ledger.record id ∨
      id ∈ (before.ledger.record variant).properties ∧ after.ledger.record id =
        (before.ledger.record id).reconciled (before.ledger.record variant).required
  checks : ∀ id, (before.ledger.record id).checks ≠ (before.ledger.record variant).checks →
    after.ledger.checks id = before.ledger.checks id

/-- Sets of checks that stay as they are, for a record that keeps its own. -/
theorem checks_of_sets {before after : Ledger} (sets : after.checkSets = before.checkSets)
    (same : (after.record id).checks = (before.record id).checks) :
    after.checks id = before.checks id := by
  rw [Ledger.checks, Ledger.checks, sets, same]

/-- The checks of a variant are planned, and its properties are reconciled. -/
theorem closes_variant {owner : DeclarationId} :
    Ends (do
        plan context owner variant .object
        reconcileRequired variant) made
      (fun _ last => ClosesVariant variant made last) (fun _ => True) := by
  simp only [ends_bind, plan, ends_modify, reconcileRequired, ends_record]
  generalize planned : made.plan context owner variant .object = model
  have field {α : Type} (field : Record → α) (blind : ∀ (record : Record) patterns backed,
      field { record with patternProperties := patterns, mapBacked := backed } = field record)
      (id : RecordId) : field (model.ledger.record id) = field (made.ledger.record id) := by
    rw [← planned]
    exact Model.field_plan field blind
  -- The plan is for the variant alone, and only its properties are reconciled.
  have aside {id : RecordId} (apart : id ≠ variant) : model.ledger.record id = made.ledger.record id := by
    rw [← planned, Model.record_plan, if_neg fun both => apart both.1]
  rw [field Record.properties (fun _ _ _ => rfl), field Record.required (fun _ _ _ => rfl)]
  refine ends_reconcileAll.imp (fun _ last reconciled => ?_) fun _ _ => trivial
  obtain ⟨-, -, sets, records⟩ := reconciled
  -- The parts that neither plan nor reconciliation writes are as they were made.
  refine ⟨fun part blind id => ?_, fun id apart => ?_, fun id different => ?_⟩
  · refine Eq.trans ?_ (field part (fun record patterns backed => blind record patterns backed _ _) id)
    rw [records id]
    split
    · rw [Record.reconciled_eq]
      exact blind (model.ledger.record id) _ _ _ _
    · rfl
  · rw [records id, aside apart]
    split
    · rename_i listed
      exact .inr ⟨listed.1, rfl⟩
    · exact .inl rfl
  · -- A reconciliation leaves the set of a record, so that only the plan matters for its checks.
    have own : (last.ledger.record id).checks = (model.ledger.record id).checks := by
      rw [records id]
      split
      · rw [Record.reconciled_eq]
      · rfl
    rw [checks_of_sets sets own, ← planned, Model.checks_plan, if_neg fun both => different both.1]

/-- What the end of a variant does to a model in which its properties are settled. -/
structure Rounded (variant : RecordId) (names : List String) (before after : Model) : Prop where
  properties : (after.ledger.record variant).properties = (before.ledger.record variant).properties
  required : (after.ledger.record variant).required =
    names.foldl addNew (before.ledger.record variant).required
  record : ∀ id, id ≠ variant → after.ledger.record id =
    { before.ledger.record id with
      nullable := (after.ledger.record id).nullable
      isRequired := (after.ledger.record id).isRequired }
  kept : ∀ id, id ≠ variant → id ∉ (before.ledger.record variant).properties →
    after.ledger.record id = before.ledger.record id
  checks : ∀ id ∈ before.everywhere, id ≠ variant →
    after.ledger.checks id = before.ledger.checks id

/-- Required names join a variant, its own checks are planned, and its properties are reconciled. -/
theorem ends_roundVariant {names already : List String} {owner : DeclarationId} {bound : Nat}
    (sole : made.ledger.Sole bound) (late : bound ≤ variant.index) (present : variant ∈ made.everywhere) :
    Ends (do
        names.forM (joinRequired variant already)
        plan context owner variant .object
        reconcileRequired variant) made
      (fun _ last => Rounded variant names made last) (fun _ => True) := by
  rw [ends_bind]
  -- After the names have joined, only the closing is left.
  refine (ends_joinRequired.and (ends_joinRequired_required present)).imp (fun _ joined done => ?_)
    fun _ _ => trivial
  obtain ⟨⟨-, joins⟩, required⟩ := done
  -- Joining leaves all sets of checks, and the records their own.
  have shared (id : RecordId) : (joined.ledger.record id).checks = (made.ledger.record id).checks := by
    rw [joins.record id]
  have properties :
      (joined.ledger.record variant).properties = (made.ledger.record variant).properties := by
    rw [joins.record variant]
  refine closes_variant.mono fun _ last closed => ⟨?_, ?_, fun id apart => ?_, fun id apart free => ?_,
    fun id there apart => ?_⟩
  · rw [closed.field Record.properties fun _ _ _ _ _ => rfl, properties]
  · rw [closed.field Record.required fun _ _ _ _ _ => rfl, required]
  · -- Another record is as it was or reconciled, which are both changes of flags only.
    rcases closed.aside id apart with same | ⟨-, same⟩
    · rw [same, joins.record id, joins.listed id apart]
    · rw [same, Record.reconciled_eq, joins.record id, joins.listed id apart]
  · rcases closed.aside id apart with same | ⟨held, -⟩
    · rw [same, joins.record id, joins.listed id apart, joins.nullable id free]
    · -- A property of the variant is not free.
      exact absurd (properties ▸ held) free
  · rw [closed.checks id, checks_of_sets joins.sets (shared id)]
    rw [shared, shared]
    -- The variant has its set to itself, and hence the plan does not show in others.
    exact fun same => apart (sole.alone variant id late present there same.symm).symm

/-- A variant that has taken in all that its branch has. -/
structure Merged (first : Model) (container branch variant : RecordId) (made last : Model) : Prop where
  properties : (last.ledger.record variant).properties =
    (made.ledger.record variant).properties ++
      first.ledger.lacking container (first.ledger.record branch).properties
  required : (last.ledger.record variant).required =
    (made.ledger.record branch).required.foldl addNew (made.ledger.record variant).required
  copies : ∀ copy ∈ (made.ledger.record variant).properties, last.ledger.record copy =
    { made.ledger.record copy with
      nullable := (last.ledger.record copy).nullable
      isRequired := (last.ledger.record copy).isRequired }
  matched : ∀ copy ∈ (made.ledger.record variant).properties,
    ∀ property ∈ (first.ledger.record branch).properties,
    first.ledger.name property = made.ledger.name copy →
    last.ledger.checks copy = (made.ledger.checks copy).extend (last.ledger.checks property)
  lone : ∀ copy ∈ (made.ledger.record variant).properties,
    (∀ property ∈ (first.ledger.record branch).properties,
      first.ledger.name property ≠ made.ledger.name copy) →
    last.ledger.checks copy = made.ledger.checks copy
  kept : ∀ id, IsSource first container branch id →
    last.ledger.record id = made.ledger.record id ∧ last.ledger.checks id = made.ledger.checks id

/-- A variant takes in all that its branch has. -/
theorem ends_fillVariant_merged
    (pouring : Pouring context first site floor container branch variant made) :
    Ends (fillVariant context site container branch variant) made
      (fun _ last => Merged first container branch variant made last) (fun _ => True) := by
  simp only [fillVariant, ends_bind, ends_record]
  refine (ends_joinProperties pouring).imp (fun _ joined amid => ?_) fun _ _ => trivial
  obtain ⟨round, sole, done, all, poured⟩ := amid
  rw [List.append_nil] at all
  subst all
  -- Records that were there when the variant was made are there when its properties have joined.
  have later {id : RecordId} (there : id ∈ made.everywhere) : id ∈ joined.everywhere :=
    Nat.lt_of_lt_of_le there round.onward.size_le
  have own := pouring.present_of (.inl rfl)
  have late := pouring.late_of (.inl rfl)
  suffices merges : ∀ last, Rounded variant (joined.ledger.record branch).required joined last →
      Merged first container branch variant made last by
    have closes := (@ends_roundVariant context joined variant (joined.ledger.record branch).required
      (joined.ledger.record container).required site.owner first.ledger.size sole late (later own)).mono
      fun _ last rounded => merges last rounded
    simp only [ends_bind] at closes
    exact closes
  intro last rounded
  -- What was surveyed is not the variant, and neither are copies.
  have old {id : RecordId} (inside : id.index < first.ledger.size) : id ≠ variant := by
    rintro rfl
    exact absurd inside (Nat.not_lt.mpr late)
  have copied {copy : RecordId} (member : copy ∈ (made.ledger.record variant).properties) :
      last.ledger.checks copy = joined.ledger.checks copy :=
    rounded.checks copy (later (pouring.present_of (.inr member))) (pouring.copies copy member).2
  have kept {id : RecordId} (inside : id.index < first.ledger.size) :
      last.ledger.checks id = joined.ledger.checks id :=
    rounded.checks id (later (Nat.lt_of_lt_of_le inside pouring.ledger.size_le)) (old inside)
  refine ⟨?_, ?_, fun copy member => ?_, fun copy member property owned same => ?_,
    fun copy member free => ?_, fun id source => ⟨?_, ?_⟩⟩
  · -- Of the variant, only the names required have changed since.
    rw [rounded.properties, poured.record]
  · rw [rounded.required, poured.record, (poured.kept branch (.inr (.inl rfl))).1]
  · rw [rounded.record copy (pouring.copies copy member).2, poured.copies copy member]
  · -- Checks of copies are those at which the properties were taken in.
    rw [copied member, kept (pouring.surveyed_property owned)]
    exact poured.matched copy member property owned same
  · rw [copied member]
    exact poured.lone copy member free
  · have inside := pouring.surveyed_source source
    rw [rounded.kept id (old inside), (poured.kept id source).1]
    -- A source is no copy, and no property of the branch either.
    rw [poured.record]
    refine fun member => (List.mem_append.mp member).elim (fun copy => ?_) fun lacking => ?_
    · exact absurd inside (Nat.not_lt.mpr (pouring.late_of (.inr copy)))
    · exact pouring.outside (List.mem_filter.mp lacking).1 (.inr (.inl source)) Ledger.mem_scope_self
  · rw [kept (pouring.surveyed_source source)]
    exact (poured.kept id source).2

end Modelling

/-- The record of a variant is the first one that its synthesis makes. -/
def Synthesis.variant (synthesis : Synthesis) : RecordId := ⟨synthesis.before.ledger.size⟩

/-- A variant that merges its container and its branch, and leaves the container alone. -/
structure Synthesis.Merges (synthesis : Synthesis) : Prop where
  /-- The class of the variant comes behind those that were nested before, inside that of the container. -/
  nested : ∃ name, (synthesis.after.declaration synthesis.site.owner).nested[
      (synthesis.before.declaration synthesis.site.owner).nested.size]? =
    some { name, parent := synthesis.site.scope, kind := .concrete, record := synthesis.variant
           origin := (synthesis.before.ledger.record synthesis.branch).schema, target := none
           interfaces := [synthesis.site.ref], isVariant := true }
  names : synthesis.after.ledger.names synthesis.variant =
    synthesis.before.ledger.names synthesis.container ++
      (synthesis.before.ledger.names synthesis.branch).filter
        (· ∉ synthesis.before.ledger.names synthesis.container)
  distinct : (synthesis.after.ledger.names synthesis.variant).Nodup
  required : (synthesis.after.ledger.record synthesis.variant).required =
    (synthesis.before.ledger.record synthesis.container).required ++
      ((synthesis.before.ledger.record synthesis.branch).required.filter
        (· ∉ (synthesis.before.ledger.record synthesis.container).required)).eraseDups
  /-- A property that the container has is a copy of the container's. -/
  copied : ∀ own ∈ (synthesis.after.ledger.record synthesis.variant).properties,
    ∀ source ∈ (synthesis.before.ledger.record synthesis.container).properties,
    synthesis.after.ledger.name own = synthesis.before.ledger.name source →
    synthesis.after.ledger.record own =
      { synthesis.before.ledger.record source with
        checks := (synthesis.after.ledger.record own).checks
        negation := none
        nullable := (synthesis.after.ledger.record own).nullable
        isRequired := (synthesis.after.ledger.record own).isRequired }
  /-- The copy was made for the variant. -/
  fresh : ∀ own ∈ (synthesis.after.ledger.record synthesis.variant).properties,
    synthesis.after.ledger.name own ∈ synthesis.before.ledger.names synthesis.container →
    synthesis.before.ledger.size < own.index
  /-- On both sides: the checks of the container's property, and those of the branch's that are new. -/
  both : ∀ own ∈ (synthesis.after.ledger.record synthesis.variant).properties,
    ∀ source ∈ (synthesis.before.ledger.record synthesis.container).properties,
    ∀ property ∈ (synthesis.before.ledger.record synthesis.branch).properties,
    synthesis.after.ledger.name own = synthesis.before.ledger.name source →
    synthesis.after.ledger.name own = synthesis.before.ledger.name property →
    (synthesis.after.ledger.checks own).items = (synthesis.before.ledger.checks source).items ++
      ((synthesis.after.ledger.checks property).items.filter
        (· ∉ (synthesis.before.ledger.checks source).items)).eraseDups
  /-- On the side of the container only: the checks of its property. -/
  inherited : ∀ own ∈ (synthesis.after.ledger.record synthesis.variant).properties,
    ∀ source ∈ (synthesis.before.ledger.record synthesis.container).properties,
    synthesis.after.ledger.name own = synthesis.before.ledger.name source →
    synthesis.after.ledger.name own ∉ synthesis.before.ledger.names synthesis.branch →
    synthesis.after.ledger.checks own = synthesis.before.ledger.checks source
  /-- On the side of the branch only: its property itself, and so the same set of checks. -/
  joined : ∀ own ∈ (synthesis.after.ledger.record synthesis.variant).properties,
    synthesis.after.ledger.name own ∉ synthesis.before.ledger.names synthesis.container →
    own ∈ (synthesis.before.ledger.record synthesis.branch).properties
  kept : ∀ id, id = synthesis.container ∨
      id ∈ (synthesis.before.ledger.record synthesis.container).properties →
    synthesis.after.ledger.record id = synthesis.before.ledger.record id ∧
      synthesis.after.ledger.checks id = synthesis.before.ledger.checks id

namespace Modelling

variable {context : Context} {first start made last : Model} {site : Site} {floor : Nat}
variable {container branch variant id : RecordId} {copies : List RecordId}

/-- A variant that has its class and copies of the properties of its container, before it takes in its
branch. -/
structure Drafted (start : Model) (container variant : RecordId) (made : Model) : Prop where
  required : (made.ledger.record variant).required = (start.ledger.record container).required
  names : made.ledger.names variant = start.ledger.names container
  late : ∀ copy ∈ (made.ledger.record variant).properties, start.ledger.size < copy.index
  record : ∀ id ∈ start.everywhere, made.ledger.record id = start.ledger.record id
  checks : ∀ id ∈ start.everywhere, made.ledger.checks id = start.ledger.checks id
  repeats : ∀ copy ∈ (made.ledger.record variant).properties,
    ∃ source ∈ (start.ledger.record container).properties,
      made.ledger.record copy =
        { start.ledger.record source with
          checks := (made.ledger.record copy).checks, negation := none } ∧
      made.ledger.checks copy = start.ledger.checks source

/-- A variant has been drafted when its record is settled on its class. -/
theorem drafted_settled {ledger : Ledger} {origin : Option SchemaId} {typeRef : Option TypeRef}
    {shape : Option Shape} (varies : start.ledger.Varies container origin copies ledger)
    (behind : ∀ copy ∈ copies, start.ledger.size < copy.index) (inRange : start.ledger.InRange)
    (same : made.ledger = ledger.update ⟨start.ledger.size⟩ fun record =>
      { record with typeRef, shape }) :
    (made.ledger.record ⟨start.ledger.size⟩).properties = copies ∧
      Drafted start container ⟨start.ledger.size⟩ made := by
  -- The settlement writes a type and a shape into the record of the variant, and into no other.
  have self : made.ledger.record ⟨start.ledger.size⟩ =
      { ledger.record ⟨start.ledger.size⟩ with typeRef, shape } := by
    rw [same, Ledger.record_update_self varies.variant.present]
  have aside {id : RecordId} (apart : id ≠ ⟨start.ledger.size⟩) :
      made.ledger.record id = ledger.record id := by
    rw [same, Ledger.record_update_of_ne apart]
  have checks (id : RecordId) : made.ledger.checks id = ledger.checks id := by
    rw [same, Ledger.checks_update rfl]
  have properties : (made.ledger.record ⟨start.ledger.size⟩).properties = copies := by
    rw [self, varies.record_variant]
  -- The copies come behind the variant, so settling it leaves them as they were copied.
  have later {copy : RecordId} (member : copy ∈ copies) : copy ≠ ⟨start.ledger.size⟩ := by
    rintro rfl
    exact Nat.lt_irrefl _ (behind _ member)
  refine ⟨properties, ?_, ?_, properties ▸ behind, fun id there => ?_, fun id there => ?_,
    fun copy member => ?_⟩
  · rw [self, varies.record_variant]
  · -- Neither type nor shape is a name.
    rw [← varies.names]
    refine Ledger.names_congr ?_ fun property _ => ?_
    · rw [properties, varies.record_variant]
    · rw [same]
      exact Ledger.field_update Record.name rfl
  · rw [aside (RecordId.ne_next there), varies.record id there]
  · -- Whatever was there has the same set with the same checks.
    rw [checks, varies.checks_eq (congrArg Record.checks (varies.record id there)) (inRange id there)]
  · rw [properties] at member
    obtain ⟨source, held, repeats⟩ := varies.repeats copy member
    refine ⟨source, held, ?_, (checks copy).trans repeats.checks⟩
    rw [aside (later member)]
    exact repeats.record

namespace Merged

/-- A property of the variant is a copy, or a property of the branch whose name the container lacks. -/
theorem cases (merged : Merged first container branch variant made last)
    (member : id ∈ (last.ledger.record variant).properties) :
    id ∈ (made.ledger.record variant).properties ∨
      id ∈ (first.ledger.record branch).properties ∧
        first.ledger.name id ∉ first.ledger.names container := by
  rw [merged.properties] at member
  exact (List.mem_append.mp member).imp_right fun lacking => by
    simpa [Ledger.lacking] using lacking

/-- A copy keeps its name. -/
theorem name_copy (merged : Merged first container branch variant made last)
    (member : id ∈ (made.ledger.record variant).properties) :
    last.ledger.name id = made.ledger.name id := by
  rw [Ledger.name, merged.copies id member]
  rfl

/-- The names of the copies come first, and those of the branch that are new follow. -/
theorem names (merged : Merged first container branch variant made last)
    (settles : ∀ property ∈ (first.ledger.record branch).properties,
      last.ledger.name property = first.ledger.name property) :
    last.ledger.names variant = made.ledger.names variant ++
      (first.ledger.names branch).filter (· ∉ first.ledger.names container) := by
  -- Copies have the names of the container.
  have copies : (made.ledger.record variant).properties.map last.ledger.name =
      made.ledger.names variant := List.map_congr_left fun copy member => merged.name_copy member
  -- What was lacking has the names of the branch that the container has not.
  have lacking : (first.ledger.lacking container (first.ledger.record branch).properties).map
      last.ledger.name = (first.ledger.names branch).filter (· ∉ first.ledger.names container) := by
    show _ = ((first.ledger.record branch).properties.map first.ledger.name).filter _
    rw [List.filter_map, Ledger.lacking]
    exact List.map_congr_left fun property member => settles property (List.mem_filter.mp member).1
  rw [Ledger.names, merged.properties, List.map_append, copies, lacking]

end Merged

/-- A property of the variant with a name of the container is a copy of the container's. -/
theorem Drafted.source_of {own source : RecordId}
    (drafted : Drafted start container variant made)
    (merged : Merged first container branch variant made last)
    (staging : Staging context first site floor container start)
    (settles : ∀ property ∈ (first.ledger.record branch).properties,
      last.ledger.name property = first.ledger.name property)
    (member : own ∈ (last.ledger.record variant).properties)
    (owned : source ∈ (start.ledger.record container).properties)
    (same : last.ledger.name own = start.ledger.name source) :
    own ∈ (made.ledger.record variant).properties ∧ made.ledger.name own = start.ledger.name source ∧
      made.ledger.record own =
        { start.ledger.record source with
          checks := (made.ledger.record own).checks, negation := none } ∧
      made.ledger.checks own = start.ledger.checks source := by
  -- The property is a copy, or it was lacking from the container.
  rcases merged.cases member with copy | ⟨owned', lacking⟩
  · rw [merged.name_copy copy] at same
    obtain ⟨source', owned', record, checks⟩ := drafted.repeats own copy
    have called : made.ledger.name own = start.ledger.name source' := by
      rw [Ledger.name, record]
      rfl
    -- Names of the container are told apart, so both sources are one.
    have one : source' = source := List.inj_on_of_nodup_map (staging.named.nodup container) owned' owned
      (called.symm.trans same)
    exact ⟨copy, same, one ▸ record, one ▸ checks⟩
  · -- A property that the container lacks has no name of the container.
    refine absurd ?_ lacking
    rw [← settles own owned', same, ← staging.names_eq staging.member]
    exact List.mem_map_of_mem owned

/-- A variant that was drafted and took in its branch merges the two. -/
theorem Drafted.merges (drafted : Drafted start container ⟨start.ledger.size⟩ made)
    (merged : Merged first container branch ⟨start.ledger.size⟩ made last)
    (staging : Staging context first site floor container start)
    (held : branch ∈ (start.ledger.record container).oneOf)
    (settles : first.ledger.Settles last.ledger)
    (nested : ∃ name, (last.declaration site.owner).nested[(start.declaration site.owner).nested.size]? =
      some { name, parent := site.scope, kind := .concrete, record := ⟨start.ledger.size⟩
             origin := (start.ledger.record branch).schema, target := none
             interfaces := [site.ref], isVariant := true }) :
    (Synthesis.mk site container branch start last).Merges := by
  obtain ⟨held', below⟩ := staging.branch_of held
  have names := staging.names_eq staging.member
  have names' := staging.names_eq below
  have properties : (start.ledger.record branch).properties = (first.ledger.record branch).properties :=
    (staging.surveyed_of below).1.properties_eq
  -- Properties of the branch have the names that they were surveyed with.
  have named {property : RecordId} (owned : property ∈ (first.ledger.record branch).properties) :
      last.ledger.name property = first.ledger.name property ∧
        start.ledger.name property = first.ledger.name property := by
    have inside := (staging.surveyed.closed_scope staging.declared).present property
      (Ledger.mem_scope_of_child below (Record.mem_children.mpr (.inl owned)))
    exact ⟨(settles.record property inside).name_eq, (staging.ledger.record property inside).name_eq⟩
  have kept : ∀ property ∈ (first.ledger.record branch).properties,
      last.ledger.name property = first.ledger.name property := fun _ owned => (named owned).1
  refine ⟨nested, ?_, ?_, ?_, fun own member source owned same => ?_, fun own member known => ?_,
    fun own member source owned property listed same same' => ?_,
    fun own member source owned same free => ?_, fun own member free => ?_, fun id source => ?_⟩
  · -- The names are those of the container, with the new ones of the branch behind them.
    show last.ledger.names ⟨start.ledger.size⟩ = _
    rw [merged.names kept, drafted.names, names, names']
  · -- They are all different, since a name of the container is not new.
    show (last.ledger.names ⟨start.ledger.size⟩).Nodup
    rw [merged.names kept, drafted.names, ← names, ← names']
    refine List.nodup_append.mpr ⟨staging.named.nodup container, (staging.named.nodup branch).filter _, ?_⟩
    rintro name known _ new rfl
    simp [known] at new
  · -- What both require is listed once.
    show (last.ledger.record ⟨start.ledger.size⟩).required = _
    rw [merged.required, drafted.required, drafted.record branch (staging.surveyed_of below).2,
      foldl_addNew]
    simp
  · obtain ⟨copy, -, record, -⟩ := drafted.source_of merged staging kept member owned same
    show last.ledger.record own = _
    rw [merged.copies own copy, record]
  · obtain ⟨source, owned, same⟩ := List.mem_map.mp known
    exact drafted.late own (drafted.source_of merged staging kept member owned same.symm).1
  · -- A copy with a property of its name has the checks of both.
    obtain ⟨copy, called, -, checks⟩ := drafted.source_of merged staging kept member owned same
    rw [properties] at listed
    have matched := merged.matched own copy property listed ?_
    · show (last.ledger.checks own).items = _
      rw [matched, checks, CheckSet.items_extend]
      simp [CheckSet.contains]
    · rw [← (named listed).2, ← same', same, called]
  · -- Any other copy has the checks of its source.
    obtain ⟨copy, called, -, checks⟩ := drafted.source_of merged staging kept member owned same
    refine (merged.lone own copy fun property listed same' => free ?_).trans checks
    show last.ledger.name own ∈ start.ledger.names branch
    rw [names', merged.name_copy copy, ← same']
    exact List.mem_map_of_mem listed
  · -- A property without a name of the container is none of the copies, hence one of the branch.
    rcases merged.cases member with copy | ⟨owned, -⟩
    · refine absurd ?_ free
      show last.ledger.name own ∈ start.ledger.names container
      rw [merged.name_copy copy, ← drafted.names]
      exact List.mem_map_of_mem copy
    · show own ∈ (start.ledger.record branch).properties
      rw [properties]
      exact owned
  · -- The container and its properties were there, and drafting has not touched them.
    have there : id ∈ start.everywhere := by
      rcases source with rfl | owned
      · exact (staging.surveyed_of staging.member).2
      · exact staging.enclosed container id (Record.mem_children.mpr (.inl owned))
    have same := merged.kept id (source.elim .inl fun owned =>
      .inr (.inr ((staging.surveyed_of staging.member).1.properties_eq ▸ owned)))
    exact ⟨same.1.trans (drafted.record id there), same.2.trans (drafted.checks id there)⟩

namespace Staging

/-- Copies for a variant come behind its record, and all sets of checks behind those of the survey go to
single records. -/
theorem copyForVariant {origin : Option SchemaId}
    (staging : Staging context first site floor container start) :
    Ends (Modelling.copyForVariant container origin) start
      (fun _ last => (∀ copy ∈ (last.ledger.record ⟨start.ledger.size⟩).properties,
        start.ledger.size < copy.index) ∧ last.ledger.Sole first.ledger.size)
      (fun _ => True) := by
  -- The properties of the container are there to be copied.
  have present (property : RecordId) (member : property ∈ (start.ledger.record container).properties) :
      property.index < start.ledger.size :=
    staging.enclosed container property (Record.mem_children.mpr (.inl member))
  have sole : Ends (Modelling.copyForVariant container origin) start
      (fun _ last => last.ledger.Sole first.ledger.size) (fun _ => True) :=
    ends_sole (fun _ => @labours_copyForVariant _ context _ _) staging.sole
  refine (((ends_copyForVariant staging.inRange present).and
    (ends_copyForVariant_behind staging.inRange present)).and sole).imp (fun variant last known => ?_)
      fun _ _ => trivial
  obtain ⟨⟨⟨rfl, -⟩, behind⟩, sole⟩ := known
  exact ⟨behind, sole⟩

/-- A variant that has its class was drafted, and may take in its branch. -/
theorem pouring {ledger : Ledger} {index : Nat} {made : Model}
    (staging : Staging context first site floor container start)
    (held : branch ∈ (start.ledger.record container).oneOf)
    (varies : start.ledger.Varies container (start.ledger.record branch).schema copies ledger)
    (behind : ∀ copy ∈ copies, start.ledger.size < copy.index)
    (sole : ledger.Sole first.ledger.size)
    (same : made.ledger = ledger.update ⟨start.ledger.size⟩ fun record =>
      { record with
        typeRef := some (.generated (.nested site.owner index))
        shape := some (.reference (.generated (.nested site.owner index))) })
    (founded : Founded context site.owner {⟨start.ledger.size⟩} ⟨start.ledger.size⟩
      (start.withLedger ledger) index made) :
    Drafted start container ⟨start.ledger.size⟩ made ∧
      Pouring context first { site with scope := some index } floor container branch
        ⟨start.ledger.size⟩ made := by
  obtain ⟨held', below⟩ := staging.branch_of held
  obtain ⟨properties, drafted⟩ := drafted_settled varies behind staging.inRange same
  -- Where the class was founded the variant can be filled.
  have filling := founded.filling staging.toHosting ⟨branch, (staging.surveyed_of below).2, rfl⟩ varies
  refine ⟨drafted, filling, ?_, staging.member, held', fun copy member => ?_,
    drafted.names.trans (staging.names_eq staging.member)⟩
  · -- Settling a record leaves the sets of checks.
    rw [same]
    exact sole.update rfl
  · rw [properties] at member
    refine ⟨Nat.le_trans staging.high (Nat.le_of_lt (behind copy member)), ?_⟩
    rintro rfl
    exact Nat.lt_irrefl _ (behind _ member)

/-- A variant that is made for a branch is drafted, and takes in the branch. -/
theorem ends_addVariant {done : Model → Prop}
    (staging : Staging context first site floor container start)
    (held : branch ∈ (start.ledger.record container).oneOf)
    (absent : (start.declaration site.owner).findNested? (start.ledger.record branch).schema none = none)
    (fills : ∀ {index : Nat} {made : Model}, Drafted start container ⟨start.ledger.size⟩ made →
      Pouring context first { site with scope := some index } floor container branch
        ⟨start.ledger.size⟩ made →
      (∃ name, (made.declaration site.owner).nested[(start.declaration site.owner).nested.size]? =
        some { name, parent := site.scope, kind := .concrete, record := ⟨start.ledger.size⟩
               origin := (start.ledger.record branch).schema, target := none
               interfaces := [site.ref], isVariant := true }) →
      Ends (fillVariant context { site with scope := some index } container branch ⟨start.ledger.size⟩) made
        (fun _ => done) (fun _ => True)) :
    Ends (Modelling.addVariant context site container branch) start (fun _ => done) (fun _ => True) := by
  simp only [Modelling.addVariant, ends_bind, ends_record, ends_declaration]
  -- No class was found for the branch, so the variant is made.
  rw [if_pos (by simp [absent])]
  exact @ends_foundVariant context first start floor branch container site (fun _ => done)
    (fun variant index =>
      Modelling.fillVariant context { site with scope := some index } container branch variant)
    (fun model => (∀ copy ∈ (model.ledger.record ⟨start.ledger.size⟩).properties,
      start.ledger.size < copy.index) ∧ model.ledger.Sole first.ledger.size)
    staging.toHosting (staging.inBranches held) held absent staging.copyForVariant
    fun copies ledger index middle varies known named founded => by
      obtain ⟨name, rfl⟩ := named
      obtain ⟨behind, sole⟩ := known
      rw [Model.ledger_withLedger, varies.record_variant] at behind
      obtain ⟨drafted, pouring⟩ := staging.pouring held varies behind sole rfl founded
      refine fills drafted pouring ⟨name, ?_⟩
      -- The class of the variant has the next number.
      have declared : site.owner.index < (start.withLedger ledger).declarations.size := by
        rw [Model.declarations_withLedger, staging.declarations]
        exact staging.declared
      rw [Model.declaration_updateRecord, Model.declaration_updateDeclaration, if_pos ⟨rfl, declared⟩]
      exact Array.getElem?_push_size

/-- The variant that is made for a branch merges it with the class. -/
theorem merges (staging : Staging context first site floor container start)
    (held : branch ∈ (start.ledger.record container).oneOf)
    (absent : (start.declaration site.owner).findNested? (start.ledger.record branch).schema none = none) :
    Ends (Modelling.addVariant context site container branch) start
      (fun _ last => (Synthesis.mk site container branch start last).Merges) (fun _ => True) := by
  refine staging.ends_addVariant held absent fun {index made} drafted pouring nested => ?_
  -- Filling the variant is a round of its class.
  have takes := @takes_fillVariant context first floor branch ⟨start.ledger.size⟩ container
    { site with scope := some index } (staging.inBranches held) made pouring.toFilling
  refine (takes.and (ends_fillVariant_merged pouring)).imp (fun _ last filled => ?_) fun _ _ => trivial
  obtain ⟨round, merged⟩ := filled
  have filling : Filling context first { site with scope := some index } floor ⟨start.ledger.size⟩ last :=
    Course.ready round pouring.toFilling
  exact drafted.merges merged staging held filling.ledger
    (nested.imp fun _ => (round.onward.grows site.owner).getElem?_nested)

end Staging

/-- A variant merges container and branch, and leaves the container alone. For every run, the variants of
classes that it makes are those of a run that tells them, each with the models before and after it; and
each of them has the names of the container in order and then those of the branch that the container
lacks, requires what the container requires and then what the branch requires besides, has the checks of
the container's properties with those of the branch's added to them, takes the properties that only the
branch has as they are, and leaves the record of the container, its properties and their checks as they
were. -/
theorem merges_build {roots : List RootSchema} :
    Ends (build context roots) {}
      (fun _ last => ∃ told, synthesizingBuild context roots {} = .ok told last ∧
        ∀ synthesis ∈ told, synthesis.Merges)
      (fun _ => True) :=
  ends_synthesizingBuild fun _ {_ _ _ _ _} staging held absent => staging.merges held absent

end Modelling

end SchemaClasses
