/-! Runs of stateful steps: what holds of a result, and of the state in which a run ends. -/

namespace SchemaClasses

variable {ε σ α β : Type}

/-- A run from a state ends well: `done` holds of its result and its last state, or `failed` of the
state that a fault leaves behind. -/
def Ends (step : EStateM ε σ α) (start : σ) (done : α → σ → Prop) (failed : σ → Prop) : Prop :=
  match step start with
  | .ok result last => done result last
  | .error _ last => failed last

/-- What holds at the end of every run holds of a run that succeeded. -/
theorem Ends.of_ok {step : EStateM ε σ α} {start last : σ} {done : α → σ → Prop}
    {failed : σ → Prop} {result : α} (ends : Ends step start done failed)
    (ran : step start = .ok result last) : done result last := by
  simpa [Ends, ran] using ends

/-- A run that cannot fail succeeds. -/
theorem Ends.exists_ok {step : EStateM ε σ α} {start : σ} {done : α → σ → Prop}
    (ends : Ends step start done fun _ => False) :
    ∃ result last, step.run start = .ok result last ∧ done result last := by
  -- A fault would leave a state of which nothing holds.
  unfold Ends at ends
  split at ends
  · rename_i result last ran
    exact ⟨result, last, ran, ends⟩
  · exact ends.elim

/-- A run may promise less than it keeps. -/
theorem Ends.imp {step : EStateM ε σ α} {start : σ} {done done' : α → σ → Prop}
    {failed failed' : σ → Prop} (ends : Ends step start done failed)
    (weaker : ∀ result last, done result last → done' result last)
    (weaker' : ∀ last, failed last → failed' last) : Ends step start done' failed' := by
  -- The outcome decides which of the two promises is meant.
  unfold Ends at *
  split at ends
  · exact weaker _ _ ends
  · exact weaker' _ ends

/-- A run may promise less of its results. -/
theorem Ends.mono {step : EStateM ε σ α} {start : σ} {done done' : α → σ → Prop}
    {failed : σ → Prop} (ends : Ends step start done failed)
    (weaker : ∀ result last, done result last → done' result last) :
    Ends step start done' failed := ends.imp weaker fun _ failure => failure

/-- A run keeps two promises at once. -/
theorem Ends.and {step : EStateM ε σ α} {start : σ} {done done' : α → σ → Prop}
    {failed failed' : σ → Prop} (ends : Ends step start done failed)
    (ends' : Ends step start done' failed') :
    Ends step start (fun result last => done result last ∧ done' result last)
      (fun last => failed last ∧ failed' last) := by
  unfold Ends at *
  -- Both promises are about the one outcome.
  cases ran : step start with
  | ok result last =>
    rw [ran] at ends ends'
    exact ⟨ends, ends'⟩
  | error fault last =>
    rw [ran] at ends ends'
    exact ⟨ends, ends'⟩

/-- A result without a step leaves the state alone. -/
@[simp] theorem ends_pure {result : α} {start : σ} {done : α → σ → Prop} {failed : σ → Prop} :
    Ends (pure result : EStateM ε σ α) start done failed ↔ done result start := Iff.rfl

/-- The second of two steps starts where the first one ended. -/
@[simp] theorem ends_bind {step : EStateM ε σ α} {next : α → EStateM ε σ β} {start : σ}
    {done : β → σ → Prop} {failed : σ → Prop} :
    Ends (step >>= next) start done failed ↔
      Ends step start (fun result last => Ends (next result) last done failed) failed := by
  unfold Ends
  simp only [Bind.bind, EStateM.bind]
  cases step start <;> rfl

/-- A result that is only translated comes from the same run. -/
@[simp] theorem ends_map {step : EStateM ε σ α} {change : α → β} {start : σ}
    {done : β → σ → Prop} {failed : σ → Prop} :
    Ends (change <$> step) start done failed ↔
      Ends step start (fun result last => done (change result) last) failed := by
  unfold Ends
  simp only [Functor.map, EStateM.map]
  cases step start <;> rfl

/-- Reading the state changes nothing. -/
@[simp] theorem ends_get {start : σ} {done : σ → σ → Prop} {failed : σ → Prop} :
    Ends (get : EStateM ε σ σ) start done failed ↔ done start start := Iff.rfl

/-- A change of the state alone. -/
@[simp] theorem ends_modify {change : σ → σ} {start : σ} {done : Unit → σ → Prop}
    {failed : σ → Prop} :
    Ends (modify change : EStateM ε σ Unit) start done failed ↔ done () (change start) := Iff.rfl

/-- A fault leaves the state as it was. -/
@[simp] theorem ends_throw {fault : ε} {start : σ} {done : α → σ → Prop} {failed : σ → Prop} :
    Ends (throw fault : EStateM ε σ α) start done failed ↔ failed start := Iff.rfl

/-- What every round of a loop keeps holds at its end. -/
theorem Ends.forM {items : List α} {round : α → EStateM ε σ Unit} {start : σ}
    {failed : σ → Prop} (kept : σ → Prop) (holds : kept start)
    (keeps : ∀ item ∈ items, ∀ state, kept state → Ends (round item) state (fun _ => kept) failed) :
    Ends (items.forM round) start (fun _ => kept) failed := by
  -- The loop is one round after the other, so the induction follows the list.
  induction items generalizing start with
  | nil => exact holds
  | cons item rest ih =>
    rw [List.forM, ends_bind]
    refine (keeps item (by simp) start holds).imp (fun _ last kept => ?_) (fun _ failure => failure)
    exact ih kept fun other member => keeps other (by simp [member])

/-- What every round of a loop keeps of the state and of the items that are left holds at its end. -/
theorem Ends.forM_rest {items : List α} {round : α → EStateM ε σ Unit} {start : σ}
    {failed : σ → Prop} (kept : List α → σ → Prop) (holds : kept items start)
    (keeps : ∀ item rest state, kept (item :: rest) state →
      Ends (round item) state (fun _ => kept rest) failed) :
    Ends (items.forM round) start (fun _ => kept []) failed := by
  -- What is kept depends on the items that are left, so the start varies in the induction.
  induction items generalizing start with
  | nil => exact holds
  | cons item rest ih =>
    -- The rest of the list is what is left for the other rounds.
    rw [List.forM, ends_bind]
    exact (keeps item rest start holds).imp (fun _ _ kept => ih kept) fun _ failure => failure

/-- A loop whose rounds all leave a state alone leaves it alone. -/
theorem forM_eq_ok {items : List α} {round : α → EStateM ε σ Unit} {state : σ}
    (idle : ∀ item ∈ items, round item state = .ok () state) :
    items.forM round state = .ok () state := by
  -- Each round ends where it began, so the rest begins there too.
  induction items with
  | nil => rfl
  | cons item rest ih =>
    have first := idle item List.mem_cons_self
    have others := ih fun other member => idle other (List.mem_cons_of_mem _ member)
    simp only [List.forM, Bind.bind, EStateM.bind, first, others]

/-- A way in which runs lead from state to state, open to the states that are ready for it. -/
class Course (ready : σ → Prop) (leads : σ → σ → Prop) : Prop where
  refl : ∀ state, leads state state
  trans : ∀ {a b c}, leads a b → leads b c → leads a c
  ready : ∀ {a b}, leads a b → ready a → ready b

/-- A run that takes a course from every state that is ready for it, unless it fails. -/
def Takes (ready : σ → Prop) (leads : σ → σ → Prop) (step : EStateM ε σ α) : Prop :=
  ∀ start, ready start → Ends step start (fun _ => leads start) (fun _ => True)

namespace Takes

variable {ready : σ → Prop} {leads : σ → σ → Prop} [Course ready leads]
variable {step : EStateM ε σ α} {start middle : σ}

/-- A run that goes on from where a course has led. -/
theorem further (takes : Takes ready leads step) (holds : ready start) (led : leads start middle) :
    Ends step middle (fun _ => leads start) (fun _ => True) :=
  (takes middle (Course.ready led holds)).imp (fun _ _ done => Course.trans ready led done)
    fun _ _ => trivial

/-- One run after the other. -/
theorem bind {next : α → EStateM ε σ β} (takes : Takes ready leads step)
    (takes' : ∀ result, Takes ready leads (next result)) : Takes ready leads (step >>= next) := by
  intro start holds
  rw [ends_bind]
  -- The second run starts where the first one has led, and the two ways are one.
  exact (takes start holds).imp (fun result _ done => (takes' result).further holds done)
    fun _ _ => trivial

/-- A run for each item of a list. -/
theorem forM {items : List α} {round : α → EStateM ε σ Unit}
    (takes : ∀ item ∈ items, Takes ready leads (round item)) :
    Takes ready leads (items.forM round) := by
  intro start holds
  -- What the loop keeps is that the course has led there from the start.
  exact Ends.forM _ (Course.refl ready start) fun item member _ led =>
    (takes item member).further holds led

/-- A run for each item of a list, each of which brings about a fact that later runs keep. -/
theorem forEach {items : List α} {round : α → EStateM ε σ Unit} (fact : α → σ → Prop)
    (holds : ready start) (lasts : ∀ item a b, leads a b → fact item a → fact item b)
    (brings : ∀ item ∈ items, ∀ state, ready state → leads start state →
      Ends (round item) state (fun _ last => leads state last ∧ fact item last) (fun _ => True)) :
    Ends (items.forM round) start (fun _ last => leads start last ∧ ∀ item ∈ items, fact item last)
      (fun _ => True) := by
  -- Each fact has to outlast the rounds behind it, so the way there is kept along.
  induction items generalizing start with
  | nil => exact ⟨Course.refl ready start, fun _ member => absurd member List.not_mem_nil⟩
  | cons item rest ih =>
    rw [List.forM, ends_bind]
    refine (brings item List.mem_cons_self start holds (Course.refl ready start)).imp
      (fun _ middle brought => ?_) fun _ _ => trivial
    -- The course goes on from the round that has just ended.
    obtain ⟨led, first⟩ := brought
    refine (ih (Course.ready led holds) fun other member state there further =>
      brings other (List.mem_cons_of_mem _ member) state there
        (Course.trans ready led further)).imp (fun _ last further => ?_) fun _ _ => trivial
    obtain ⟨led', others⟩ := further
    refine ⟨Course.trans ready led led', fun other member => ?_⟩
    -- The fact of the first item was kept by the rest.
    rcases List.mem_cons.mp member with rfl | member
    · exact lasts other middle last led' first
    · exact others other member

end Takes

/-! Runs that keep what holds of the state whether they succeed or fail, and the faults that can
stop them. -/

/-- A run from a state closes well: `done` holds of its result and its last state, or `failed` of its
fault and of the state that it leaves behind. -/
def Closes (step : EStateM ε σ α) (start : σ) (done : α → σ → Prop) (failed : ε → σ → Prop) : Prop :=
  match step start with
  | .ok result last => done result last
  | .error fault last => failed fault last

/-- The state in which a run ends, with a result or with a fault. -/
def lastState (step : EStateM ε σ α) (start : σ) : σ :=
  match step start with
  | .ok _ last => last
  | .error _ last => last

/-- What is done after looking at the state is done with it. -/
theorem get_bind {next : σ → EStateM ε σ α} {start : σ} : (get >>= next) start = next start start :=
  rfl

section

variable {step : EStateM ε σ α} {start : σ} {done done' : α → σ → Prop}
variable {failed failed' : ε → σ → Prop}

/-- A run may promise less than it keeps. -/
theorem Closes.imp (closes : Closes step start done failed)
    (weaker : ∀ result last, done result last → done' result last)
    (weaker' : ∀ fault last, failed fault last → failed' fault last) :
    Closes step start done' failed' := by
  unfold Closes at *
  split at closes
  · exact weaker _ _ closes
  · exact weaker' _ _ closes

/-- A run may promise less of its results. -/
theorem Closes.mono (closes : Closes step start done failed)
    (weaker : ∀ result last, done result last → done' result last) :
    Closes step start done' failed := closes.imp weaker fun _ _ failure => failure

/-- What is left behind by every fault may be said without the fault. -/
theorem Closes.ends {left : σ → Prop} (closes : Closes step start done fun _ => left) :
    Ends step start done left := closes

/-- What holds at both ends of a run holds of its last state. -/
theorem Closes.lastState {holds : σ → Prop}
    (closes : Closes step start (fun _ => holds) fun _ => holds) : holds (lastState step start) := by
  unfold Closes at closes
  unfold SchemaClasses.lastState
  split at closes
  · exact closes
  · exact closes

/-- What holds of every result holds of that of a run that succeeded. -/
theorem Closes.of_ok {result : α} {last : σ} (closes : Closes step start done failed)
    (ran : step start = .ok result last) : done result last := by
  simpa [Closes, ran] using closes

/-- What holds of every fault holds of the one that stopped a run. -/
theorem Closes.of_error {fault : ε} {last : σ} (closes : Closes step start done failed)
    (stopped : step start = .error fault last) : failed fault last := by
  simpa [Closes, stopped] using closes

@[simp] theorem closes_pure {result : α} :
    Closes (pure result : EStateM ε σ α) start done failed ↔ done result start := Iff.rfl

/-- The second of two steps starts where the first one ended. -/
@[simp] theorem closes_bind {next : α → EStateM ε σ β} {done : β → σ → Prop} :
    Closes (step >>= next) start done failed ↔
      Closes step start (fun result last => Closes (next result) last done failed) failed := by
  unfold Closes
  simp only [Bind.bind, EStateM.bind]
  cases step start <;> rfl

@[simp] theorem closes_get {done : σ → σ → Prop} :
    Closes (get : EStateM ε σ σ) start done failed ↔ done start start := Iff.rfl

@[simp] theorem closes_modify {change : σ → σ} {done : Unit → σ → Prop} :
    Closes (modify change : EStateM ε σ Unit) start done failed ↔ done () (change start) := Iff.rfl

@[simp] theorem closes_throw {fault : ε} :
    Closes (throw fault : EStateM ε σ α) start done failed ↔ failed fault start := Iff.rfl

end

/-- A run that keeps what holds of the state however it ends, and that only certain faults stop. -/
def Keeps (holds : σ → Prop) (blames : ε → Prop) (step : EStateM ε σ α) : Prop :=
  ∀ start, holds start →
    Closes step start (fun _ => holds) fun fault last => holds last ∧ blames fault

namespace Keeps

variable {holds : σ → Prop} {blames : ε → Prop} {step : EStateM ε σ α}

theorem pure {result : α} : Keeps holds blames (Pure.pure result : EStateM ε σ α) :=
  fun _ kept => kept

theorem get : Keeps holds blames (MonadState.get : EStateM ε σ σ) := fun _ kept => kept

/-- One run after the other. -/
theorem bind {next : α → EStateM ε σ β} (keeps : Keeps holds blames step)
    (keeps' : ∀ result, Keeps holds blames (next result)) : Keeps holds blames (step >>= next) := by
  intro start kept
  rw [closes_bind]
  exact (keeps start kept).mono fun result last kept => keeps' result last kept

/-- A run for each item of a list. -/
theorem forM {items : List α} {round : α → EStateM ε σ Unit}
    (keeps : ∀ item ∈ items, Keeps holds blames (round item)) :
    Keeps holds blames (items.forM round) := by
  -- The loop is one round after the other, so the induction follows the list.
  induction items with
  | nil => exact pure
  | cons item rest ih =>
    rw [List.forM]
    exact (keeps item List.mem_cons_self).bind fun _ =>
      ih fun other member => keeps other (List.mem_cons_of_mem _ member)

/-- A run for each item of a list, with a list of results. -/
theorem mapM {items : List α} {round : α → EStateM ε σ β}
    (keeps : ∀ item ∈ items, Keeps holds blames (round item)) :
    Keeps holds blames (items.mapM round) := by
  induction items with
  | nil => exact pure
  | cons item rest ih =>
    rw [List.mapM_cons]
    exact (keeps item List.mem_cons_self).bind fun _ =>
      (ih fun other member => keeps other (List.mem_cons_of_mem _ member)).bind fun _ => pure

end Keeps

end SchemaClasses
