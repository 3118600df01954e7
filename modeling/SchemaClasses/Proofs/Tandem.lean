import Mathlib.Data.List.Forall2
import SchemaClasses.Proofs.Run

/-! Runs in tandem: two runs that end alike from states that agree, and runs that succeed wherever
another one does. -/

namespace SchemaClasses

/-- What holds of all items on the right may be added to what relates two lists. -/
theorem forall₂_and_right {α β : Type} {relates : α → β → Prop} {holds : β → Prop} {items : List α}
    {items' : List β} (each : List.Forall₂ relates items items') (all : ∀ item ∈ items', holds item) :
    List.Forall₂ (fun item item' => relates item item' ∧ holds item') items items' := by
  -- The head has what all items have, and the tail has it by the induction.
  induction each with
  | nil => exact .nil
  | cons here _ ih =>
    exact .cons ⟨here, all _ List.mem_cons_self⟩
      (ih fun item member => all item (List.mem_cons_of_mem _ member))

variable {ε σ σ' α α' β : Type} {agree : σ → σ' → Prop}

/-- Two runs that end alike from states that agree: both succeed with the same result, or both are
stopped by the same fault, and the states that they leave agree. -/
def Tandem (agree : σ → σ' → Prop) (step : EStateM ε σ α) (step' : EStateM ε σ' α) : Prop :=
  ∀ start start', agree start start' →
    match step start, step' start' with
    | .ok result last, .ok result' last' => result = result' ∧ agree last last'
    | .error fault last, .error fault' last' => fault = fault' ∧ agree last last'
    | _, _ => False

namespace Tandem

variable {step : EStateM ε σ α} {step' : EStateM ε σ' α}

theorem pure {result : α} :
    Tandem agree (Pure.pure result : EStateM ε σ α) (Pure.pure result : EStateM ε σ' α) :=
  fun _ _ alike => ⟨rfl, alike⟩

theorem throw {fault : ε} :
    Tandem agree (throw fault : EStateM ε σ α) (MonadExcept.throw fault : EStateM ε σ' α) :=
  fun _ _ alike => ⟨rfl, alike⟩

/-- Changes of both states that keep them in agreement. -/
theorem modify {change : σ → σ} {change' : σ' → σ'}
    (keeps : ∀ start start', agree start start' → agree (change start) (change' start')) :
    Tandem agree (modify change : EStateM ε σ Unit) (modify change' : EStateM ε σ' Unit) :=
  fun start start' alike => ⟨rfl, keeps start start' alike⟩

/-- What is done after looking at the states is done with two states that agree. -/
theorem look {next : σ → EStateM ε σ α} {next' : σ' → EStateM ε σ' α}
    (tandem : ∀ start start', agree start start' → Tandem agree (next start) (next' start')) :
    Tandem agree (get >>= next) (get >>= next') :=
  fun start start' alike => tandem start start' alike start start' alike

/-- One run after the other, from the same result on. -/
theorem bind {next : α → EStateM ε σ β} {next' : α → EStateM ε σ' β}
    (tandem : Tandem agree step step') (tandem' : ∀ result, Tandem agree (next result) (next' result)) :
    Tandem agree (step >>= next) (step' >>= next') := by
  intro start start' alike
  have first := tandem start start' alike
  simp only [Bind.bind, EStateM.bind]
  -- Runs in tandem end alike, so the next steps start alike or not at all.
  cases ran : step start with
  | ok result last =>
    cases ran' : step' start' with
    | ok result' last' =>
      rw [ran, ran'] at first
      obtain ⟨rfl, alike⟩ := first
      exact tandem' result last last' alike
    | error fault' last' =>
      rw [ran, ran'] at first
      exact first.elim
  | error fault last =>
    cases ran' : step' start' with
    | ok result' last' =>
      rw [ran, ran'] at first
      exact first.elim
    | error fault' last' =>
      rw [ran, ran'] at first
      exact first

/-- Rounds over two lists that correspond item by item. -/
theorem forM₂ {corresponds : α → α' → Prop} {items : List α} {items' : List α'}
    {round : α → EStateM ε σ Unit} {round' : α' → EStateM ε σ' Unit}
    (each : List.Forall₂ corresponds items items')
    (tandem : ∀ item item', corresponds item item' → Tandem agree (round item) (round' item')) :
    Tandem agree (items.forM round) (items'.forM round') := by
  induction each with
  -- Nothing is left on either side.
  | nil => exact pure
  | cons here _ ih =>
    rw [List.forM, List.forM]
    exact (tandem _ _ here).bind fun _ => ih

/-- Rounds over one list. -/
theorem forM {items : List α} {round : α → EStateM ε σ Unit} {round' : α → EStateM ε σ' Unit}
    (tandem : ∀ item ∈ items, Tandem agree (round item) (round' item)) :
    Tandem agree (items.forM round) (items.forM round') := by
  -- A list corresponds to itself item by item.
  have each : List.Forall₂ (fun item item' => item = item' ∧ item ∈ items) items items :=
    List.forall₂_same.mpr fun item member => ⟨rfl, member⟩
  apply forM₂ each
  rintro item _ ⟨rfl, member⟩
  exact tandem item member

/-- A result for each item of a list. -/
theorem mapM {items : List α} {round : α → EStateM ε σ β} {round' : α → EStateM ε σ' β}
    (tandem : ∀ item, Tandem agree (round item) (round' item)) :
    Tandem agree (items.mapM round) (items.mapM round') := by
  -- The head has its result before the rest, so the induction follows the list.
  induction items with
  | nil => exact pure
  | cons item rest ih =>
    rw [List.mapM_cons, List.mapM_cons]
    exact (tandem item).bind fun _ => ih.bind fun _ => pure

end Tandem

/-- Two steps succeed if the second one does from where the first one succeeded. -/
theorem run_bind_eq_ok {step : EStateM ε σ α} {next : α → EStateM ε σ β} {start last : σ} {result : β} :
    (step >>= next) start = .ok result last ↔
      ∃ middle between, step start = .ok middle between ∧ next middle between = .ok result last := by
  -- Only a first step that succeeds leads on.
  simp only [Bind.bind, EStateM.bind]
  cases step start with
  | ok middle between =>
    constructor
    · exact fun ran => ⟨middle, between, rfl, ran⟩
    · rintro ⟨_, _, ⟨⟩, ran⟩
      exact ran
  | error fault between =>
    constructor
    · rintro ⟨⟩
    · rintro ⟨_, _, ⟨⟩, -⟩

/-- The result of a run with the state that it leaves, if it succeeds. -/
def finished? (step : EStateM ε σ α) (start : σ) : Option (α × σ) :=
  match step start with
  | .ok result last => some (result, last)
  | .error .. => none

/-- A run that succeeds has its result. -/
theorem run_of_finished? {step : EStateM ε σ α} {start last : σ} {result : α}
    (found : finished? step start = some (result, last)) : step.run start = .ok result last := by
  -- Only a run that succeeds leaves something to find.
  unfold finished? at found
  split at found
  · rename_i ran
    cases found
    exact ran
  · cases found

/-- A run that does not succeed is stopped by a fault. -/
theorem exists_fault_of_finished? {step : EStateM ε σ α} {start : σ}
    (none : finished? step start = none) : ∃ fault last, step.run start = .error fault last := by
  -- Nothing is found only where the run was stopped.
  unfold finished? at none
  split at none
  · cases none
  · rename_i fault last ran
    exact ⟨fault, last, ran⟩

/-- A run that succeeds wherever another one does from a state that agrees with its own, with the same
result and in a state that agrees. -/
def Retraces (agree : σ → σ' → Prop) (step : EStateM ε σ α) (step' : EStateM ε σ' α) : Prop :=
  ∀ start start', agree start start' → ∀ result last, step start = .ok result last →
    ∃ last', step' start' = .ok result last' ∧ agree last last'

namespace Retraces

variable {step : EStateM ε σ α} {step' : EStateM ε σ' α}

theorem pure {result : α} :
    Retraces agree (Pure.pure result : EStateM ε σ α) (Pure.pure result : EStateM ε σ' α) := by
  rintro start start' alike _ _ ⟨⟩
  exact ⟨start', rfl, alike⟩

/-- Changes of both states that keep them in agreement. -/
theorem modify {change : σ → σ} {change' : σ' → σ'}
    (keeps : ∀ start start', agree start start' → agree (change start) (change' start')) :
    Retraces agree (modify change : EStateM ε σ Unit) (modify change' : EStateM ε σ' Unit) := by
  rintro start start' alike _ _ ⟨⟩
  exact ⟨change' start', rfl, keeps start start' alike⟩

/-- A run that never succeeds is retraced by any other. -/
theorem throw {fault : ε} : Retraces agree (throw fault : EStateM ε σ α) step' := by
  rintro _ _ _ _ _ ⟨⟩

/-- One run after the other, from the same result on. -/
theorem bind {next : α → EStateM ε σ β} {next' : α → EStateM ε σ' β}
    (retraces : Retraces agree step step')
    (retraces' : ∀ result, Retraces agree (next result) (next' result)) :
    Retraces agree (step >>= next) (step' >>= next') := by
  intro start start' alike result last ran
  -- A run in two steps succeeds only if both do, and each of them is retraced.
  obtain ⟨middle, between, first, second⟩ := run_bind_eq_ok.mp ran
  obtain ⟨between', first', alike⟩ := retraces start start' alike middle between first
  obtain ⟨last', second', alike⟩ := retraces' middle between between' alike result last second
  exact ⟨last', run_bind_eq_ok.mpr ⟨middle, between', first', second'⟩, alike⟩

/-- A result for each item of a list. -/
theorem mapM {items : List α} {round : α → EStateM ε σ β} {round' : α → EStateM ε σ' β}
    (retraces : ∀ item ∈ items, Retraces agree (round item) (round' item)) :
    Retraces agree (items.mapM round) (items.mapM round') := by
  induction items with
  | nil => exact pure
  | cons item rest ih =>
    rw [List.mapM_cons, List.mapM_cons]
    refine (retraces item List.mem_cons_self).bind fun _ => ?_
    exact (ih fun other member => retraces other (List.mem_cons_of_mem _ member)).bind fun _ => pure

end Retraces

end SchemaClasses
