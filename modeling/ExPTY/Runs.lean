/-! Finite runs of a machine whose events carry every choice of its environment.
A step is then a partial function, and a statement about all interleavings is a
statement about all event lists. Nothing here mentions terminals. -/

universe u v

namespace ExPTY.Runs

variable {σ : Type u} {ε : Type v} (step : σ → ε → Option σ)

/-- The state after the events, when each of them was enabled. -/
def exec : σ → List ε → Option σ
  | state, [] => some state
  | state, event :: rest => (step state event).bind fun next => exec next rest

/-- Every state that a prefix of the events reaches has the property. -/
def Always (property : σ → Prop) (start : σ) (events : List ε) : Prop :=
  ∀ taken rest state, events = taken ++ rest → exec step start taken = some state → property state

/-- Every event that is taken meets the condition in the state it is taken from. -/
def Along (good : σ → ε → Prop) (start : σ) (events : List ε) : Prop :=
  ∀ taken event rest state next, events = taken ++ event :: rest → exec step start taken = some state →
    step state event = some next → good state event

theorem exec_cons {state next : σ} {event : ε} (rest : List ε) (taken : step state event = some next) :
    exec step state (event :: rest) = exec step next rest := by
  simp [exec, taken]

theorem exec_append (start : σ) (first second : List ε) :
    exec step start (first ++ second) = (exec step start first).bind fun middle => exec step middle second := by
  induction first generalizing start with
  | nil => rfl
  | cons event first ih =>
    simp only [List.cons_append, exec]
    cases taken : step start event with
    | none => rfl
    | some next => simp [ih next]

/-- Some run leads to the state. -/
def Reached (start state : σ) : Prop := ∃ events, exec step start events = some state

theorem Reached.start (start : σ) : Reached step start start := ⟨[], rfl⟩

theorem Reached.next {start state next : σ} {event : ε} (reached : Reached step start state)
    (taken : step state event = some next) : Reached step start next := by
  obtain ⟨events, ran⟩ := reached
  refine ⟨events ++ [event], ?_⟩
  rw [exec_append, ran, Option.bind_some, exec_cons step [] taken]
  rfl

variable {step} {property : σ → Prop} {good : σ → ε → Prop}

theorem Always.start {start : σ} {events : List ε} (always : Always step property start events) : property start :=
  always [] events start rfl rfl

theorem Always.final {start final : σ} {events : List ε} (always : Always step property start events)
    (reached : exec step start events = some final) : property final :=
  always events [] final (List.append_nil events).symm reached

theorem Always.mono {other : σ → Prop} {start : σ} {events : List ε} (always : Always step property start events)
    (implies : ∀ state, property state → other state) : Always step other start events :=
  fun taken rest state same reached => implies state (always taken rest state same reached)

theorem always_nil {start : σ} : Always step property start ([] : List ε) ↔ property start := by
  constructor
  · exact Always.start
  · intro holds taken rest state same reached
    obtain ⟨rfl, rfl⟩ := List.append_eq_nil_iff.mp same.symm
    cases reached
    exact holds

theorem always_cons {start : σ} {event : ε} {rest : List ε} :
    Always step property start (event :: rest) ↔
      property start ∧ ∀ next, step start event = some next → Always step property next rest := by
  constructor
  · intro always
    refine ⟨always.start, ?_⟩
    intro next taken first later state same reached
    exact always (event :: first) later state (by rw [same]; rfl) (by rw [exec_cons step first taken]; exact reached)
  · rintro ⟨holds, later⟩ taken remaining state same reached
    cases taken with
    | nil => cases reached; exact holds
    | cons first taken =>
      obtain ⟨rfl, tail⟩ := List.cons.inj same
      obtain ⟨next, stepped, reached⟩ := Option.bind_eq_some_iff.mp reached
      exact later next stepped taken remaining state tail reached

theorem along_nil {start : σ} : Along step good start ([] : List ε) := by
  intro taken event rest state next same
  cases taken <;> cases same

theorem along_cons {start : σ} {event : ε} {rest : List ε} :
    Along step good start (event :: rest) ↔
      ∀ next, step start event = some next → good start event ∧ Along step good next rest := by
  constructor
  · intro along next taken
    refine ⟨along [] event rest start next rfl rfl taken, ?_⟩
    intro first current later state after same reached stepped
    exact along (event :: first) current later state after (by rw [same]; rfl)
      (by rw [exec_cons step first taken]; exact reached) stepped
  · intro later taken current remaining state after same reached stepped
    cases taken with
    | nil =>
      obtain ⟨rfl, rfl⟩ := List.cons.inj same
      cases reached
      exact (later after stepped).1
    | cons first taken =>
      obtain ⟨rfl, tail⟩ := List.cons.inj same
      obtain ⟨next, moved, reached⟩ := Option.bind_eq_some_iff.mp reached
      exact (later next moved).2 taken current remaining state after tail reached stepped

theorem Along.cons {start next : σ} {event : ε} {rest : List ε} (taken : step start event = some next)
    (condition : good start event) (along : Along step good next rest) : Along step good start (event :: rest) := by
  refine along_cons.mpr fun other reached => ?_
  cases taken.symm.trans reached
  exact ⟨condition, along⟩

/-- The invariant rule. The condition on the steps may be trivial. -/
theorem Always.of_along (kept : ∀ state event next, property state → good state event →
      step state event = some next → property next)
    {start : σ} {events : List ε} (holds : property start) (along : Along step good start events) :
    Always step property start events := by
  induction events generalizing start with
  | nil => exact always_nil.mpr holds
  | cons event rest ih =>
    refine always_cons.mpr ⟨holds, ?_⟩
    intro next taken
    obtain ⟨condition, later⟩ := along_cons.mp along next taken
    exact ih (kept start event next holds condition taken) later

theorem Always.of_invariant (kept : ∀ state event next, property state →
      step state event = some next → property next)
    {start : σ} (events : List ε) (holds : property start) : Always step property start events := by
  have along : Along step (fun _ _ => True) start events := fun _ _ _ _ _ _ _ _ => trivial
  exact Always.of_along (fun state event next holds _ => kept state event next holds) holds along

/-- When the condition decides, step by step, whether the property survives,
the property holds throughout a run exactly when every step meets it. -/
theorem always_iff_along (invariant : σ → Prop)
    (kept : ∀ state event next, invariant state → step state event = some next → invariant next)
    (decides : ∀ state event next, invariant state → property state → step state event = some next →
      (property next ↔ good state event))
    {start : σ} {events : List ε} (initial : invariant start) (holds : property start) :
    Always step property start events ↔ Along step good start events := by
  induction events generalizing start with
  | nil => exact ⟨fun _ => along_nil, fun _ => always_nil.mpr holds⟩
  | cons event rest ih =>
    rw [always_cons, along_cons]
    constructor
    · rintro ⟨_, later⟩ next taken
      have after := later next taken
      have same := decides start event next initial holds taken
      exact ⟨same.mp after.start, (ih (kept start event next initial taken) after.start).mp after⟩
    · intro along
      refine ⟨holds, ?_⟩
      intro next taken
      obtain ⟨condition, later⟩ := along next taken
      have survives := (decides start event next initial holds taken).mpr condition
      exact (ih (kept start event next initial taken) survives).mpr later

/-- A rank that no step raises and that every counted step lowers bounds how many of those there are. -/
theorem countP_le_rank (rank : σ → Nat) (invariant : σ → Prop) (counted : ε → Bool)
    (kept : ∀ state event next, invariant state → step state event = some next → invariant next)
    (falls : ∀ state event next, invariant state → step state event = some next →
      rank next + (if counted event then 1 else 0) ≤ rank state)
    {events : List ε} {start final : σ} (initial : invariant start) (ran : exec step start events = some final) :
    rank final + events.countP counted ≤ rank start := by
  induction events generalizing start with
  | nil =>
    cases ran
    exact Nat.le_refl _
  | cons event rest ih =>
    obtain ⟨next, taken, ran⟩ := Option.bind_eq_some_iff.mp ran
    have later := ih (kept start event next initial taken) ran
    have first := falls start event next initial taken
    rw [List.countP_cons]
    omega

/-- Where a step of the right kind can be taken until the goal is reached, and lowers the rank, it is reached. -/
theorem reaches_of_rank (rank : σ → Nat) (invariant : σ → Prop) {goal : σ → Prop} {allowed : ε → Prop}
    (progress : ∀ state, invariant state → ¬ goal state →
      ∃ event next, allowed event ∧ step state event = some next ∧ invariant next ∧ rank next < rank state)
    (start : σ) (initial : invariant start) :
    ∃ events final, exec step start events = some final ∧ goal final ∧ ∀ event ∈ events, allowed event := by
  by_cases reached : goal start
  · exact ⟨[], start, rfl, reached, nofun⟩
  · obtain ⟨event, next, fits, taken, holds, lower⟩ := progress start initial reached
    obtain ⟨events, final, ran, done, all⟩ := reaches_of_rank rank invariant progress next holds
    refine ⟨event :: events, final, (exec_cons step events taken).trans ran, done, ?_⟩
    intro other member
    rcases List.mem_cons.mp member with rfl | member
    · exact fits
    · exact all other member
termination_by rank start

end ExPTY.Runs
