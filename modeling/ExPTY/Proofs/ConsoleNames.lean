import ExPTY.Proofs.ConsoleIsolation
import Mathlib.Data.List.Induction

/-! Which spawns get a session on Windows. The pipes of a spawn are never closed, neither after
a failure nor after the program's end, so that a name serves for the first spawn that comes
as far as its first pipe and for no other. -/

namespace ExPTY.Proofs.ConsoleNames
open ConptySessions Runs
open ConsoleIsolation (createDataServerPipe_iff event_laid)

variable {fold : Name → Name} {world next : World} {events : List Event} {pipeName : Name}

def inName (pipeName : Name) : Name := pipe_name pipeName [0x69, 0x6E]
def outName (pipeName : Name) : Name := pipe_name pipeName [0x6F, 0x75, 0x74]

/-- How the kernel compares names: no input pipe has an output pipe's, and spawns whose output
pipes have the same name have the same name for their input pipes. -/
structure Compares (fold : Name → Name) : Prop where
  apart : ∀ first second, fold (inName first) ≠ fold (outName second)
  alike : ∀ first second, fold (outName first) = fold (outName second) → fold (inName first) = fold (inName second)

/-- Whether a spawn comes as far as the first pipe of the name. -/
def takes (fold : Name → Name) (pipeName : Name) : Event → Bool
  | .expty_spawn _ other attempt => attempt.begins && attempt.input && fold (inName other) = fold (inName pipeName)
  | _ => false

/-- Some spawn has come as far as the first pipe of the name, whatever has come of it. -/
def Taken (fold : Name → Name) (events : List Event) (pipeName : Name) : Prop :=
  ∃ event ∈ events, takes fold pipeName event

instance : Decidable (Taken fold events pipeName) := List.decidableBEx _ _

/-- No step fails for another reason than the name. -/
def succeeds (attempt : Attempt) : Bool :=
  attempt.begins && attempt.input && attempt.output && attempt.console && attempt.allocated

/-- Its name or another reason keeps a spawn from its first pipe. -/
def Refused (fold : Name → Name) (events : List Event) (pipeName : Name) (attempt : Attempt) : Prop :=
  Taken fold events pipeName ∨ (attempt.begins && attempt.input) = false

/-- Whether a pipe has the name. -/
def Present (fold : Name → Name) (world : World) (name : Name) : Prop := fold name ∈ world.pipes.map (fold ·.name)

structure Named (fold : Name → Name) (events : List Event) (world : World) : Prop where
  input : ∀ pipeName, Present fold world (inName pipeName) ↔ Taken fold events pipeName
  output : ∀ pipeName, Present fold world (outName pipeName) → Taken fold events pipeName

section Names
variable {granted : Bool} {name : Name}

theorem taken_append (event : Event) :
    Taken fold (events ++ [event]) pipeName ↔ Taken fold events pipeName ∨ takes fold pipeName event = true := by
  simp only [Taken, List.mem_append, List.mem_singleton, or_and_right, exists_or, exists_eq_left]

theorem Taken.more (taken : Taken fold events pipeName) (later : List Event) : Taken fold (events ++ later) pipeName := by
  obtain ⟨event, member, takes⟩ := taken
  exact ⟨event, List.mem_append_left _ member, takes⟩

theorem present_append {fresh : List Pipe} (pipes : next.pipes = world.pipes ++ fresh) (name : Name) :
    Present fold next name ↔ Present fold world name ∨ ∃ pipe ∈ fresh, fold pipe.name = fold name := by
  rw [Present, pipes, List.map_append, List.mem_append, List.mem_map (l := fresh)]
  rfl

theorem present_same (same : next.pipes.map Pipe.name = world.pipes.map Pipe.name) (name : Name) :
    Present fold next name ↔ Present fold world name := by
  have folded (pipes : List Pipe) : pipes.map (fold ·.name) = (pipes.map Pipe.name).map fold := List.map_map.symm
  rw [Present, folded, same, ← folded, ← Present]

theorem create_fresh (fresh : ¬ Present fold world name) :
    world.createDataServerPipe fold true name = some { world with pipes := world.pipes ++ [{ name := name }] } :=
  createDataServerPipe_iff.mpr ⟨⟨rfl, fresh⟩, rfl⟩

theorem create_refused (refused : Present fold world name ∨ granted = false) :
    world.createDataServerPipe fold granted name = none := by
  cases created : world.createDataServerPipe fold granted name with
  | none => rfl
  | some next =>
    obtain ⟨⟨grants, fresh⟩, -⟩ := createDataServerPipe_iff.mp created
    rcases refused with present | refused
    · exact absurd present fresh
    · cases grants.symm.trans refused

end Names

section Spawns
variable {process : Pid} {attempt : Attempt}

/-- The handle of a spawn that gets a session. -/
def session (world : World) (process : Pid) (pipeName : Name) : Baton :=
  { id := world.ptyCounter + 1, process, hIn := world.pipes.length, hOut := world.pipes.length + 1
    inName := inName pipeName, outName := outName pipeName }

/-- A spawn that does not get its first pipe leaves nothing behind. -/
theorem spawn_refused (named : Named fold events world) (refused : Refused fold events pipeName attempt) :
    world.expty_spawn fold process pipeName attempt = world := by
  unfold World.expty_spawn
  cases begins : attempt.begins with
  | false => rfl
  | true =>
    have none : world.createDataServerPipe fold attempt.input (inName pipeName) = none := by
      apply create_refused
      refine refused.imp (named.input pipeName).mpr fun refused => ?_
      rw [begins] at refused
      exact refused
    simp only [if_true, show pipe_name pipeName [0x69, 0x6E] = inName pipeName from rfl, none]

/-- A spawn that gets its first pipe leaves it, and its second one where that is granted. -/
theorem spawn_left (process : Pid) (compares : Compares fold) (named : Named fold events world)
    (granted : ¬ Refused fold events pipeName attempt) :
    let next := world.expty_spawn fold process pipeName attempt
    next.pipes = world.pipes ++ ({ name := inName pipeName } ::
        if attempt.output then [{ name := outName pipeName }] else []) ∧
      next.ptyHandles = world.ptyHandles ++ if succeeds attempt then [session world process pipeName] else [] := by
  obtain ⟨untaken, came⟩ := not_or.mp granted
  obtain ⟨begins, input⟩ := Bool.and_eq_true_iff.mp (eq_true_of_ne_false came)
  have first := create_fresh (mt (named.input pipeName).mp untaken)
  have fresh : ¬ Present fold { world with pipes := world.pipes ++ [{ name := inName pipeName }] } (outName pipeName) := by
    rw [@present_append fold world _ _ rfl]
    rintro (present | ⟨pipe, member, same⟩)
    · exact untaken (named.output pipeName present)
    · cases List.mem_singleton.mp member
      exact compares.apart pipeName pipeName same
  have ours : pipe_name pipeName [0x69, 0x6E] = inName pipeName ∧ pipe_name pipeName [0x6F, 0x75, 0x74] = outName pipeName :=
    ⟨rfl, rfl⟩
  simp only [World.expty_spawn, succeeds, begins, input, if_true, Bool.true_and, ours, first]
  cases attempt.output with
  | false =>
    rw [create_refused (.inr rfl)]
    exact ⟨rfl, (List.append_nil _).symm⟩
  | true =>
    rw [create_fresh fresh]
    cases attempt.console with
    | false => exact ⟨List.append_assoc .., (List.append_nil _).symm⟩
    | true =>
      cases attempt.allocated with
      | false => exact ⟨List.append_assoc .., (List.append_nil _).symm⟩
      | true => exact ⟨List.append_assoc .., rfl⟩

theorem spawn_named (compares : Compares fold) (named : Named fold events world) (process : Pid) (asked : Name)
    (attempt : Attempt) :
    Named fold (events ++ [.expty_spawn process asked attempt]) (world.expty_spawn fold process asked attempt) := by
  have took (pipeName : Name) : takes fold pipeName (.expty_spawn process asked attempt) = true ↔
      (attempt.begins && attempt.input) = true ∧ fold (inName asked) = fold (inName pipeName) := by
    rw [takes, Bool.and_eq_true, decide_eq_true_eq]
  by_cases refused : Refused fold events asked attempt
  · -- who comes as far as the same name later has been preceded just the same
    have more (pipeName : Name) :
        Taken fold (events ++ [.expty_spawn process asked attempt]) pipeName ↔ Taken fold events pipeName := by
      rw [taken_append, took]
      refine or_iff_left_of_imp fun ⟨came, same⟩ => ?_
      have taken := refused.resolve_right fun short => by cases came.symm.trans short
      rw [← named.input, Present, ← same]
      exact (named.input asked).mpr taken
    rw [spawn_refused named refused]
    exact ⟨fun pipeName => (named.input pipeName).trans (more pipeName).symm,
      fun pipeName present => (more pipeName).mpr (named.output pipeName present)⟩
  · have came := eq_true_of_ne_false (not_or.mp refused).2
    have pipes := (spawn_left process compares named refused).1
    constructor
    · intro pipeName
      rw [present_append pipes, named.input, taken_append, took, came]
      simp only [true_and, List.mem_cons, exists_eq_or_imp]
      refine or_congr_right (or_iff_left ?_)
      rintro ⟨pipe, member, same⟩
      split at member
      · cases List.mem_singleton.mp member
        exact compares.apart pipeName asked same.symm
      · cases member
    · intro pipeName present
      rw [taken_append, took]
      rcases (present_append pipes _).mp present with old | ⟨pipe, member, same⟩
      · exact .inl (named.output pipeName old)
      · rcases List.mem_cons.mp member with rfl | member
        · exact absurd same (compares.apart asked pipeName)
        · split at member
          · cases List.mem_singleton.mp member
            exact .inr ⟨came, compares.alike asked pipeName same⟩
          · cases member

theorem step_named (compares : Compares fold) (named : Named fold events world) {event : Event}
    (moved : world.step fold event = some next) : Named fold (events ++ [event]) next := by
  cases event with
  | expty_spawn process asked attempt =>
    cases moved
    exact spawn_named compares named process asked attempt
  | expty_pty_connect | expty_write | thread | console =>
    have names := (event_laid rfl moved).names
    constructor
    · intro pipeName
      rw [present_same names, named.input, taken_append]
      exact (or_iff_left Bool.false_ne_true).symm
    · intro pipeName present
      exact (named.output pipeName ((present_same names _).mp present)).more _

theorem run_named (compares : Compares fold) (events : List Event) :
    ∀ world, exec (World.step fold) {} events = some world → Named fold events world := by
  induction events using List.reverseRecOn with
  | nil =>
    intro world ran
    cases ran
    exact ⟨by simp [Present, Taken], by simp [Present]⟩
  | append_singleton events event ih =>
    intro world ran
    rw [exec_append] at ran
    obtain ⟨before, ran, moved⟩ := Option.bind_eq_some_iff.mp ran
    obtain ⟨after, moved, same⟩ := Option.bind_eq_some_iff.mp moved
    cases same
    exact step_named compares (ih before ran) moved

end Spawns

/-- After any run a spawn gets a session, of its own id and pipes, exactly when none of its
steps fails for another reason and no spawn before it has come as far as the first pipe of
its name. It leaves nothing behind exactly when it does not get its first pipe, and once
one has come so far, whatever has come of it, its name is refused in every continuation. -/
theorem name_served_once (fold : Name → Name) (compares : Compares fold) (events : List Event) (world : World)
    (ran : exec (World.step fold) {} events = some world) (process : Pid) (pipeName : Name) (attempt : Attempt) :
    (world.expty_spawn fold process pipeName attempt).ptyHandles = world.ptyHandles ++
        (if ¬ Taken fold events pipeName ∧ succeeds attempt = true then [session world process pipeName] else []) ∧
      (world.expty_spawn fold process pipeName attempt = world ↔ Refused fold events pipeName attempt) ∧
      ((attempt.begins && attempt.input) = true → ∀ (more : List Event) (later : World),
        exec (World.step fold) (world.expty_spawn fold process pipeName attempt) more = some later →
          ∀ (process' : Pid) (again : Attempt), later.expty_spawn fold process' pipeName again = later) := by
  have named := run_named compares events world ran
  refine ⟨?_, ?_, ?_⟩
  · by_cases refused : Refused fold events pipeName attempt
    · rw [spawn_refused named refused, if_neg, List.append_nil]
      rintro ⟨untaken, all⟩
      have short := refused.resolve_left untaken
      simp only [succeeds, short, Bool.false_and, Bool.false_eq_true] at all
    · rw [(spawn_left process compares named refused).2]
      simp only [(not_or.mp refused).1, not_false_eq_true, true_and]
  · refine ⟨fun same => ?_, spawn_refused named⟩
    by_contra refused
    have pipes := (spawn_left process compares named refused).1
    rw [same] at pipes
    exact absurd (congrArg List.length pipes) (by simp)
  · intro came more later ran' process' again
    have whole : exec (World.step fold) {} (events ++ .expty_spawn process pipeName attempt :: more) = some later := by
      rw [exec_append, ran, Option.bind_some, exec_cons _ more rfl]
      exact ran'
    have took : takes fold pipeName (.expty_spawn process pipeName attempt) = true := by
      rw [takes, came, Bool.true_and]
      exact decide_eq_true rfl
    exact spawn_refused (run_named compares _ later whole) (.inl ⟨_, List.mem_append_right _ (.head _), took⟩)

section Letters
variable {upper : UInt16 → UInt16}

/-- Names are compared by their letters in upper case. An input pipe's ends in another letter
than an output pipe's. -/
theorem compares_upper (apart : upper 0x6E ≠ upper 0x74) : Compares (List.map upper) := by
  constructor
  · intro first second same
    have last := congrArg List.getLast? same
    simp only [inName, outName, pipe_name, List.map_append, List.map_cons, List.map_nil, List.getLast?_append,
      List.getLast?_cons_cons, List.getLast?_singleton, Option.some_or, Option.some.injEq] at last
    exact apart last
  · intro first second same
    simp only [inName, outName, pipe_name, List.map_append, List.append_left_inj, List.append_right_inj] at same ⊢
    exact same

/-- The letters of ASCII in upper case. -/
def ascii (unit : UInt16) : UInt16 := if 0x61 ≤ unit ∧ unit ≤ 0x7A then unit - 0x20 else unit

/-- A spawn whose console is not made, and one whose shell is not found. -/
def failed : List Event := [.expty_spawn 7 [0x61] { console := false }, .expty_spawn 7 [0x62] { begins := false }]

/-- The first name is refused to a later spawn, in capitals too, and the second is not. -/
theorem failed_name_refused :
    ∃ world, exec (World.step (List.map ascii)) {} failed = some world ∧
      world.expty_spawn (List.map ascii) 8 [0x41] {} = world ∧
        (world.expty_spawn (List.map ascii) 8 [0x62] {}).ptyHandles = [session world 8 [0x62]] := by
  have compares : Compares (List.map ascii) := compares_upper (by decide)
  refine ⟨_, rfl, ?_, ?_⟩
  · exact (name_served_once _ compares failed _ rfl 8 [0x41] {}).2.1.mpr (.inl (by decide))
  · exact (name_served_once _ compares failed _ rfl 8 [0x62] {}).1

end Letters

end ExPTY.Proofs.ConsoleNames
