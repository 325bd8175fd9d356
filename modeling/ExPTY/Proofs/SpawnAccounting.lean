import ExPTY.Proofs.DescriptorOwnership

/-! What a call of `expty_spawn` leaves behind. Every exit after the argument checks
leaves something: before `openpty` succeeds it is the spawn objects, destroyed without
having been made, and from then on at least the slave, which nothing ever closes. -/

namespace ExPTY.Proofs.SpawnAccounting
open DescriptorOwnership Descriptors Runs Spawning

/-- What a call that has returned owes to the thread, the table and its child. -/
structure Accounted (index : Nat) (call : Call) (table : Table Object) : Prop where
  mask : call.mask = call.initial
  objects : call.destroyed = true → call.initialised = true
  closed : call.result = .error → ∀ fd entry, table fd = some entry → entry.object.call ≠ some index
  child : call.result = .error → call.child = .absent ∨ call.child = .reaped
  session : call.result = .session → ∀ fd entry, table fd = some entry → entry.object.call = some index →
    entry.object = .master index

/-- The descriptors of the library are the masters of the sessions whose reader has not
closed them. -/
def OnePerSession (world : World) : Prop :=
  ∀ fd, (∃ entry index, world.table fd = some entry ∧ entry.object.call = some index) ↔
    ∃ (index : Nat) (call : Call) (slave : Fd), world.calls[index]? = some call ∧ call.result = .session ∧
      call.pty = some (fd, slave) ∧ call.master_closed = false

structure Refused (call : Call) : Prop where
  pc : call.pc = .returned
  pty : call.pty = none
  comms_pipe : call.comms_pipe = none
  child : call.child = .absent
  threads : call.threads = false
  mask : call.mask = call.initial
  destroyed : call.destroyed = false
  result : call.result = .error

variable {platform : Platform} {index : Nat} {call : Call} {table : Table Object}

theorem Refused.stuck (refused : Refused call) (statement : Statement) :
    call.step platform index table statement = none := by
  obtain ⟨pc, _, _, child, threads, _⟩ := refused
  cases statement with
  | openpty outcome | pipe outcome => cases outcome <;> simp [Call.step, pc]
  | posix_spawn succeeds | ptsname succeeds | pty_nonblock succeeds => cases succeeds <;> simp [Call.step, pc]
  | _ => simp [Call.step, pc, child, threads]

theorem step_accepted {call' : Call} {table' : Table Object} {statement : Statement}
    (taken : call.step platform index table statement = some (call', table')) : call'.accepted = call.accepted := by
  cases step_stepped taken <;> rfl

theorem Refused.accounted (refused : Refused call) (holds : Holds (Mine index) (owned index call) table) :
    Accounted index call table := by
  refine ⟨refused.mask, ?_, ?_, fun _ => Or.inl refused.child, ?_⟩
  · rw [refused.destroyed]
    nofun
  · intro _ fd entry found own
    have member := holds.only fd entry found own
    simp [mem_owned, refused.pty, refused.comms_pipe] at member
  · rw [refused.result]
    nofun

private theorem slave_open {master slave : Fd} (holds : Holds (Mine index) (owned index call) table)
    (pty : call.pty = some (master, slave)) : table slave = some { object := .slave index } :=
  holds.present (slave, .slave index) (mem_owned.mpr (Or.inr (Or.inl ⟨master, pty, rfl⟩)))

theorem accepted_unaccounted (ordered : Ordered call) (holds : Holds (Mine index) (owned index call) table)
    (accepted : call.accepted = true) (returned : call.pc = .returned) : ¬ Accounted index call table := by
  intro accounted
  have initialised := accounted.objects (ordered.destroyed accepted returned)
  obtain ⟨⟨master, slave⟩, pty⟩ := Option.isSome_iff_exists.mp (ordered.pty (ordered.comms_pipe initialised))
  have left := slave_open holds pty
  cases result : call.result with
  | error => exact accounted.closed result slave _ left rfl
  | session => cases accounted.session result slave _ left rfl

theorem one_per_session_iff {world : World} (plumbed : Plumbed world) :
    OnePerSession world ↔ ∀ (index : Nat) call, world.calls[index]? = some call → call.pty = none := by
  constructor
  · intro exact_ index call found
    cases pty : call.pty with
    | none => rfl
    | some ends =>
      have left := slave_open (plumbed.holds index call found) pty
      obtain ⟨other, session, slave, held, _, master, kept⟩ := (exact_ ends.2).mp ⟨_, index, left, rfl⟩
      have member : (ends.2, Object.master other) ∈ owned other session := mem_owned.mpr (Or.inl ⟨slave, master, kept, rfl⟩)
      cases left.symm.trans ((plumbed.holds other session held).present _ member)
  · intro unopened fd
    refine iff_of_false ?_ ?_
    · intro ⟨entry, index, found, own⟩
      have bound := plumbed.numbered fd entry index found own
      obtain ⟨call, held⟩ : ∃ call, world.calls[index]? = some call := ⟨_, List.getElem?_eq_getElem bound⟩
      have pty := unopened index call held
      have comms_pipe : call.comms_pipe = none := by
        rw [← Option.not_isSome_iff_eq_none]
        intro piped
        have opened := (plumbed.ordered index call held).pty piped
        rw [pty] at opened
        cases opened
      have member := (plumbed.holds index call held).only fd entry found own
      simp [mem_owned, pty, comms_pipe] at member
    · intro ⟨index, call, slave, held, _, master, _⟩
      rw [unopened index call held] at master
      cases master

/-- In every run a call that has returned is accounted for exactly when its arguments
were rejected, and once all calls have returned the library holds one descriptor for
each open session, and no other, exactly when no call ever got a terminal. -/
theorem accounted_iff (platform : Platform) (events : List Event) :
    Always World.step (fun world =>
      (∀ (index : Nat) call, world.calls[index]? = some call → call.pc = .returned →
        (Accounted index call world.table ↔ call.accepted = false)) ∧
      (OnePerSession world ↔ ∀ (index : Nat) call, world.calls[index]? = some call → call.pty = none))
      { platform } events := by
  have refused := always_calls platform (fun _ call => call.accepted = false → Refused call)
    (fun _ accepted _ _ rejected => by subst rejected; exact ⟨rfl, rfl, rfl, rfl, rfl, rfl, rfl, rfl⟩)
    (by
      intro world index call call' table statement _ _ _ refused taken rejected
      rw [step_accepted taken] at rejected
      rw [(refused rejected).stuck statement] at taken
      cases taken) events
  refine refused.mono ?_
  intro world ⟨_, plumbed, refused⟩
  refine ⟨?_, one_per_session_iff plumbed⟩
  intro index call found returned
  cases accepted : call.accepted with
  | true =>
    have unaccounted := accepted_unaccounted (plumbed.ordered index call found) (plumbed.holds index call found) accepted
      returned
    exact iff_of_false unaccounted nofun
  | false => exact iff_of_true ((refused index call found accepted).accounted (plumbed.holds index call found)) rfl

def noPipe : List Event :=
  [.expty_spawn true false (fun _ => false), .call 0 .block, .call 0 (.openpty (some (3, 4))), .call 0 (.pipe none),
    .call 0 .finish]

/-- The error leaves both ends of the terminal open and every signal blocked, and
destroys spawn objects that were never made. -/
theorem no_pipe_leaks :
    ∃ final call, exec World.step { platform := ⟨false, 1024⟩ } noPipe = some final ∧ final.calls[0]? = some call ∧
      call.pc = .returned ∧ call.result = .error ∧ call.initial 2 = false ∧ call.mask 2 = true ∧
      final.table 3 = some { object := .master 0 } ∧ final.table 4 = some { object := .slave 0 } ∧
      call.initialised = false ∧ call.destroyed = true ∧ ¬ Accounted 0 call final.table := by
  refine ⟨_, _, rfl, rfl, rfl, rfl, rfl, rfl, rfl, rfl, rfl, rfl, ?_⟩
  intro accounted
  exact accounted.closed rfl 3 _ rfl rfl

end ExPTY.Proofs.SpawnAccounting
