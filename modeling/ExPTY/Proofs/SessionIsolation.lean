import ExPTY.Proofs.DescriptorOwnership

/-! Which terminals and pipes a program finds open. The helper's own table is followed
from `posix_spawn` to `exec`: the standard descriptors are the session's slave, the comm
pipe is marked, and what else was inherited goes only if the caller asked for it. -/

namespace ExPTY.Proofs.SessionIsolation
open DescriptorOwnership Descriptors Runs Spawning

/-- No master, no slave of another session and no end of a comm pipe. -/
def Isolated (index : Nat) (table : Table Object) : Prop :=
  ∀ fd entry, table fd = some entry → ∀ owner, entry.object.call = some owner → entry.object = .slave index

structure Inherits (platform : Platform) (index : Nat) (closeFDs : Bool) (table : Table Object) : Prop where
  standard : ∀ fd entry, table fd = some entry → fd ≤ STDERR_FILENO → entry.object = .slave index
  comm_write : ∀ fd entry, table fd = some entry → entry.object = .comm_write index → fd = COMM_PIPE_FD
  bounded : ∀ fd entry, table fd = some entry → COMM_PIPE_FD < fd → fd < platform.rlim_cur
  kernel : closeFDs = true → platform.cloexecDefault = true → ∀ fd, COMM_PIPE_FD < fd → table fd = none

def Marked (table : Table Object) : Prop := ∀ entry, table COMM_PIPE_FD = some entry → entry.cloexec = true

def Confined (platform : Platform) (index : Nat) (closeFDs : Bool) : Child → Prop
  | .started table => Inherits platform index closeFDs table
  | .marked table => Inherits platform index closeFDs table ∧ Marked table
  | .closed table => Inherits platform index closeFDs table ∧ Marked table ∧
      (closeFDs = true → ∀ fd, COMM_PIPE_FD < fd → table fd = none)
  | .program table => (closeFDs = true → Isolated index table) ∧
      ∀ fd entry, table fd = some entry → entry.object ≠ .comm_write index
  | _ => True

variable {platform : Platform} {index : Nat} {closeFDs : Bool} {call call' : Call} {table table' : Table Object} {statement : Statement}

theorem acts_eq {master slave read write : Fd} (pty : call.pty = some (master, slave))
    (comms_pipe : call.comms_pipe = some (read, write)) :
    call.acts = [STDIN_FILENO, STDOUT_FILENO, STDERR_FILENO].map (.dup2 slave) ++
      [.dup2 write COMM_PIPE_FD, .close write] := by
  unfold Call.acts
  rw [pty, comms_pipe]
  rfl

theorem slave_open {master slave : Fd} (holds : Holds (Mine index) (owned index call) table)
    (pty : call.pty = some (master, slave)) : table slave = some { object := .slave index } :=
  holds.present (slave, .slave index) (mem_owned.mpr (.inr (.inl ⟨master, pty, rfl⟩)))

/-- The terminal and the pipe are there when the helper is started. -/
theorem Ordered.at_spawn (ordered : Ordered call) (here : call.pc = .spawn) :
    (∃ master slave, call.pty = some (master, slave)) ∧ ∃ read write, call.comms_pipe = some (read, write) := by
  have was := ordered.here here (by simp [rank])
  obtain ⟨⟨master, slave⟩, pty⟩ := Option.isSome_iff_exists.mp was.pty
  obtain ⟨⟨read, write⟩, comms_pipe⟩ := Option.isSome_iff_exists.mp was.comms_pipe
  exact ⟨⟨master, slave, pty⟩, read, write, comms_pipe⟩

/-- The file actions put the slave on the standard descriptors and take the write end
of the pipe off every number but its fixed one. -/
private theorem posix_spawn_inherits {master slave read write : Fd} {child : Table Object} {kernel : Bool}
    (holds : Holds (Mine index) (owned index call) table) (pty : call.pty = some (master, slave))
    (comms_pipe : call.comms_pipe = some (read, write))
    (spawned : table.posix_spawn call.acts kernel = some child) :
    ∀ fd entry, child fd = some entry →
      (fd ≤ STDERR_FILENO ∧ entry.object = .slave index) ∨ fd = COMM_PIPE_FD ∨
        (kernel = false ∧ STDERR_FILENO < fd ∧ fd ≠ write ∧ table fd = some entry) := by
  have at_slave := slave_open holds pty
  obtain ⟨made, performed, rfl⟩ := Option.map_eq_some_iff.mp spawned
  rw [acts_eq pty comms_pipe, Table.perform_append, Table.perform_dup2 _ _ at_slave, Option.bind_some] at performed
  obtain ⟨between, copied, performed⟩ := Option.bind_eq_some_iff.mp performed
  obtain ⟨entry, _, rfl⟩ := (Table.dup2_eq_some _).mp copied
  cases performed
  intro fd entry found
  have kept : kernel = true → fd ∈ call.acts.filterMap Action.made := by
    intro inherits
    by_cases listed : fd ∈ call.acts.filterMap Action.made
    · exact listed
    · simp [inherits, listed] at found
  have found : Table.close _ write fd = some entry := (Option.ite_none_left_eq_some.mp found).2
  have open_ : fd ≠ write := by
    intro same
    rw [same] at found
    cases (Table.set_same _ write none).symm.trans found
  by_cases comm : fd = COMM_PIPE_FD
  · exact Or.inr (Or.inl comm)
  · have inherited := (Table.set_other _ _ comm).symm.trans ((Table.set_other _ _ open_).symm.trans found)
    split at inherited
    next standard =>
      cases inherited
      refine Or.inl ⟨?_, rfl⟩
      simp only [List.mem_cons, List.not_mem_nil, or_false] at standard
      rcases standard with rfl | rfl | rfl <;> simp [STDIN_FILENO, STDOUT_FILENO, STDERR_FILENO]
    next foreign =>
      refine Or.inr (Or.inr ⟨?_, ?_, open_, inherited⟩)
      · rw [← Bool.not_eq_true]
        intro inherits
        have made := kept inherits
        rw [acts_eq pty comms_pipe, List.filterMap_append, List.mem_append] at made
        rcases made with made | made
        · exact foreign made
        · exact comm (List.mem_singleton.mp made)
      · apply Nat.lt_of_not_le
        intro below
        apply foreign
        match fd, below with
        | 0, _ | 1, _ | 2, _ => decide

private theorem started_inherits {master slave read write : Fd} {child : Table Object}
    (bounded : Bounded platform table) (holds : Holds (Mine index) (owned index call) table)
    (pty : call.pty = some (master, slave)) (comms_pipe : call.comms_pipe = some (read, write))
    (spawned : table.posix_spawn call.acts (call.closeFDs && platform.cloexecDefault) = some child) :
    Inherits platform index call.closeFDs child := by
  have inherited := posix_spawn_inherits holds pty comms_pipe spawned
  refine ⟨?_, ?_, ?_, ?_⟩
  · intro fd entry found standard
    rcases inherited fd entry found with ⟨_, own⟩ | same | ⟨_, above, _, _⟩
    · exact own
    · rw [same] at standard
      exact absurd standard (by decide)
    · exact absurd standard (Nat.not_le.mpr above)
  · intro fd entry found own
    rcases inherited fd entry found with ⟨_, slave⟩ | same | ⟨_, _, other, old⟩
    · rw [own] at slave
      cases slave
    · exact same
    · -- the call has one write end, and its number has just been closed
      obtain ⟨_, same⟩ := held_comm_write holds old own
      rw [comms_pipe] at same
      cases same
      exact absurd rfl other
  · intro fd entry found above
    rcases inherited fd entry found with ⟨standard, _⟩ | same | ⟨_, _, _, old⟩
    · exact absurd above (Nat.not_lt.mpr (Nat.le_succ_of_le standard))
    · exact absurd same (Nat.ne_of_gt above)
    · exact bounded fd entry old
  · intro asked kernel fd above
    cases found : child fd with
    | none => rfl
    | some entry =>
      rcases inherited fd entry found with ⟨standard, _⟩ | same | ⟨inherits, _⟩
      · exact absurd above (Nat.not_lt.mpr (Nat.le_succ_of_le standard))
      · exact absurd same (Nat.ne_of_gt above)
      · rw [asked, kernel] at inherits
        cases inherits

private theorem Inherits.marked (inherits : Inherits platform index closeFDs table) :
    Inherits platform index closeFDs (table.setCloexec COMM_PIPE_FD) ∧ Marked (table.setCloexec COMM_PIPE_FD) := by
  have old {fd : Fd} {entry : Entry Object} (found : table.setCloexec COMM_PIPE_FD fd = some entry) :
      ∃ before, table fd = some before ∧ before.object = entry.object := by
    by_cases same : fd = COMM_PIPE_FD
    · subst same
      obtain ⟨before, present, rfl⟩ := Option.map_eq_some_iff.mp ((Table.set_same _ _ _).symm.trans found)
      exact ⟨before, present, rfl⟩
    · exact ⟨entry, (Table.set_other _ _ same).symm.trans found, rfl⟩
  refine ⟨⟨?_, ?_, ?_, ?_⟩, ?_⟩
  · intro fd entry found standard
    obtain ⟨before, present, same⟩ := old found
    exact same ▸ inherits.standard fd before present standard
  · intro fd entry found own
    obtain ⟨before, present, same⟩ := old found
    exact inherits.comm_write fd before present (same.trans own)
  · intro fd entry found above
    obtain ⟨before, present, _⟩ := old found
    exact inherits.bounded fd before present above
  · intro asked kernel fd above
    exact (Table.set_other _ _ (Nat.ne_of_gt above)).trans (inherits.kernel asked kernel fd above)
  · intro entry found
    obtain ⟨before, _, rfl⟩ := Option.map_eq_some_iff.mp ((Table.set_same _ _ _).symm.trans found)
    rfl

theorem mem_closing {rlim_cur : Nat} {fd : Fd} :
    fd ∈ closing rlim_cur ↔ COMM_PIPE_FD < fd ∧ fd < rlim_cur := by
  have numbers (fd : Nat) : ((3 ≤ fd ∧ fd < 3 + (rlim_cur - 3)) ∧ ¬ fd = 3) ↔ 3 < fd ∧ fd < rlim_cur := by omega
  rw [closing, List.mem_filter, List.mem_range'_1, decide_eq_true_eq]
  exact numbers fd

/-- The helper's closing loop leaves the standard descriptors and the marked pipe. -/
private theorem closed_table (inherits : Inherits platform index closeFDs table) (marked : Marked table)
    (explicit : Bool) (asked : explicit = (closeFDs && !platform.cloexecDefault)) :
    Inherits platform index closeFDs (if explicit then table.closeAll (closing platform.rlim_cur) else table) ∧
      Marked (if explicit then table.closeAll (closing platform.rlim_cur) else table) ∧
      (closeFDs = true → ∀ fd, COMM_PIPE_FD < fd →
        (if explicit then table.closeAll (closing platform.rlim_cur) else table) fd = none) := by
  cases explicit with
  | false =>
    refine ⟨inherits, marked, ?_⟩
    intro closes fd above
    apply inherits.kernel closes _ fd above
    rw [closes] at asked
    simpa using asked
  | true =>
    have kept {fd : Fd} {entry : Entry Object} (found : table.closeAll (closing platform.rlim_cur) fd = some entry) :
        table fd = some entry := by
      rw [Table.closeAll_apply] at found
      exact (Option.ite_none_left_eq_some.mp found).2
    refine ⟨⟨?_, ?_, ?_, ?_⟩, ?_, ?_⟩
    · exact fun fd entry found => inherits.standard fd entry (kept found)
    · exact fun fd entry found => inherits.comm_write fd entry (kept found)
    · exact fun fd entry found => inherits.bounded fd entry (kept found)
    · intro closes kernel
      rw [closes, kernel] at asked
      cases asked
    · exact fun entry found => marked entry (kept found)
    · intro _ fd above
      cases found : table.closeAll (closing platform.rlim_cur) fd with
      | none => exact found
      | some entry =>
        have below := inherits.bounded fd entry (kept found) above
        rw [Table.closeAll_apply, if_pos (mem_closing.mpr ⟨above, below⟩)] at found
        cases found

private theorem program_confined (inherits : Inherits platform index closeFDs table) (marked : Marked table)
    (cleared : closeFDs = true → ∀ fd, COMM_PIPE_FD < fd → table fd = none) :
    (closeFDs = true → Isolated index table.exec) ∧
      ∀ fd entry, table.exec fd = some entry → entry.object ≠ .comm_write index := by
  have comm_closed {entry : Entry Object} (found : table.exec COMM_PIPE_FD = some entry) : False := by
    obtain ⟨present, unmarked⟩ := table.exec_eq_some.mp found
    rw [marked entry present] at unmarked
    cases unmarked
  refine ⟨?_, ?_⟩
  · intro closes fd entry found owner _
    obtain ⟨present, _⟩ := table.exec_eq_some.mp found
    rcases Nat.lt_trichotomy fd COMM_PIPE_FD with standard | same | above
    · exact inherits.standard fd entry present (Nat.le_of_lt_succ standard)
    · exact (comm_closed (same ▸ found)).elim
    · rw [cleared closes fd above] at present
      cases present
  · intro fd entry found own
    obtain ⟨present, _⟩ := table.exec_eq_some.mp found
    exact comm_closed (inherits.comm_write fd entry present own ▸ found)

theorem step_confined (bounded : Bounded platform table) (ordered : Ordered call)
    (holds : Holds (Mine index) (owned index call) table) (confined : Confined platform index call.closeFDs call.child)
    (taken : call.step platform index table statement = some (call', table')) :
    Confined platform index call'.closeFDs call'.child := by
  cases step_stepped taken with
  | posix_spawn child here spawned =>
    obtain ⟨⟨master, slave, pty⟩, read, write, comms_pipe⟩ := Ordered.at_spawn ordered here
    exact started_inherits bounded holds pty comms_pipe spawned
  | child child record grown =>
    cases grown with
    | cloexec own here same =>
      rw [here] at confined
      subst same
      exact Inherits.marked confined
    | close own here same =>
      rw [here] at confined
      subst same
      exact closed_table confined.1 confined.2 _ rfl
    | exec own here same =>
      rw [here] at confined
      subst same
      exact program_confined confined.1 confined.2.1 confined.2.2
    | gone same => rcases same with same | same | same <;> subst same <;> exact trivial
  | onward | done | openpty | pipe | prepare | close_write | close_read | finish | reader_close => exact confined

/-- In every run, whatever other calls do at the same time and whatever else the VM has
open, a program that was spawned with `closeFDs` holds no terminal but its own slave and
no pipe, and no program at all holds the write end of its own comm pipe. -/
theorem programs_isolated (platform : Platform) (events : List Event) :
    Always World.step (fun world => ∀ (index : Nat) call table, world.calls[index]? = some call →
      call.child = .program table → (call.closeFDs = true → Isolated index table) ∧
        ∀ fd entry, table fd = some entry → entry.object ≠ .comm_write index) { platform } events := by
  have confined := always_calls platform (fun index call => Confined platform index call.closeFDs call.child)
    (fun _ _ _ _ => trivial) (by
      intro world index call call' table statement here plumbed found confined taken
      have bounded := plumbed.bounded
      rw [here] at bounded
      exact step_confined bounded (plumbed.ordered index call found) (plumbed.holds index call found) confined taken) events
  refine confined.mono ?_
  intro world ⟨_, _, holds⟩ index call table found program
  have outfit := holds index call found
  rw [program] at outfit
  exact outfit

/-- One spawn with the default options, in a VM that has the first four numbers open. -/
def defaultSpawn : List Event :=
  [.open_other 0 0 false, .open_other 1 1 false, .open_other 2 2 false, .open_other 3 3 true,
    .expty_spawn true false (fun _ => false), .call 0 .block, .call 0 (.openpty (some (4, 5))),
    .call 0 (.pipe (some (6, 7))), .call 0 .prepare, .call 0 (.alloc_pipesocket true), .call 0 (.alloc_process true),
    .call 0 (.posix_spawn true), .call 0 .helper_cloexec, .call 0 .helper_close, .call 0 .helper_exec]

/-- The program holds its own master and the read end of the pipe. -/
theorem default_spawn_inherits :
    ∃ final call table, exec World.step { platform := ⟨false, 1024⟩ } defaultSpawn = some final ∧
      final.calls[0]? = some call ∧ call.closeFDs = false ∧ call.child = .program table ∧
      table 4 = some { object := .master 0 } ∧ table 6 = some { object := .comm_read 0 } ∧ ¬ Isolated 0 table := by
  refine ⟨_, _, _, rfl, rfl, rfl, rfl, rfl, rfl, ?_⟩
  intro isolated
  cases isolated 4 _ rfl 0 rfl

end ExPTY.Proofs.SessionIsolation
