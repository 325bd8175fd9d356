import ExPTY.Proofs.SessionIsolation

/-! The descriptors of the helper at its `execvp`. The parent has 0, 1 and 2 open, so that
each of the four new numbers is at least 3 and the write end of the pipe, made after the
read end, is above 3. Then no file action takes a descriptor away that a later one
needs, whatever else is open. -/

namespace ExPTY.Proofs.DescriptorPlumbing
open DescriptorOwnership Descriptors Runs SessionIsolation Spawning

/-- New descriptors get the lowest free numbers. -/
def lowest (index : Nat) (table : Table Object) : Statement → Bool
  | .openpty (some (master, slave)) => table.lowest master && (table.install master (.master index)).lowest slave
  | .pipe (some (read, write)) => table.lowest read && (table.install read (.comm_read index)).lowest write
  | _ => true

def step (platform : Platform) (index : Nat) (state : Call × Table Object) (statement : Statement) :
    Option (Call × Table Object) :=
  if lowest index state.2 statement then state.1.step platform index state.2 statement else none

structure Plumbed (platform : Platform) (index : Nat) (closeFDs : Bool) (own : Table Object) : Prop where
  standard : ∀ fd ≤ STDERR_FILENO, own fd = some { object := .slave index }
  comm_pipe : own COMM_PIPE_FD = some { object := .comm_write index, cloexec := true }
  only : ∀ fd entry, own fd = some entry → entry.object = .comm_write index → fd = COMM_PIPE_FD
  closed : closeFDs = true → ∀ fd < platform.rlim_cur, COMM_PIPE_FD < fd → own fd = none

/-- The helper's table from `posix_spawn` on. -/
structure Wired (index : Nat) (cloexec : Bool) (own : Table Object) : Prop where
  standard : ∀ fd ≤ STDERR_FILENO, own fd = some { object := .slave index }
  comm_pipe : own COMM_PIPE_FD = some { object := .comm_write index, cloexec }
  only : ∀ fd entry, own fd = some entry → entry.object = .comm_write index → fd = COMM_PIPE_FD

def Helper (platform : Platform) (index : Nat) (closeFDs : Bool) : Child → Prop
  | .started own => Wired index false own
  | .marked own => Wired index true own
  | .closed own => Plumbed platform index closeFDs own
  | _ => True

variable {platform : Platform} {index : Nat} {call call' : Call} {table table' : Table Object} {statement : Statement}

/-- Until the pipe is made the standard descriptors are open, and then its write end is high. -/
structure High (call : Call) (table : Table Object) : Prop where
  standard : rank call.pc ≤ 2 → ∀ fd ≤ STDERR_FILENO, table fd ≠ none
  write : ∀ read write, call.comms_pipe = some (read, write) → COMM_PIPE_FD < write

/-- All five file actions succeed, and this is what they leave. -/
private theorem posix_spawn_eq {master slave read write : Fd} (holds : Holds (Mine index) (owned index call) table)
    (pty : call.pty = some (master, slave)) (comms_pipe : call.comms_pipe = some (read, write))
    (unwritten : call.write_closed = false) (high : COMM_PIPE_FD < write) :
    table.posix_spawn call.acts false = some fun fd =>
      if fd = write then none
      else if fd = COMM_PIPE_FD then some { object := .comm_write index }
      else if fd ∈ [STDIN_FILENO, STDOUT_FILENO, STDERR_FILENO] then some { object := .slave index }
      else table fd := by
  have at_slave := slave_open holds pty
  have at_write : table write = some { object := .comm_write index } :=
    holds.present (write, .comm_write index) (mem_owned.mpr (.inr (.inr (.inr ⟨read, comms_pipe, unwritten, rfl⟩))))
  have other : write ∉ [STDIN_FILENO, STDOUT_FILENO, STDERR_FILENO] := by
    simp only [List.mem_cons, List.not_mem_nil, or_false]
    rintro (rfl | rfl | rfl) <;> exact absurd high (by decide)
  have moved (middle : Table Object) (present : middle write = some { object := .comm_write index }) :
      middle.perform [.dup2 write COMM_PIPE_FD, .close write] =
        some ((middle.set COMM_PIPE_FD (some { object := .comm_write index })).close write) := by
    have copied : middle.dup2 write COMM_PIPE_FD = some _ := middle.dup2_eq_some.mpr ⟨_, present, rfl⟩
    simp [Table.perform, Table.act, copied]
  rw [Table.posix_spawn, acts_eq pty comms_pipe, Table.perform_append, Table.perform_dup2 _ _ at_slave, Option.bind_some,
    moved _ ((if_neg other).trans at_write)]
  simp [Table.close, Table.set]

private theorem posix_spawn_wired {master slave read write : Fd} {child : Table Object}
    (holds : Holds (Mine index) (owned index call) table) (pty : call.pty = some (master, slave))
    (comms_pipe : call.comms_pipe = some (read, write)) (unwritten : call.write_closed = false)
    (high : COMM_PIPE_FD < write) (spawned : table.posix_spawn call.acts false = some child) : Wired index false child := by
  rw [posix_spawn_eq holds pty comms_pipe unwritten high] at spawned
  cases spawned
  refine ⟨?_, ?_, ?_⟩
  · intro fd standard
    have low : fd < COMM_PIPE_FD := Nat.lt_succ_of_le standard
    have listed : fd ∈ [STDIN_FILENO, STDOUT_FILENO, STDERR_FILENO] := by
      match fd, standard with
      | 0, _ | 1, _ | 2, _ => decide
    rw [if_neg (Nat.ne_of_lt (Nat.lt_trans low high)), if_neg (Nat.ne_of_lt low), if_pos listed]
  · rw [if_neg (Nat.ne_of_lt high), if_pos rfl]
  · intro fd entry found own
    obtain ⟨other, found⟩ := Option.ite_none_left_eq_some.mp found
    split at found
    next comm => exact comm
    split at found
    next =>
      cases found
      cases own
    next =>
      obtain ⟨_, same⟩ := held_comm_write holds found own
      rw [comms_pipe] at same
      cases same
      exact absurd rfl other

private theorem Wired.marked {own : Table Object} (wired : Wired index false own) :
    Wired index true (own.setCloexec COMM_PIPE_FD) := by
  have other {fd : Fd} (different : fd ≠ COMM_PIPE_FD) : own.setCloexec COMM_PIPE_FD fd = own fd :=
    Table.set_other _ _ different
  refine ⟨?_, ?_, ?_⟩
  · intro fd standard
    rw [other (Nat.ne_of_lt (Nat.lt_succ_of_le standard))]
    exact wired.standard fd standard
  · rw [Table.setCloexec, Table.set_same, wired.comm_pipe]
    rfl
  · intro fd entry found owned
    apply Classical.byContradiction
    intro different
    exact different (wired.only fd entry ((other different).symm.trans found) owned)

private theorem Wired.closed {own : Table Object} {closeFDs : Bool} (wired : Wired index true own) :
    Plumbed platform index closeFDs (if closeFDs then own.closeAll (closing platform.rlim_cur) else own) := by
  cases closeFDs with
  | false => exact ⟨wired.standard, wired.comm_pipe, wired.only, nofun⟩
  | true =>
    have kept {fd : Fd} (low : fd ≤ COMM_PIPE_FD) : own.closeAll (closing platform.rlim_cur) fd = own fd := by
      rw [Table.closeAll_apply, if_neg]
      intro listed
      exact Nat.not_lt.mpr low (mem_closing.mp listed).1
    refine ⟨?_, ?_, ?_, ?_⟩
    · intro fd standard
      exact (kept (Nat.le_succ_of_le standard)).trans (wired.standard fd standard)
    · exact (kept (Nat.le_refl _)).trans wired.comm_pipe
    · intro fd entry found owned
      rw [if_pos rfl, Table.closeAll_apply] at found
      exact wired.only fd entry (Option.ite_none_left_eq_some.mp found).2 owned
    · intro _ fd below above
      rw [if_pos rfl, Table.closeAll_apply, if_pos (mem_closing.mpr ⟨above, below⟩)]

private theorem pipe_numbers (taken : call.step platform index table statement = some (call', table')) :
    call'.comms_pipe = call.comms_pipe ∨
      ∃ read write, statement = .pipe (some (read, write)) ∧ call.pc = .pipe ∧ call'.comms_pipe = some (read, write) := by
  cases statement with
  | pipe outcome =>
    cases outcome <;> simp only [Call.step] at taken <;> split at taken <;> cases taken
    · exact .inl rfl
    · next here => exact .inr ⟨_, _, rfl, here.1, rfl⟩
  | posix_spawn succeeds =>
    cases succeeds <;> simp only [Call.step] at taken <;> split at taken <;> try contradiction
    · cases taken
      exact .inl rfl
    · obtain ⟨_, _, same⟩ := Option.map_eq_some_iff.mp taken
      cases same
      exact .inl rfl
  | openpty outcome | ptsname outcome | pty_nonblock outcome =>
    cases outcome <;> simp only [Call.step] at taken <;> split at taken <;> cases taken
    all_goals exact .inl rfl
  | _ =>
    simp only [Call.step] at taken
    split at taken <;> cases taken
    all_goals exact .inl rfl

private theorem install_open {fd new : Fd} {object : Object} (open_ : table fd ≠ none) :
    table.install new object fd ≠ none := by
  by_cases same : fd = new
  · rw [same, Table.install, Table.set_same]
    exact Option.some_ne_none _
  · rw [Table.install, Table.set_other _ _ same]
    exact open_

private theorem step_high (ordered : Ordered call) (high : High call table) (low : lowest index table statement = true)
    (taken : call.step platform index table statement = some (call', table')) : High call' table' := by
  refine ⟨?_, ?_⟩
  · intro early fd standard
    cases step_stepped taken with
    | onward pc _ _ _ _ level =>
      apply high.standard _ fd standard
      have same := level 3 (by simp)
      have early : rank pc ≤ 2 := early
      omega
    | openpty master slave here =>
      have open_ := high.standard (by simp [here, rank]) fd standard
      exact install_open (install_open open_)
    | reader_close threads =>
      have idle := (ordered.straight (Nat.le_trans early (by decide))).threads
      rw [threads] at idle
      cases idle
    | child => exact high.standard early fd standard
    | close_read record => cases record <;> exact absurd early (by simp [rank])
    | done | pipe | prepare | posix_spawn | close_write | finish => exact absurd early (by simp [rank])
  · intro read write made
    obtain same | ⟨read', write', rfl, here, made'⟩ := pipe_numbers taken
    · exact high.write read write (same.symm.trans made)
    · cases made.symm.trans made'
      have open_ := high.standard (by simp [here, rank])
      obtain ⟨first, second⟩ := Bool.and_eq_true_iff.mp low
      have above : STDERR_FILENO < read := by
        apply Nat.lt_of_not_le
        intro standard
        exact open_ read standard (table.lowest_iff.mp first).1
      exact Nat.lt_of_le_of_lt above (table.lowest_lt first second)

private theorem step_helper (explicit : platform.cloexecDefault = false) (ordered : Ordered call)
    (holds : Holds (Mine index) (owned index call) table) (high : High call table)
    (helper : Helper platform index call.closeFDs call.child)
    (taken : call.step platform index table statement = some (call', table')) :
    Helper platform index call'.closeFDs call'.child := by
  cases step_stepped taken with
  | posix_spawn child here spawned =>
    have was := ordered.here here (by simp [rank])
    obtain ⟨⟨master, slave, pty⟩, read, write, comms_pipe⟩ := Ordered.at_spawn ordered here
    rw [explicit, Bool.and_false] at spawned
    exact posix_spawn_wired holds pty comms_pipe was.write_closed (high.write read write comms_pipe) spawned
  | child child record grown =>
    cases grown with
    | cloexec own here same =>
      rw [here] at helper
      subst same
      exact Wired.marked helper
    | close own here same =>
      rw [here] at helper
      rw [explicit, Bool.not_false, Bool.and_true] at same
      subst same
      exact Wired.closed helper
    | exec own here same => subst same; exact trivial
    | gone same => rcases same with same | same | same <;> subst same <;> exact trivial
  | onward | done | openpty | pipe | prepare | close_write | close_read | finish | reader_close => exact helper

def spawning (closeFDs : Bool) (mask : Mask) : Call := { accepted := true, closeFDs, initial := mask }

/-- What holds at every statement of the call. -/
structure Alone (platform : Platform) (index : Nat) (closeFDs : Bool) (state : Call × Table Object) : Prop where
  asked : state.1.closeFDs = closeFDs
  ordered : Ordered state.1
  holds : Holds (Mine index) (owned index state.1) state.2
  high : High state.1 state.2
  helper : Helper platform index closeFDs state.1.child

private theorem step_alone (explicit : platform.cloexecDefault = false) {closeFDs : Bool} {state next : Call × Table Object}
    (alone : Alone platform index closeFDs state) (taken : step platform index state statement = some next) :
    Alone platform index closeFDs next := by
  obtain ⟨rfl, ordered, holds, high, helper⟩ := alone
  obtain ⟨low, taken⟩ := Option.ite_none_right_eq_some.mp taken
  obtain ⟨call', table'⟩ := next
  have asked : call'.closeFDs = state.1.closeFDs := by
    cases step_stepped taken <;> rfl
  refine ⟨asked, step_ordered ordered taken, (step_accounts ordered holds taken).1, step_high ordered high low taken, ?_⟩
  rw [← asked]
  exact step_helper explicit ordered holds high helper taken

/-- In every run of a spawn that has the table to itself, from any table with 0, 1 and 2 open,
the helper calls `execvp` with its slave on those three, with the write end of its pipe on
`COMM_PIPE_FD`, marked and nowhere else, and without the rest if it was told to close it.
A program that it becomes does not have the write end. -/
theorem helper_plumbed (explicit : platform.cloexecDefault = false)
    (standard : ∀ fd ≤ STDERR_FILENO, table fd ≠ none)
    (fresh : ∀ fd entry, table fd = some entry → entry.object.call ≠ some index) (closeFDs : Bool) (mask : Mask)
    (statements : List Statement) :
    Always (step platform index) (fun state => ∀ own, state.1.child = .closed own →
      Plumbed platform index closeFDs own ∧ ∀ fd entry, own.exec fd = some entry → entry.object ≠ .comm_write index)
      (spawning closeFDs mask, table) statements := by
  have start : Alone platform index closeFDs (spawning closeFDs mask, table) := by
    refine ⟨rfl, ?_, ⟨?_, ?_⟩, ⟨fun _ => standard, ?_⟩, trivial⟩
    · exact .of_straight .block rfl (by simp [rank]) ⟨rfl, rfl, rfl, rfl, rfl, rfl, rfl⟩
    · simp [owned, spawning]
    · intro fd entry found own
      exact absurd own (fresh fd entry found)
    · simp [spawning]
  refine (Always.of_invariant (fun _ _ _ => step_alone explicit) statements start).mono ?_
  intro state alone own closed
  have plumbed := alone.helper
  rw [closed] at plumbed
  refine ⟨plumbed, ?_⟩
  intro fd entry found written
  obtain ⟨present, unmarked⟩ := own.exec_eq_some.mp found
  have place := plumbed.only fd entry present written
  subst place
  cases present.symm.trans plumbed.comm_pipe
  cases unmarked

/-- A VM with the standard descriptors, one more at 7 and 3 to 6 free. -/
def sparse : Table Object := fun fd => if fd ≤ 2 ∨ fd = 7 then some { object := .other fd } else none

def plain : List Statement :=
  [.block, .openpty (some (3, 4)), .pipe (some (5, 6)), .prepare, .alloc_pipesocket true, .alloc_process true,
    .posix_spawn true, .close_write, .helper_cloexec, .helper_close]

theorem helper_plumbed_sparse :
    ∃ (call : Call) (parent own : Table Object),
      exec (step ⟨false, 1024⟩ 0) (spawning true fun _ => false, sparse) plain = some (call, parent) ∧
        call.child = .closed own ∧ Plumbed ⟨false, 1024⟩ 0 true own := by
  have runs : ∃ (call : Call) (parent own : Table Object),
      exec (step ⟨false, 1024⟩ 0) (spawning true fun _ => false, sparse) plain = some (call, parent) ∧
        call.child = .closed own := ⟨_, _, _, rfl, rfl⟩
  obtain ⟨call, parent, own, ran, closed⟩ := runs
  have explicit : (⟨false, 1024⟩ : Platform).cloexecDefault = false := rfl
  have standard : ∀ fd ≤ STDERR_FILENO, sparse fd ≠ none := by
    intro fd low
    rw [sparse, if_pos (.inl low)]
    exact Option.some_ne_none _
  have fresh : ∀ fd entry, sparse fd = some entry → entry.object.call ≠ some 0 := by
    intro fd entry found
    obtain ⟨_, same⟩ := Option.ite_none_right_eq_some.mp found
    cases same
    simp [Object.call]
  have always := helper_plumbed explicit standard fresh true (fun _ => false) plain
  exact ⟨call, parent, own, ran, closed, (always.final ran own closed).1⟩

end ExPTY.Proofs.DescriptorPlumbing
