import ExPTY.Slots
import ExPTY.Spawning

/-! Which descriptors a call of `expty_spawn` holds at each of its statements. The
numbers may be reused as soon as they are closed, so that the account is kept per
object: the entries that carry a call's number are exactly those it has opened and not
closed, whatever the other calls and the rest of the VM do in between. -/

namespace ExPTY.Proofs.DescriptorOwnership
open Descriptors Runs Spawning

def Mine (index : Nat) (object : Object) : Prop := object.call = some index

def owned (index : Nat) (call : Call) : List (Fd × Object) :=
  (match call.pty, call.master_closed with
    | some (master, _), false => [(master, .master index)]
    | _, _ => []) ++
  (match call.pty with
    | some (_, slave) => [(slave, .slave index)]
    | none => []) ++
  (match call.comms_pipe, call.read_closed with
    | some (read, _), false => [(read, .comm_read index)]
    | _, _ => []) ++
  (match call.comms_pipe, call.write_closed with
    | some (_, write), false => [(write, .comm_write index)]
    | _, _ => [])

def rank : Pc → Nat
  | .block => 0
  | .openpty => 1
  | .pipe => 2
  | .prepare => 3
  | .alloc_pipesocket => 4
  | .alloc_process => 5
  | .spawn => 6
  | .close_write _ => 7
  | .unblock _ => 8
  | .read => 9
  | .close_read _ => 10
  | .ptsname => 11
  | .nonblock => 12
  | .register => 13
  | .finish => 14
  | .returned => 15

/-- Up to `register` the next statement tells what a call has done. -/
structure Straight (pc : Pc) (call : Call) : Prop where
  pty : call.pty.isSome = decide (2 ≤ rank pc)
  comms_pipe : call.comms_pipe.isSome = decide (3 ≤ rank pc)
  initialised : call.initialised = decide (4 ≤ rank pc)
  write_closed : call.write_closed = decide (8 ≤ rank pc)
  read_closed : call.read_closed = decide (11 ≤ rank pc)
  threads : call.threads = false
  master_closed : call.master_closed = false

structure Ordered (call : Call) : Prop where
  straight : rank call.pc ≤ 13 → Straight call.pc call
  pty : call.comms_pipe.isSome → call.pty.isSome
  comms_pipe : call.initialised = true → call.comms_pipe.isSome
  destroyed : call.accepted = true → call.pc = .returned → call.destroyed = true

variable {platform : Platform} {index : Nat} {call call' : Call} {table table' : Table Object} {statement : Statement}

theorem Ordered.here (ordered : Ordered call) {pc : Pc} (here : call.pc = pc) (early : rank pc ≤ 13) :
    Straight pc call := by
  subst here
  exact ordered.straight early

theorem Ordered.of_straight (pc : Pc) (here : call.pc = pc) (early : rank pc ≤ 13) (straight : Straight pc call) :
    Ordered call := by
  subst here
  refine ⟨fun _ => straight, ?_, ?_, ?_⟩
  · rw [straight.pty, straight.comms_pipe, decide_eq_true_eq, decide_eq_true_eq]
    omega
  · rw [straight.comms_pipe, straight.initialised, decide_eq_true_eq, decide_eq_true_eq]
    omega
  · intro _ returned
    rw [returned] at early
    exact absurd early (by simp [rank])

/-- A jump to `done`, or the last statement before it. -/
theorem Ordered.exit (ordered : Ordered call) (finish : call'.pc = .finish) (pty : call'.pty = call.pty)
    (comms_pipe : call'.comms_pipe = call.comms_pipe) (initialised : call'.initialised = call.initialised) :
    Ordered call' := by
  refine ⟨?_, ?_, ?_, ?_⟩
  · rw [finish]
    exact fun early => absurd early (by simp [rank])
  · rw [pty, comms_pipe]
    exact ordered.pty
  · rw [initialised, comms_pipe]
    exact ordered.comms_pipe
  · rw [finish]
    nofun

theorem Ordered.onward (ordered : Ordered call) {pc : Pc} (early : rank call.pc ≤ 13) (early' : rank pc ≤ 13)
    (level : ∀ mark ∈ [2, 3, 4, 8, 11], mark ≤ rank pc ↔ mark ≤ rank call.pc) (mask : Mask) (result : Result) :
    Ordered { call with pc, mask, result } := by
  have was := ordered.straight early
  refine .of_straight pc rfl early' ⟨?_, ?_, ?_, ?_, ?_, was.threads, was.master_closed⟩
  · rw [was.pty, decide_eq_decide, level 2 (by simp)]
  · rw [was.comms_pipe, decide_eq_decide, level 3 (by simp)]
  · rw [was.initialised, decide_eq_decide, level 4 (by simp)]
  · rw [was.write_closed, decide_eq_decide, level 8 (by simp)]
  · rw [was.read_closed, decide_eq_decide, level 11 (by simp)]

/-- What the steps of a child do to the table it has. -/
inductive Grown (platform : Platform) (closeFDs : Bool) (child child' : Child) : Prop where
  | cloexec (own : Table Object) (here : child = .started own) (same : child' = .marked (own.setCloexec COMM_PIPE_FD))
  | close (own : Table Object) (here : child = .marked own) (same : child' =
      .closed (if closeFDs && !platform.cloexecDefault then own.closeAll (closing platform.rlim_cur) else own))
  | exec (own : Table Object) (here : child = .closed own) (same : child' = .program own.exec)
  | gone (same : child' = .bailed ∨ child' = .zombie ∨ child' = .reaped)

/-- All that a statement can do: move on with everything the call holds, jump to `done`,
take or give back something, or let the child take a step. -/
inductive Stepped (platform : Platform) (index : Nat) (call : Call) (table : Table Object) : Call → Table Object → Prop where
  | onward (pc : Pc) (mask : Mask) (result : Result) (early : rank call.pc ≤ 13) (early' : rank pc ≤ 13)
      (level : ∀ mark ∈ [2, 3, 4, 8, 11], mark ≤ rank pc ↔ mark ≤ rank call.pc) :
      Stepped platform index call table { call with pc, mask, result } table
  | done (mask : Mask) (result : Result) (killed threads : Bool) :
      Stepped platform index call table { call with pc := .finish, mask, result, killed, threads } table
  | openpty (master slave : Fd) (here : call.pc = .openpty) (free : Free platform table master slave) :
      Stepped platform index call table { call with pty := some (master, slave), pc := .pipe }
        ((table.install master (.master index)).install slave (.slave index))
  | pipe (read write : Fd) (here : call.pc = .pipe) (free : Free platform table read write) :
      Stepped platform index call table { call with comms_pipe := some (read, write), pc := .prepare }
        ((table.install read (.comm_read index)).install write (.comm_write index))
  | prepare (here : call.pc = .prepare) :
      Stepped platform index call table { call with initialised := true, pc := .alloc_pipesocket } table
  | posix_spawn (child : Table Object) (here : call.pc = .spawn)
      (spawned : table.posix_spawn call.acts (call.closeFDs && platform.cloexecDefault) = some child) :
      Stepped platform index call table { call with child := .started child, pc := .close_write false } table
  | close_write (error : Bool) (here : call.pc = .close_write error) :
      Stepped platform index call table { call with write_closed := true, pc := .unblock error }
        (closeFd table (call.comms_pipe.map Prod.snd))
  | close_read (record : Bool) (here : call.pc = .close_read record) :
      Stepped platform index call table { call with read_closed := true, pc := if record then .finish else .ptsname }
        (closeFd table (call.comms_pipe.map Prod.fst))
  | finish :
      Stepped platform index call table { call with destroyed := true, pc := .returned } table
  | reader_close (threads : call.threads = true) (once : call.master_closed = false) :
      Stepped platform index call table { call with master_closed := true } (closeFd table (call.pty.map Prod.fst))
  | child (child : Child) (record : Bool) (grown : Grown platform call.closeFDs call.child child) :
      Stepped platform index call table { call with child, record } table

theorem step_stepped (taken : call.step platform index table statement = some (call', table')) :
    Stepped platform index call table call' table' := by
  cases statement with
  | block =>
    simp only [Call.step] at taken
    split at taken <;> cases taken
    next here => exact .onward .openpty sigfillset call.result (by simp [here, rank]) (by simp [rank]) (by simp [here, rank])
  | openpty outcome =>
    cases outcome <;> simp only [Call.step] at taken <;> split at taken <;> cases taken
    · exact .done call.mask call.result call.killed call.threads
    · next here => exact .openpty _ _ here.1 here.2
  | pipe outcome =>
    cases outcome <;> simp only [Call.step] at taken <;> split at taken <;> cases taken
    · exact .done call.mask call.result call.killed call.threads
    · next here => exact .pipe _ _ here.1 here.2
  | prepare =>
    simp only [Call.step] at taken
    split at taken <;> cases taken
    next here => exact .prepare here
  | alloc_pipesocket succeeds | alloc_process succeeds =>
    cases succeeds <;> simp only [Call.step] at taken <;> split at taken <;> cases taken
    · exact .done call.mask call.result call.killed call.threads
    · next here => exact .onward _ call.mask call.result (by simp [here, rank]) (by simp [rank]) (by simp [here, rank])
  | posix_spawn succeeds =>
    cases succeeds <;> simp only [Call.step] at taken <;> split at taken <;> try contradiction
    next here =>
      cases taken
      exact .onward _ call.mask call.result (by simp [here, rank]) (by simp [rank]) (by simp [here, rank])
    next here =>
      obtain ⟨child, spawned, same⟩ := Option.map_eq_some_iff.mp taken
      cases same
      exact .posix_spawn child here spawned
  | close_write =>
    simp only [Call.step] at taken
    split at taken <;> cases taken
    next error here => exact .close_write error here
  | unblock =>
    simp only [Call.step] at taken
    split at taken <;> cases taken
    next error here =>
      cases error with
      | true => exact .done call.initial call.result call.killed call.threads
      | false => exact .onward .read call.initial call.result (by simp [here, rank]) (by simp [rank]) (by simp [here, rank])
  | read record =>
    simp only [Call.step] at taken
    split at taken <;> cases taken
    next here => exact .onward _ call.mask call.result (by simp [here.1, rank]) (by simp [rank]) (by simp [here.1, rank])
  | close_read =>
    simp only [Call.step] at taken
    split at taken <;> cases taken
    next record here => exact .close_read record here
  | ptsname succeeds | pty_nonblock succeeds =>
    cases succeeds <;> simp only [Call.step] at taken <;> split at taken <;> cases taken
    · exact .done call.mask _ true call.threads
    · next here => exact .onward _ call.mask _ (by simp [here, rank]) (by simp [rank]) (by simp [here, rank])
  | register =>
    simp only [Call.step] at taken
    split at taken <;> cases taken
    exact .done call.mask call.result call.killed true
  | finish =>
    simp only [Call.step] at taken
    split at taken <;> cases taken
    exact .finish
  | reader_close =>
    simp only [Call.step] at taken
    split at taken <;> cases taken
    next ready => exact .reader_close ready.1 (by simpa using ready.2)
  | helper_cloexec =>
    simp only [Call.step] at taken
    split at taken <;> cases taken
    next own here => exact .child _ call.record (.cloexec own here rfl)
  | helper_close =>
    simp only [Call.step] at taken
    split at taken <;> cases taken
    next own here => exact .child _ call.record (.close own here rfl)
  | helper_exec =>
    simp only [Call.step] at taken
    split at taken <;> cases taken
    next own here => exact .child _ call.record (.exec own here rfl)
  | waitpid | helper_bail | child_exit =>
    simp only [Call.step] at taken
    split at taken <;> cases taken
    all_goals exact .child _ _ (.gone (by simp))

theorem step_ordered (ordered : Ordered call) (taken : call.step platform index table statement = some (call', table')) :
    Ordered call' := by
  cases step_stepped taken with
  | onward pc mask result early early' level => exact ordered.onward early early' level mask result
  | done => exact ordered.exit rfl rfl rfl rfl
  | openpty master slave here =>
    have was := ordered.here here (by simp [rank])
    exact .of_straight .pipe rfl (by simp [rank]) ⟨rfl, was.comms_pipe, was.initialised, was.write_closed,
      was.read_closed, was.threads, was.master_closed⟩
  | pipe read write here =>
    have was := ordered.here here (by simp [rank])
    exact .of_straight .prepare rfl (by simp [rank]) ⟨was.pty, rfl, was.initialised, was.write_closed,
      was.read_closed, was.threads, was.master_closed⟩
  | prepare here =>
    have was := ordered.here here (by simp [rank])
    exact .of_straight .alloc_pipesocket rfl (by simp [rank]) ⟨was.pty, was.comms_pipe, rfl, was.write_closed,
      was.read_closed, was.threads, was.master_closed⟩
  | posix_spawn child here =>
    have was := ordered.here here (by simp [rank])
    exact .of_straight (.close_write false) rfl (by simp [rank]) ⟨was.pty, was.comms_pipe, was.initialised,
      was.write_closed, was.read_closed, was.threads, was.master_closed⟩
  | close_write error here =>
    have was := ordered.here here (by simp [rank])
    exact .of_straight (.unblock error) rfl (by simp [rank]) ⟨was.pty, was.comms_pipe, was.initialised, rfl,
      was.read_closed, was.threads, was.master_closed⟩
  | close_read record here =>
    have was := ordered.here here (by simp [rank])
    cases record with
    | true => exact ordered.exit rfl rfl rfl rfl
    | false => exact .of_straight .ptsname rfl (by simp [rank]) ⟨was.pty, was.comms_pipe, was.initialised,
      was.write_closed, rfl, was.threads, was.master_closed⟩
  | finish => exact ⟨nofun, ordered.pty, ordered.comms_pipe, fun _ _ => rfl⟩
  | reader_close threads once =>
    refine ⟨?_, ordered.pty, ordered.comms_pipe, ordered.destroyed⟩
    intro early
    rw [(ordered.straight early).threads] at threads
    cases threads
  | child child record grown =>
    refine ⟨?_, ordered.pty, ordered.comms_pipe, ordered.destroyed⟩
    intro early
    have was := ordered.straight early
    exact ⟨was.pty, was.comms_pipe, was.initialised, was.write_closed, was.read_closed, was.threads, was.master_closed⟩

theorem mem_owned {pair : Fd × Object} : pair ∈ owned index call ↔
    (∃ slave, call.pty = some (pair.1, slave) ∧ call.master_closed = false ∧ pair.2 = .master index) ∨
    (∃ master, call.pty = some (master, pair.1) ∧ pair.2 = .slave index) ∨
    (∃ write, call.comms_pipe = some (pair.1, write) ∧ call.read_closed = false ∧ pair.2 = .comm_read index) ∨
    (∃ read, call.comms_pipe = some (read, pair.1) ∧ call.write_closed = false ∧ pair.2 = .comm_write index) := by
  obtain ⟨fd, object⟩ := pair
  unfold owned
  rcases call.pty with _ | ⟨master, slave⟩ <;> rcases call.comms_pipe with _ | ⟨read, write⟩ <;>
    cases call.master_closed <;> cases call.read_closed <;> cases call.write_closed <;>
    simp [eq_comm, and_comm]

theorem owned_mine {pair : Fd × Object} (member : pair ∈ owned index call) : Mine index pair.2 := by
  rcases mem_owned.mp member with ⟨_, _, _, same⟩ | ⟨_, _, same⟩ | ⟨_, _, _, same⟩ | ⟨_, _, _, same⟩ <;> rw [same] <;> rfl

/-- The write end of the pipe is open under the number that `pipe` gave it. -/
theorem held_comm_write (holds : Holds (Mine index) (owned index call) table) {fd : Fd} {entry : Entry Object}
    (found : table fd = some entry) (own : entry.object = .comm_write index) : ∃ read, call.comms_pipe = some (read, fd) := by
  have mine := holds.only fd entry found (by rw [own]; rfl)
  rw [mem_owned, own] at mine
  rcases mine with ⟨_, _, _, wrong⟩ | ⟨_, _, wrong⟩ | ⟨_, _, _, wrong⟩ | ⟨read, same, _, _⟩
  · cases wrong
  · cases wrong
  · cases wrong
  · exact ⟨read, same⟩

/-- A call keeps its account, and leaves the descriptors of all others alone. -/
abbrev Accounts (index : Nat) (call' : Call) (table table' : Table Object) : Prop :=
  Holds (Mine index) (owned index call') table' ∧ Touches (Mine index) table table'

private theorem open_accounts (holds : Holds (Mine index) (owned index call) table) {first second : Fd}
    {object object' : Object} (free : Free platform table first second) (own : Mine index object)
    (own' : Mine index object')
    (grown : ∀ pair, pair ∈ owned index call' ↔
      pair = (second, object') ∨ pair = (first, object) ∨ pair ∈ owned index call) :
    Accounts index call' table ((table.install first object).install second object') := by
  obtain ⟨_, _, free, free', different⟩ := free
  have free'' : table.install first object second = none := (table.set_other _ different.symm).trans free'
  refine ⟨((holds.install object free).install object' free'').congr ?_, ?_⟩
  · intro pair
    rw [grown, List.mem_cons, List.mem_cons]
  · exact (Touches.install free own).trans (Touches.install free'' own')

private theorem close_accounts (holds : Holds (Mine index) (owned index call) table) {fd : Fd} (object : Object)
    (shrunk : ∀ pair, pair ∈ owned index call ↔ pair = (fd, object) ∨ pair ∈ owned index call')
    (once : ∀ pair ∈ owned index call', pair.2 ≠ object) :
    Accounts index call' table (table.close fd) := by
  have member : (fd, object) ∈ owned index call := (shrunk _).mpr (Or.inl rfl)
  have split : Holds (Mine index) ((fd, object) :: owned index call') table :=
    holds.congr fun pair => by rw [shrunk, List.mem_cons]
  refine ⟨split.close once, Touches.set ?_ nofun⟩
  intro current found
  cases (holds.present _ member).symm.trans found
  exact owned_mine member

theorem step_accounts (ordered : Ordered call) (holds : Holds (Mine index) (owned index call) table)
    (taken : call.step platform index table statement = some (call', table')) : Accounts index call' table table' := by
  cases step_stepped taken with
  | openpty master slave here free =>
    have was := ordered.here here (by simp [rank])
    have unopened : call.pty = none := Option.not_isSome_iff_eq_none.mp (by rw [was.pty]; simp [rank])
    refine open_accounts holds free (Eq.refl (some index)) (Eq.refl (some index)) ?_
    intro pair
    simp only [mem_owned, unopened, was.master_closed, Prod.ext_iff]
    grind
  | pipe read write here free =>
    have was := ordered.here here (by simp [rank])
    have unpiped : call.comms_pipe = none := Option.not_isSome_iff_eq_none.mp (by rw [was.comms_pipe]; simp [rank])
    have read_open : call.read_closed = false := was.read_closed
    have write_open : call.write_closed = false := was.write_closed
    refine open_accounts holds free (Eq.refl (some index)) (Eq.refl (some index)) ?_
    intro pair
    simp only [mem_owned, unpiped, read_open, write_open, Prod.ext_iff]
    grind
  | close_write error here =>
    have was := ordered.here here (by simp [rank])
    have write_open : call.write_closed = false := was.write_closed
    obtain ⟨⟨read, write⟩, pipe⟩ := Option.isSome_iff_exists.mp was.comms_pipe
    rw [pipe]
    refine close_accounts holds (.comm_write index) ?_ ?_
    · intro pair
      simp only [mem_owned, pipe, write_open, Prod.ext_iff]
      grind
    · intro pair member
      simp only [mem_owned] at member
      grind
  | close_read record here =>
    have was := ordered.here here (by simp [rank])
    have read_open : call.read_closed = false := was.read_closed
    obtain ⟨⟨read, write⟩, pipe⟩ := Option.isSome_iff_exists.mp was.comms_pipe
    rw [pipe]
    refine close_accounts holds (.comm_read index) ?_ ?_
    · intro pair
      simp only [mem_owned, pipe, read_open, Prod.ext_iff]
      grind
    · intro pair member
      simp only [mem_owned] at member
      grind
  | reader_close threads master_open =>
    cases opened : call.pty with
    | none =>
      refine ⟨holds.congr ?_, .refl table⟩
      intro pair
      simp only [mem_owned, opened]
      grind
    | some pty =>
      refine close_accounts holds (.master index) ?_ ?_
      · intro pair
        simp only [mem_owned, opened, master_open, Prod.ext_iff]
        grind
      · intro pair member
        simp only [mem_owned] at member
        grind
  | onward | done | prepare | posix_spawn | finish | child => exact ⟨holds, .refl table⟩

def Bounded (platform : Platform) (table : Table Object) : Prop :=
  ∀ fd entry, table fd = some entry → fd < platform.rlim_cur

private theorem bounded_set (bounded : Bounded platform table) {fd : Fd} {entry : Option (Entry Object)}
    (below : entry = none ∨ fd < platform.rlim_cur) : Bounded platform (table.set fd entry) := by
  intro other current found
  by_cases same : other = fd
  · subst other
    rw [Table.set_same] at found
    rcases below with blank | below
    · rw [blank] at found
      cases found
    · exact below
  · exact bounded other current ((table.set_other _ same).symm.trans found)

private theorem bounded_closeFd (bounded : Bounded platform table) (fd : Option Fd) : Bounded platform (closeFd table fd) := by
  cases fd with
  | none => exact bounded
  | some fd => exact bounded_set bounded (Or.inl rfl)

theorem step_bounded (bounded : Bounded platform table)
    (taken : call.step platform index table statement = some (call', table')) : Bounded platform table' := by
  cases step_stepped taken with
  | openpty _ _ _ free | pipe _ _ _ free => exact bounded_set (bounded_set bounded (Or.inr free.1)) (Or.inr free.2.1)
  | close_write | close_read | reader_close => exact bounded_closeFd bounded _
  | onward | done | prepare | posix_spawn | finish | child => exact bounded

/-- What is known of the table and the calls in every state of every run. -/
structure Plumbed (world : World) : Prop where
  bounded : Bounded world.platform world.table
  numbered : ∀ fd entry index, world.table fd = some entry → Mine index entry.object → index < world.calls.length
  ordered : ∀ (index : Nat) call, world.calls[index]? = some call → Ordered call
  holds : ∀ (index : Nat) call, world.calls[index]? = some call → Holds (Mine index) (owned index call) world.table

/-- The only ways a world moves: a new call, a statement of one, or something outside. -/
inductive Moved (world next : World) : Prop where
  | spawned (accepted closeFDs : Bool) (mask : Mask)
      (same : next = { world with calls := world.calls ++
        [{ accepted, closeFDs, initial := mask, pc := if accepted then .block else .returned }] })
  | moved (index : Nat) (statement : Statement) (call call' : Call) (table : Table Object)
      (found : world.calls[index]? = some call)
      (taken : call.step world.platform index world.table statement = some (call', table))
      (same : next = { world with table, calls := world.calls.set index call' })
  | outside (table : Table Object) (touches : Touches (fun object => object.call = none) world.table table)
      (bounded : Bounded world.platform world.table → Bounded world.platform table)
      (same : next = { world with table })

theorem step_moved {world next : World} {event : Event} (taken : world.step event = some next) : Moved world next := by
  cases event with
  | expty_spawn accepted closeFDs mask =>
    cases taken
    exact .spawned accepted closeFDs mask rfl
  | call index statement =>
    obtain ⟨call, found, taken⟩ := Option.bind_eq_some_iff.mp taken
    obtain ⟨⟨call', table⟩, moved, same⟩ := Option.map_eq_some_iff.mp taken
    exact .moved index statement call call' table found moved same.symm
  | open_other fd id cloexec =>
    simp only [World.step] at taken
    split at taken <;> cases taken
    next free =>
      refine .outside _ (Touches.set ?_ ?_) (fun bounded => bounded_set bounded (Or.inr free.1)) rfl
      · intro current found
        rw [free.2] at found
        cases found
      · intro current same
        cases same
        rfl
  | close_other fd =>
    simp only [World.step] at taken
    split at taken <;> cases taken
    next foreign =>
      refine .outside _ (Touches.set ?_ ?_) (fun bounded => bounded_set bounded (Or.inl rfl)) rfl
      · intro current found
        rw [found] at foreign
        exact of_decide_eq_true foreign
      · intro current same
        cases same

private theorem start_ordered (accepted closeFDs : Bool) (mask : Mask) :
    Ordered { accepted, closeFDs, initial := mask, pc := if accepted then .block else .returned } := by
  cases accepted with
  | true => exact .of_straight .block rfl (by simp [rank]) ⟨rfl, rfl, rfl, rfl, rfl, rfl, rfl⟩
  | false => exact ⟨fun early => absurd early (by simp [rank]), nofun, nofun, nofun⟩

theorem step_plumbed {world next : World} {event : Event} (plumbed : Plumbed world)
    (taken : world.step event = some next) : Plumbed next := by
  cases step_moved taken with
  | spawned accepted closeFDs mask same =>
    subst same
    refine ⟨plumbed.bounded, ?_, ?_, ?_⟩
    · intro fd entry index found own
      rw [List.length_append]
      exact Nat.lt_add_right 1 (plumbed.numbered fd entry index found own)
    · apply Slots.forall_append
      · exact fun index call _ found => plumbed.ordered index call found
      · exact start_ordered accepted closeFDs mask
    · apply Slots.forall_append
      · exact fun index call _ found => plumbed.holds index call found
      · refine ⟨fun pair member => absurd member (by simp [owned]), ?_⟩
        intro fd entry found own
        exact absurd (plumbed.numbered fd entry _ found own) (Nat.lt_irrefl _)
  | moved index statement call call' table found moved same =>
    subst same
    obtain ⟨holds, touches⟩ := step_accounts (plumbed.ordered index call found) (plumbed.holds index call found) moved
    refine ⟨step_bounded plumbed.bounded moved, ?_, ?_, ?_⟩
    · intro fd entry other present own
      rw [List.length_set]
      by_cases kept : table fd = world.table fd
      · exact plumbed.numbered fd entry other (kept.symm.trans present) own
      · have owner : entry.object.call = some index := (touches fd kept).2 entry present
        cases own.symm.trans owner
        exact (List.getElem?_eq_some_iff.mp found).1
    · exact Slots.forall_set found (step_ordered (plumbed.ordered index call found) moved)
        fun other current _ held => plumbed.ordered other current held
    · refine Slots.forall_set found holds ?_
      intro other current different held
      refine (plumbed.holds other current held).frame touches ?_ fun pair member => owned_mine member
      intro object own theirs
      exact different (Option.some.inj (theirs.symm.trans own))
  | outside table touches bounded same =>
    subst same
    refine ⟨bounded plumbed.bounded, ?_, plumbed.ordered, ?_⟩
    · intro fd entry index present own
      by_cases kept : table fd = world.table fd
      · exact plumbed.numbered fd entry index (kept.symm.trans present) own
      · have foreign : entry.object.call = none := (touches fd kept).2 entry present
        cases own.symm.trans foreign
    · intro index call held
      refine (plumbed.holds index call held).frame touches ?_ fun pair member => owned_mine member
      intro object own foreign
      cases own.symm.trans foreign

theorem start_plumbed (platform : Platform) : Plumbed { platform } := by
  refine ⟨?_, ?_, ?_, ?_⟩
  · intro fd entry found
    cases found
  · intro fd entry index found
    cases found
  · intro index call found
    cases found
  · intro index call found
    cases found

/-- A property of single calls that every statement keeps holds of all calls in every run. -/
theorem always_calls (platform : Platform) (property : Nat → Call → Prop)
    (fresh : ∀ index accepted closeFDs mask,
      property index { accepted, closeFDs, initial := mask, pc := if accepted then .block else .returned })
    (kept : ∀ world index call call' table statement, world.platform = platform → Plumbed world →
      world.calls[index]? = some call → property index call →
      call.step platform index world.table statement = some (call', table) → property index call')
    (events : List Event) :
    Always World.step (fun world => world.platform = platform ∧ Plumbed world ∧
      ∀ index call, world.calls[index]? = some call → property index call) { platform } events := by
  apply Always.of_invariant
  · intro world event next ⟨here, plumbed, holds⟩ taken
    refine ⟨?_, step_plumbed plumbed taken, ?_⟩
    · cases step_moved taken with
      | spawned _ _ _ same | moved _ _ _ _ _ _ _ same | outside _ _ _ same =>
        subst same
        exact here
    · cases step_moved taken with
      | spawned accepted closeFDs mask same =>
        subst same
        exact Slots.forall_append (fun index call _ found => holds index call found) (fresh _ accepted closeFDs mask)
      | moved index statement call call' table found moved same =>
        subst same
        refine Slots.forall_set found ?_ fun other current _ held => holds other current held
        rw [here] at moved
        exact kept world index call call' table statement here plumbed found (holds index call found) moved
      | outside table _ _ same =>
        subst same
        exact holds
  · refine ⟨rfl, start_plumbed platform, ?_⟩
    intro index call found
    cases found

end ExPTY.Proofs.DescriptorOwnership
