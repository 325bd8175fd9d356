import ExPTY.Descriptors
import ExPTY.Runs

/-! What `expty_spawn` of src/c_src/unix/pty.cpp takes and gives back, statement by
statement, with any number of calls in progress on different threads, the helpers they
start, and the rest of the VM opening and closing descriptors of its own. A helper works
on the copy of the table that `posix_spawn` made for it. -/

namespace ExPTY.Spawning
open Descriptors

def STDIN_FILENO : Fd := 0
def STDOUT_FILENO : Fd := 1
def STDERR_FILENO : Fd := 2
def COMM_PIPE_FD : Fd := STDERR_FILENO + 1

abbrev Mask := Nat → Bool

def sigfillset : Mask := fun _ => true

/-- What a descriptor refers to. A call owns the objects that carry its number. -/
inductive Object where
  | master (call : Nat)
  | slave (call : Nat)
  | comm_read (call : Nat)
  | comm_write (call : Nat)
  | other (id : Nat)
  deriving DecidableEq, Repr

def Object.call : Object → Option Nat
  | .master call | .slave call | .comm_read call | .comm_write call => some call
  | .other _ => none

structure Platform where
  /-- `HAVE_POSIX_SPAWN_CLOEXEC_DEFAULT` -/
  cloexecDefault : Bool
  rlim_cur : Nat
  deriving DecidableEq, Repr

inductive Pc where
  | block | openpty | pipe | prepare | alloc_pipesocket | alloc_process | spawn
  | close_write (error : Bool) | unblock (error : Bool)
  | read | close_read (record : Bool)
  | ptsname | nonblock | register | finish | returned
  deriving DecidableEq, Repr

/-- The process that a call starts: the helper at its steps, then the program. -/
inductive Child where
  | absent
  | started (table : Table Object)
  | marked (table : Table Object)
  | closed (table : Table Object)
  | program (table : Table Object)
  | bailed | zombie | reaped

inductive Result where
  | error | session
  deriving DecidableEq, Repr

structure Call where
  accepted : Bool
  closeFDs : Bool
  initial : Mask
  mask : Mask := initial
  pc : Pc := .block
  pty : Option (Fd × Fd) := none
  comms_pipe : Option (Fd × Fd) := none
  master_closed : Bool := false
  read_closed : Bool := false
  write_closed : Bool := false
  initialised : Bool := false
  destroyed : Bool := false
  child : Child := .absent
  record : Bool := false
  killed : Bool := false
  threads : Bool := false
  result : Result := .error

def Call.acts (call : Call) : List Action :=
  match call.pty, call.comms_pipe with
  | some (_, slave), some (_, write) =>
    [.dup2 slave STDIN_FILENO, .dup2 slave STDOUT_FILENO, .dup2 slave STDERR_FILENO, .dup2 write COMM_PIPE_FD,
      .close write]
  | _, _ => []

/-- The statements of a call, its threads and its child, with their outcomes. -/
inductive Statement where
  | block
  | openpty (outcome : Option (Fd × Fd))
  | pipe (outcome : Option (Fd × Fd))
  | prepare
  | alloc_pipesocket (succeeds : Bool)
  | alloc_process (succeeds : Bool)
  | posix_spawn (succeeds : Bool)
  | close_write
  | unblock
  | read (record : Bool)
  | close_read
  | ptsname (succeeds : Bool)
  | pty_nonblock (succeeds : Bool)
  | register
  | finish
  | reader_close
  | waitpid
  | helper_cloexec
  | helper_close
  | helper_exec
  | helper_bail
  | child_exit
  deriving DecidableEq, Repr

/-- The descriptors that the helper closes when it is told to. -/
def closing (rlim_cur : Nat) : List Fd :=
  (List.range' (STDERR_FILENO + 1) (rlim_cur - (STDERR_FILENO + 1))).filter fun fd => fd ≠ COMM_PIPE_FD

/-- Two numbers that a call making two descriptors may return. -/
def Free (platform : Platform) (table : Table Object) (first second : Fd) : Prop :=
  first < platform.rlim_cur ∧ second < platform.rlim_cur ∧ table first = none ∧ table second = none ∧ first ≠ second

instance (platform : Platform) (table : Table Object) (first second : Fd) :
    Decidable (Free platform table first second) := inferInstanceAs (Decidable (_ ∧ _))

def closeFd (table : Table Object) (fd : Option Fd) : Table Object := fd.elim table table.close

def Call.step (platform : Platform) (index : Nat) (table : Table Object) (call : Call) :
    Statement → Option (Call × Table Object)
  | .block => if call.pc = .block then some ({ call with mask := sigfillset, pc := .openpty }, table) else none
  | .openpty none => if call.pc = .openpty then some ({ call with pc := .finish }, table) else none
  | .openpty (some (master, slave)) =>
    if call.pc = .openpty ∧ Free platform table master slave then
      some ({ call with pty := some (master, slave), pc := .pipe },
        (table.install master (.master index)).install slave (.slave index))
    else none
  | .pipe none => if call.pc = .pipe then some ({ call with pc := .finish }, table) else none
  | .pipe (some (read, write)) =>
    if call.pc = .pipe ∧ Free platform table read write then
      some ({ call with comms_pipe := some (read, write), pc := .prepare },
        (table.install read (.comm_read index)).install write (.comm_write index))
    else none
  | .prepare =>
    if call.pc = .prepare then some ({ call with initialised := true, pc := .alloc_pipesocket }, table) else none
  | .alloc_pipesocket succeeds =>
    if call.pc = .alloc_pipesocket then
      some ({ call with pc := if succeeds then .alloc_process else .finish }, table)
    else none
  | .alloc_process succeeds =>
    if call.pc = .alloc_process then some ({ call with pc := if succeeds then .spawn else .finish }, table) else none
  | .posix_spawn false => if call.pc = .spawn then some ({ call with pc := .close_write true }, table) else none
  | .posix_spawn true =>
    if call.pc = .spawn then
      (table.posix_spawn call.acts (call.closeFDs && platform.cloexecDefault)).map fun child =>
        ({ call with child := .started child, pc := .close_write false }, table)
    else none
  | .close_write =>
    match call.pc with
    | .close_write error =>
      some ({ call with write_closed := true, pc := .unblock error }, closeFd table (call.comms_pipe.map Prod.snd))
    | _ => none
  | .unblock =>
    match call.pc with
    | .unblock error => some ({ call with mask := call.initial, pc := if error then .finish else .read }, table)
    | _ => none
  | .read record =>
    if call.pc = .read ∧ (record → call.record) then some ({ call with pc := .close_read record }, table) else none
  | .close_read =>
    match call.pc with
    | .close_read record =>
      some ({ call with read_closed := true, pc := if record then .finish else .ptsname },
        closeFd table (call.comms_pipe.map Prod.fst))
    | _ => none
  | .ptsname true => if call.pc = .ptsname then some ({ call with result := .session, pc := .nonblock }, table) else none
  | .ptsname false => if call.pc = .ptsname then some ({ call with killed := true, pc := .finish }, table) else none
  | .pty_nonblock true => if call.pc = .nonblock then some ({ call with pc := .register }, table) else none
  | .pty_nonblock false =>
    if call.pc = .nonblock then some ({ call with result := .error, killed := true, pc := .finish }, table) else none
  | .register => if call.pc = .register then some ({ call with threads := true, pc := .finish }, table) else none
  -- `done:` is reached from every exit and destroys `acts` and `attrs` on each
  | .finish => if call.pc = .finish then some ({ call with destroyed := true, pc := .returned }, table) else none
  | .reader_close =>
    if call.threads ∧ !call.master_closed then
      some ({ call with master_closed := true }, closeFd table (call.pty.map Prod.fst))
    else none
  | .waitpid =>
    match call.threads, call.child with
    | true, .zombie => some ({ call with child := .reaped }, table)
    | _, _ => none
  | .helper_cloexec =>
    match call.child with
    | .started own => some ({ call with child := .marked (own.setCloexec COMM_PIPE_FD) }, table)
    | _ => none
  | .helper_close =>
    match call.child with
    | .marked own =>
      let explicitlyCloseFDs := call.closeFDs && !platform.cloexecDefault
      some ({ call with child := .closed (if explicitlyCloseFDs then own.closeAll (closing platform.rlim_cur) else own) },
        table)
    | _ => none
  | .helper_exec =>
    match call.child with
    | .closed own => some ({ call with child := .program own.exec }, table)
    | _ => none
  | .helper_bail =>
    match call.child with
    | .marked _ | .closed _ => some ({ call with child := .bailed, record := true }, table)
    | _ => none
  | .child_exit =>
    match call.child with
    | .absent | .zombie | .reaped => none
    | _ => some ({ call with child := .zombie }, table)

structure World where
  platform : Platform
  table : Table Object := fun _ => none
  calls : List Call := []

inductive Event where
  | expty_spawn (accepted closeFDs : Bool) (mask : Mask)
  | call (index : Nat) (statement : Statement)
  -- the rest of the VM
  | open_other (fd : Fd) (id : Nat) (cloexec : Bool)
  | close_other (fd : Fd)

def World.step (world : World) : Event → Option World
  | .expty_spawn accepted closeFDs mask =>
    let call : Call := { accepted, closeFDs, initial := mask, pc := if accepted then .block else .returned }
    some { world with calls := world.calls ++ [call] }
  | .call index statement =>
    world.calls[index]?.bind fun call =>
      (call.step world.platform index world.table statement).map fun (call, table) =>
        { world with table, calls := world.calls.set index call }
  | .open_other fd id cloexec =>
    if fd < world.platform.rlim_cur ∧ world.table fd = none then
      some { world with table := world.table.set fd (some { object := .other id, cloexec }) }
    else none
  | .close_other fd =>
    if (world.table fd).any fun entry => entry.object.call = none then
      some { world with table := world.table.close fd }
    else none

end ExPTY.Spawning
