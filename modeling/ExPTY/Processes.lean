import ExPTY.Runs

/-! The threads of src/c_src/unix/pty.cpp that know a child by its pid: `expty_spawn`
from `posix_spawn` on, the waiter, the reader, `expty_kill` and the destructor. Each
statement that another thread could notice is one step, and an operation on the map
`processes` is atomic. The kernel gives a pid away again once `waitpid` has reaped it. -/

namespace ExPTY.Processes

abbrev Pid := Nat

/-- The process behind a pid: the child of one session, or none of the library's. -/
inductive Owner where
  | child (session : Nat)
  | foreign
  deriving DecidableEq, Repr

/-- `expty_spawn` after `posix_spawn`. It ends in an error or in a session. -/
inductive Spawner where
  | launched | failed | waiter_created | reader_created | returned
  deriving DecidableEq, Repr

/-- `pty_waitpid`. An interrupted `waitpid` is called again and stays at `waiting`. -/
inductive Waiter where
  | absent | waiting | reaped | sent | erased
  deriving DecidableEq, Repr

/-- `waitpid` has returned, so the pid is free. -/
def Waiter.returned : Waiter → Bool
  | .absent | .waiting => false
  | .reaped | .sent | .erased => true

/-- `pty_pipesocket_fn`, of which only the end-of-file branch sends a signal. -/
inductive Reader where
  | absent | reading | fd_closed | finished
  deriving DecidableEq, Repr

structure Session where
  pid : Pid
  ended : Bool := false
  spawner : Spawner := .launched
  waiter : Waiter := .absent
  reader : Reader := .absent
  /-- `expty_kill` has sent its signal and not yet erased the entry. -/
  killing : Bool := false
  deriving DecidableEq, Repr

/-- A call of `kill(2)` on behalf of a session, and the process it reached. -/
structure Kill where
  session : Nat
  signal : Int
  target : Option Owner
  deriving DecidableEq, Repr

def SIGHUP : Int := 1
def SIGKILL : Int := 9
def SIGTERM : Int := 15

structure World where
  kernel : Pid → Option Owner := fun _ => none
  sessions : List Session := []
  processes : List (Pid × Nat) := []
  /-- The destructor, once it runs, and the key it has visited last. -/
  cleanup : Option (Option Pid) := none
  kills : List Kill := []

inductive Event where
  | posix_spawn (pid : Pid)
  | helper_error (session : Nat)
  | late_error (session : Nat)
  | create_waiter (session : Nat)
  | create_reader (session : Nat)
  | register (session : Nat)
  | child_exit (session : Nat)
  | waitpid (session : Nat)
  | send_exit (session : Nat)
  | waiter_erase (session : Nat)
  | end_of_file (session : Nat)
  | hangup (session : Nat)
  | kill (session : Nat) (signal : Int)
  | kill_erase (session : Nat)
  | cleanup
  | cleanup_next (pid : Pid)
  | foreign_spawn (pid : Pid)
  | foreign_exit (pid : Pid)
  deriving DecidableEq, Repr

namespace World

def setKernel (world : World) (pid : Pid) (owner : Option Owner) : World :=
  { world with kernel := fun other => if other = pid then owner else world.kernel other }

def setSession (world : World) (index : Nat) (session : Session) : World :=
  { world with sessions := world.sessions.set index session }

/-- `kill(pid, signal)` -/
def signal (world : World) (index : Nat) (pid : Pid) (signal : Int) : World :=
  { world with kills := world.kills ++ [⟨index, signal, world.kernel pid⟩] }

/-- `processes.erase(pid)` -/
def erase (world : World) (pid : Pid) : World :=
  { world with processes := world.processes.filter fun entry => entry.1 ≠ pid }

/-- `processes[pid] = pipesocket` -/
def insert (world : World) (pid : Pid) (index : Nat) : World :=
  { world with processes := (pid, index) :: (world.erase pid).processes }

/-- The destructor walks the map in the order of its keys. -/
def IsNext (world : World) (last : Option Pid) (pid : Pid) : Prop :=
  (∀ visited ∈ last, visited < pid) ∧
    ∀ entry ∈ world.processes, (∀ visited ∈ last, visited < entry.1) → pid ≤ entry.1

instance (world : World) (last : Option Pid) (pid : Pid) : Decidable (world.IsNext last pid) :=
  inferInstanceAs (Decidable (_ ∧ _))

/-- A step of one session's threads, which is ready only in some of its states. -/
def within (world : World) (index : Nat) (ready : Session → Bool) (act : Session → World) : Option World :=
  world.sessions[index]?.bind fun session => if ready session then some (act session) else none

def step (world : World) : Event → Option World
  | .posix_spawn pid =>
    if world.kernel pid = none then
      some { world.setKernel pid (some (.child world.sessions.length)) with
        sessions := world.sessions ++ [{ pid := pid }] }
    else none
  -- the comm pipe held an error record, and the child is left to itself
  | .helper_error index => world.within index (·.spawner = .launched) fun session =>
      world.setSession index { session with spawner := .failed }
  -- `ptsname` or `pty_nonblock` failed
  | .late_error index => world.within index (·.spawner = .launched) fun session =>
      (world.signal index session.pid SIGKILL).setSession index { session with spawner := .failed }
  | .create_waiter index => world.within index (·.spawner = .launched) fun session =>
      world.setSession index { session with spawner := .waiter_created, waiter := .waiting }
  | .create_reader index => world.within index (·.spawner = .waiter_created) fun session =>
      world.setSession index { session with spawner := .reader_created, reader := .reading }
  | .register index => world.within index (·.spawner = .reader_created) fun session =>
      (world.insert session.pid index).setSession index { session with spawner := .returned }
  | .child_exit index => world.within index (!·.ended) fun session =>
      world.setSession index { session with ended := true }
  | .waitpid index => world.within index (fun session => session.waiter = .waiting ∧ session.ended) fun session =>
      (world.setKernel session.pid none).setSession index { session with waiter := .reaped }
  | .send_exit index => world.within index (·.waiter = .reaped) fun session =>
      world.setSession index { session with waiter := .sent }
  | .waiter_erase index => world.within index (·.waiter = .sent) fun session =>
      (world.erase session.pid).setSession index { session with waiter := .erased }
  | .end_of_file index => world.within index (·.reader = .reading) fun session =>
      world.setSession index { session with reader := .fd_closed }
  | .hangup index => world.within index (·.reader = .fd_closed) fun session =>
      (world.signal index session.pid SIGHUP).setSession index { session with reader := .finished }
  -- any other signal number is answered with an error
  | .kill index signal =>
    world.within index (fun session => session.spawner = .returned ∧ !session.killing ∧ signal > 0) fun session =>
      (world.signal index session.pid signal).setSession index { session with killing := true }
  | .kill_erase index => world.within index (·.killing) fun session =>
      (world.erase session.pid).setSession index { session with killing := false }
  | .cleanup => if world.cleanup = none then some { world with cleanup := some none } else none
  | .cleanup_next pid =>
    match world.cleanup, world.processes.lookup pid with
    | some last, some index =>
      if world.IsNext last pid then some { world.signal index pid SIGTERM with cleanup := some (some pid) } else none
    | _, _ => none
  | .foreign_spawn pid => if world.kernel pid = none then some (world.setKernel pid (some .foreign)) else none
  | .foreign_exit pid => if world.kernel pid = some .foreign then some (world.setKernel pid none) else none

end World

end ExPTY.Processes
