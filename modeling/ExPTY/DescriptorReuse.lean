import ExPTY.Descriptors
import ExPTY.SharedDescriptor

/-! All Unix sessions of a process on its one descriptor table. A session knows its master
by the number only, the kernel gives every new file the lowest free number, and the reader
of a session closes its number for whatever file is there. -/

namespace ExPTY.DescriptorReuse
open Descriptors (Fd Table)
open NativeCalls
open SharedDescriptor (Reader)
open Server (Binary)
open Termios (Header)

/-- A `pty_pipesocket` with its threads, and the file that `openpty` opened for it. -/
structure Session (header : Header) where
  fd : Fd
  master : Nat
  fd_closed : Bool := false
  reader : Reader := .reading
  mutex : Option Nat := none
  calls : List (Call header) := []

/-- A system call on a session's number, and the file that was there. -/
structure Use (header : Header) where
  session : Nat
  call : Syscall header
  file : Option Nat
  accepted : Binary

/-- A `read` or a `close` of a session's reader. -/
structure Touch where
  session : Nat
  file : Option Nat
  deriving DecidableEq, Repr

structure World (header : Header) where
  table : Table Nat := fun _ => none
  /-- How many files have been opened, each one known by its number in that order. -/
  opened : Nat := 0
  sessions : List (Session header) := []
  uses : List (Use header) := []
  touches : List Touch := []

inductive Event (header : Header) where
  -- `expty_spawn`, and all other code of the process
  | spawn (fd : Fd)
  | opens (fd : Fd)
  | closes (fd : Fd)
  -- `pty_pipesocket_fn`
  | read (index : Nat)
  | end_of_file (index : Nat)
  | close_master (index : Nat)
  | hangup (index : Nat)
  -- the native calls
  | call (index : Nat) (call : Server.Nif.Call)
  | advance (index call : Nat) (kernel : Kernel header)

variable {header : Header}

namespace Session

def setCall (session : Session header) (index : Nat) (call : Call header) : Session header :=
  { session with calls := session.calls.set index call }

end Session

namespace World

def file (world : World header) (fd : Fd) : Option Nat := (world.table fd).map (·.object)

def set (world : World header) (index : Nat) (session : Session header) : World header :=
  { world with sessions := world.sessions.set index session }

def touch (world : World header) (index : Nat) (session : Session header) : World header :=
  { world with touches := world.touches ++ [{ session := index, file := world.file session.fd }] }

def install (world : World header) (fd : Fd) : World header :=
  { world with table := world.table.install fd world.opened, opened := world.opened + 1 }

/-- Whether a file is the master of a session. -/
def masters (world : World header) (file : Nat) : Bool := world.sessions.any fun session => session.master = file

def perform (world : World header) (index : Nat) (session : Session header) (call : Nat) (kernel : Kernel header) :
    Action header → Option (World header)
  | .check after => some (world.set index (session.setCall call (after session.fd_closed)))
  | .lock after =>
    if session.mutex = none then some (world.set index { session.setCall call after with mutex := some call }) else none
  | .unlock after => some (world.set index { session.setCall call after with mutex := none })
  | .system syscall after =>
    if Bounded kernel syscall then
      some { world.set index (session.setCall call (after kernel)) with
        uses := world.uses ++
          [{ session := index, call := syscall, file := world.file session.fd, accepted := accepted kernel syscall }] }
    else none

/-- A step of one session. -/
def move (world : World header) (index : Nat) (session : Session header) : Event header → Option (World header)
  | .read _ => if session.reader = .reading then some (world.touch index session) else none
  | .end_of_file _ =>
    if session.reader = .reading then some (world.set index { session with reader := .fd_closed, fd_closed := true })
    else none
  | .close_master _ =>
    if session.reader = .fd_closed then
      some { (world.touch index session).set index { session with reader := .closed } with
        table := world.table.close session.fd }
    else none
  | .hangup _ => if session.reader = .closed then some (world.set index { session with reader := .finished }) else none
  | .call _ call =>
    (NativeCalls.start call).map fun call => world.set index { session with calls := session.calls ++ [call] }
  | .advance _ call kernel =>
    session.calls[call]?.bind fun current => current.next.bind (world.perform index session call kernel)
  | _ => none

def step (world : World header) (event : Event header) : Option (World header) :=
  match event with
  | .spawn fd =>
    if world.table.lowest fd then
      some { world.install fd with sessions := world.sessions ++ [{ fd, master := world.opened }] }
    else none
  | .opens fd => if world.table.lowest fd then some (world.install fd) else none
  -- nothing but a reader closes a master
  | .closes fd =>
    match world.file fd with
    | some file => if world.masters file then none else some { world with table := world.table.close fd }
    | none => none
  | .read index | .end_of_file index | .close_master index | .hangup index | .call index _ | .advance index _ _ =>
    world.sessions[index]?.bind fun session => world.move index session event

end World

end ExPTY.DescriptorReuse
