import ExPTY.NativeCalls

/-! One Unix session's master descriptor, as the reader thread and any number of native
calls share it. The reader closes it at end of file, and from then on the kernel may
give its number to another file at any time. -/

namespace ExPTY.SharedDescriptor
open NativeCalls
open Termios (Header)
open Server (Binary)

/-- What the descriptor number stands for. -/
inductive File where
  | master | closed
  | other (file : Nat)
  deriving DecidableEq, Repr

/-- `pty_pipesocket_fn`, of which only the end of file matters to the other threads. -/
inductive Reader where
  | reading | fd_closed | closed | finished
  deriving DecidableEq, Repr

/-- A system call that a native call made on the number, and what a write got accepted. -/
structure Use (header : Header) where
  call : Syscall header
  file : File
  accepted : Binary := []

structure World (header : Header) where
  file : File := .master
  fd_closed : Bool := false
  reader : Reader := .reading
  /-- `pty_pipesocket.mutex`, by the call that holds it. -/
  mutex : Option Nat := none
  calls : List (Call header) := []
  uses : List (Use header) := []

inductive Event (header : Header) where
  | end_of_file
  | close
  | hangup
  | reopen (file : Nat)
  | release
  | call (call : Server.Nif.Call)
  | advance (index : Nat) (kernel : Kernel header)

variable {header : Header}

namespace World

def setCall (world : World header) (index : Nat) (call : Call header) : World header :=
  { world with calls := world.calls.set index call }

def perform (world : World header) (index : Nat) (kernel : Kernel header) : Action header → Option (World header)
  | .check after => some (world.setCall index (after world.fd_closed))
  | .lock after => if world.mutex = none then some { world.setCall index after with mutex := some index } else none
  | .unlock after => some { world.setCall index after with mutex := none }
  | .system call after =>
    if Bounded kernel call then
      some { world.setCall index (after kernel) with
        uses := world.uses ++ [{ call, file := world.file, accepted := accepted kernel call }] }
    else none

def step (world : World header) : Event header → Option (World header)
  | .end_of_file => if world.reader = .reading then some { world with reader := .fd_closed, fd_closed := true } else none
  | .close => if world.reader = .fd_closed then some { world with reader := .closed, file := .closed } else none
  | .hangup => if world.reader = .closed then some { world with reader := .finished } else none
  | .reopen file => if world.file = .closed then some { world with file := .other file } else none
  | .release => match world.file with
    | .other _ => some { world with file := .closed }
    | _ => none
  | .call call => (NativeCalls.start call).map fun call => { world with calls := world.calls ++ [call] }
  | .advance index kernel => world.calls[index]?.bind fun call => call.next.bind (world.perform index kernel)

end World

end ExPTY.SharedDescriptor
