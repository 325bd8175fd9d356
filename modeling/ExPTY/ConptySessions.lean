import ExPTY.Runs
import ExPTY.Server

/-! All sessions of src/c_src/win/conpty.cc at once: the handles that `expty_spawn` numbers,
the named pipes behind them, and the threads that open the pipes by their names. What a
call waits for, and what a mutex does when a write fails, is left to the single writes. -/

namespace ExPTY.ConptySessions
open Server (Binary)

abbrev Name := List UInt16

/-- The process that spawned a session. -/
abbrev Pid := Nat

/-- A named pipe with its one instance. No server end is ever closed. -/
structure Pipe where
  name : Name
  /-- Whether a client has it open, which keeps others from opening it. -/
  client : Bool := false
  /-- All bytes written into it, and those that have not been read. -/
  written : Binary := []
  unread : Binary := []
  deriving DecidableEq, Repr

def Pipe.put (pipe : Pipe) (data : Binary) : Pipe :=
  { pipe with written := pipe.written ++ data, unread := pipe.unread ++ data }

@[simp] theorem Pipe.put_written (pipe : Pipe) (data : Binary) : (pipe.put data).written = pipe.written ++ data := rfl
@[simp] theorem Pipe.put_unread (pipe : Pipe) (data : Binary) : (pipe.put data).unread = pipe.unread ++ data := rfl

/-- `pty_baton`, with the places of its pipes. -/
structure Baton where
  id : BitVec 32
  process : Pid
  hIn : Nat
  hOut : Nat
  inName : Name
  outName : Name
  hRealIn : Option Nat := none
  write_ready : Bool := false
  /-- Whether `uv_mutex_init` has been called. -/
  mutex : Bool := false
  deriving DecidableEq, Repr

/-- A thread with the place of its baton, and the pipe that it has opened. -/
inductive Thread where
  -- `create_write_pipe` in its loop, and its two assignments
  | create_write_pipe (handle : Nat)
  | opened (handle pipe : Nat)
  | stored (handle : Nat)
  -- `read_data`, which never ends
  | read_data (handle : Nat)
  | reading (handle pipe : Nat)
  -- `expty_pty_connect` in its first `ConnectNamedPipe`
  | connecting (handle : Nat)
  | ended
  deriving DecidableEq, Repr

/-- `{:data, data}`. A message remembers its pipe only for the statements. -/
structure Message where
  process : Pid
  pipe : Nat
  data : Binary
  deriving DecidableEq, Repr

structure World where
  ptyCounter : BitVec 32 := 0
  ptyHandles : List Baton := []
  pipes : List Pipe := []
  threads : List Thread := []
  messages : List Message := []
  /-- The bytes that `WriteFile` took, with the id of the call. -/
  accepted : List (BitVec 32 × Binary) := []
  /-- The writes with a mutex or a handle that was never set. -/
  wild : Nat := 0
  deriving DecidableEq, Repr

/-- What comes of the steps of a spawn. It may fail before it makes a pipe, over its terms, its
shell or a missing `CreatePseudoConsole`, and a pipe may be refused whose name no other has. -/
structure Attempt where
  begins : Bool := true
  input : Bool := true
  output : Bool := true
  console : Bool := true
  allocated : Bool := true
  deriving DecidableEq, Repr

inductive Event where
  | expty_spawn (process : Pid) (pipeName : Name) (attempt : Attempt)
  | expty_pty_connect (id : BitVec 32)
  | expty_write (id : BitVec 32) (data : Binary) (dwWritten : Nat)
  | thread (index : Nat) (dwRead : Nat)
  -- the program behind a console prints
  | console (handle : Nat) (data : Binary)
  deriving DecidableEq, Repr

/-- `L"-in"` and `L"-out"` with their common front. -/
def pipe_name (pipeName kind : Name) : Name := [0x5C, 0x5C, 0x2E, 0x5C, 0x70, 0x69, 0x70, 0x65, 0x5C] ++ pipeName ++ 0x2D :: kind

namespace World

section Kernel

-- the kernel tells pipes apart by their names, up to letter case
variable (fold : Name → Name)

/-- `createDataServerPipe`, which fails where a pipe has the name (`FILE_FLAG_FIRST_PIPE_INSTANCE`)
and where the kernel has another reason to refuse it. -/
def createDataServerPipe (world : World) (granted : Bool) (name : Name) : Option World :=
  if !granted || world.pipes.any fun pipe => fold pipe.name = fold name then none
  else some { world with pipes := world.pipes ++ [{ name := name }] }

/-- `CreateFileW` on a pipe's name: the pipe that is opened, unless another client has it. -/
def open_pipe (world : World) (name : Name) : Option Nat :=
  match world.pipes.findIdx? fun pipe => fold pipe.name = fold name with
  | some place =>
    match world.pipes[place]? with
    | some pipe => if pipe.client then none else some place
    | none => none
  | none => none

end Kernel

def get_pty_baton (world : World) (id : BitVec 32) : Option Nat := world.ptyHandles.findIdx? fun baton => baton.id = id

def set_pipe (world : World) (place : Nat) (pipe : Pipe) : World := { world with pipes := world.pipes.set place pipe }

def set_baton (world : World) (handle : Nat) (baton : Baton) : World :=
  { world with ptyHandles := world.ptyHandles.set handle baton }

def set_thread (world : World) (index : Nat) (thread : Thread) : World :=
  { world with threads := world.threads.set index thread }

/-- The client's end of a pipe is taken. -/
def connect (world : World) (place : Nat) : World :=
  match world.pipes[place]? with
  | some pipe => world.set_pipe place { pipe with client := true }
  | none => world

def send (world : World) (place : Nat) (data : Binary) : World :=
  match world.pipes[place]? with
  | some pipe => world.set_pipe place (pipe.put data)
  | none => world

variable (fold : Name → Name)

/-- `expty_spawn`, which leaves the pipes of a failed spawn where they are. -/
def expty_spawn (world : World) (process : Pid) (pipeName : Name) (attempt : Attempt) : World :=
  let inName := pipe_name pipeName [0x69, 0x6E]
  let outName := pipe_name pipeName [0x6F, 0x75, 0x74]
  if attempt.begins then
    match world.createDataServerPipe fold attempt.input inName with
    | none => world
    | some first =>
      match first.createDataServerPipe fold attempt.output outName with
      | none => first
      | some second =>
        if attempt.console then
          let ptyId := world.ptyCounter + 1
          let counted := { second with ptyCounter := ptyId }
          if attempt.allocated then
            { counted with
              ptyHandles := world.ptyHandles ++
                [{ id := ptyId, process, hIn := world.pipes.length, hOut := world.pipes.length + 1, inName, outName }] }
          else counted
        else second
  else world

/-- `expty_pty_connect`, as far as its two threads. -/
def expty_pty_connect (world : World) (id : BitVec 32) : World :=
  match world.get_pty_baton id with
  | none => world
  | some handle =>
    match world.ptyHandles[handle]? with
    | none => world
    | some baton =>
      let ready := world.set_baton handle { baton with mutex := true }
      { ready with threads := world.threads ++ [.create_write_pipe handle] ++ [.connecting handle] }

/-- `expty_write`, whose `WriteFile` takes the first `dwWritten` bytes. -/
def expty_write (world : World) (id : BitVec 32) (data : Binary) (dwWritten : Nat) : World :=
  match world.get_pty_baton id with
  | none => world
  | some handle =>
    match world.ptyHandles[handle]? with
    | none => world
    | some baton =>
      if baton.write_ready then
        match baton.mutex, baton.hRealIn with
        | true, some pipe =>
          { world.send pipe (data.take dwWritten) with accepted := world.accepted ++ [(id, data.take dwWritten)] }
        | _, _ => { world with wild := world.wild + 1 }
      else world

/-- A step of a thread, unless it has to wait. -/
def advance (world : World) (index dwRead : Nat) : Thread → Option World
  | .create_write_pipe handle =>
    match world.ptyHandles[handle]? with
    | none => none
    | some baton =>
      if baton.write_ready then some (world.set_thread index .ended)
      else (world.open_pipe fold baton.inName).map fun pipe => (world.connect pipe).set_thread index (.opened handle pipe)
  | .opened handle pipe =>
    (world.ptyHandles[handle]?).map fun baton =>
      (world.set_baton handle { baton with hRealIn := some pipe }).set_thread index (.stored handle)
  | .stored handle =>
    (world.ptyHandles[handle]?).map fun baton =>
      (world.set_baton handle { baton with write_ready := true }).set_thread index .ended
  | .connecting handle =>
    match world.ptyHandles[handle]? with
    | none => none
    | some baton =>
      match world.pipes[baton.hIn]? with
      | some pipe => if pipe.client then some (world.set_thread index (.read_data handle)) else none
      | none => none
  | .read_data handle =>
    match world.ptyHandles[handle]? with
    | none => none
    | some baton =>
      (world.open_pipe fold baton.outName).map fun pipe => (world.connect pipe).set_thread index (.reading handle pipe)
  | .reading handle place =>
    match world.ptyHandles[handle]?, world.pipes[place]? with
    | some baton, some pipe =>
      if 0 < dwRead ∧ dwRead ≤ 1024 ∧ dwRead ≤ pipe.unread.length then
        some
          { world.set_pipe place { pipe with unread := pipe.unread.drop dwRead } with
            messages := world.messages ++ [{ process := baton.process, pipe := place, data := pipe.unread.take dwRead }] }
      else none
    | _, _ => none
  | .ended => none

def step (world : World) : Event → Option World
  | .expty_spawn process pipeName attempt => some (world.expty_spawn fold process pipeName attempt)
  | .expty_pty_connect id => some (world.expty_pty_connect id)
  | .expty_write id data dwWritten => some (world.expty_write id data dwWritten)
  | .thread index dwRead => (world.threads[index]?).bind (world.advance fold index dwRead)
  | .console handle data => (world.ptyHandles[handle]?).map fun baton => world.send baton.hOut data

end World

end ExPTY.ConptySessions
