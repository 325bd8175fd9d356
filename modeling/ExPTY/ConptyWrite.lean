import ExPTY.NativeCalls

/-! Writes to Windows consoles: `expty_write` and `pty_baton::write` of
src/c_src/win/conpty.cc, on any number of threads and handles. The mutex of a handle is a
critical section, which the thread that is in it may enter again. -/

namespace ExPTY.ConptyWrite
open NativeCalls (is_int)
open Server (Binary Reply Term)

/-- `uv_mutex_t`, by the thread that is in it and how often that thread has entered again. -/
inductive Mutex where
  | free
  | held (thread again : Nat)
  deriving DecidableEq, Repr

namespace Mutex

/-- `uv_mutex_lock`, which waits where there is no next state. -/
def lock (thread : Nat) : Mutex → Option Mutex
  | .free => some (.held thread 0)
  | .held owner again => if owner = thread then some (.held owner (again + 1)) else none

/-- `uv_mutex_unlock`, which only the thread that is in the mutex may call. -/
def unlock (thread : Nat) : Mutex → Option Mutex
  | .free => none
  | .held owner again =>
    if owner = thread then some (if again = 0 then .free else .held owner (again - 1)) else none

end Mutex

/-- `pty_baton`. Its flag is set by `create_write_pipe`. -/
structure Baton where
  id : Int
  write_ready : Bool := false
  mutex : Mutex := .free
  deriving DecidableEq, Repr

/-- Where a call is, with the place of its handle in `ptyHandles`. A call that has come to
`WriteFile` returns with what it answers and how many bytes were really accepted. -/
inductive Phase where
  | entered (handle : Nat)
  | locking (handle : Nat)
  | writing (handle : Nat)
  | returned (reply : Reply) (accepted : Nat)
  | refused (reason : String)
  deriving DecidableEq, Repr

def Phase.finished : Phase → Bool
  | .returned _ _ | .refused _ => true
  | .entered _ | .locking _ | .writing _ => false

structure Call where
  thread : Nat
  data : Binary
  phase : Phase
  deriving DecidableEq, Repr

namespace Call

def move (call : Call) (phase : Phase) : Call := { call with phase }

/-- The end of `expty_write`, after `handle->write`. -/
def reply (call : Call) (nbytes : Nat) : Reply := if nbytes = call.data.length then .ok else .accepted nbytes

/-- The length that `WriteFile` takes is a `DWORD`. -/
def asked (call : Call) : Nat := call.data.length % 0x100000000

end Call

/-- What `WriteFile` does, with the number of bytes that the pipe has taken. -/
inductive WriteFile where
  | succeeded (dwWritten : Nat)
  | failed (taken : Nat)
  deriving DecidableEq, Repr

def WriteFile.taken : WriteFile → Nat
  | .succeeded dwWritten => dwWritten
  | .failed taken => taken

structure World where
  ptyHandles : List Baton := []
  calls : List Call := []
  deriving DecidableEq, Repr

/-- A thread runs one call at a time. A step of a call is its look at `write_ready`, the lock,
or `WriteFile` with all that comes after it. -/
inductive Event where
  | expty_spawn (id : Int)
  | create_write_pipe (handle : Nat)
  | expty_write (thread : Nat) (pty : Term) (data : Option Binary)
  | advance (index : Nat)
  | WriteFile (index : Nat) (result : WriteFile)
  deriving DecidableEq, Repr

namespace World
variable (world : World)

def get_pty_baton (id : Int) : Option Nat := world.ptyHandles.findIdx? fun baton => baton.id = id

def idle (thread : Nat) : Prop := ∀ call ∈ world.calls, call.thread = thread → call.phase.finished = true

instance (thread : Nat) : Decidable (world.idle thread) := List.decidableBAll _ _

def setCall (index : Nat) (call : Call) : World := { world with calls := world.calls.set index call }

def setBaton (handle : Nat) (baton : Baton) : World := { world with ptyHandles := world.ptyHandles.set handle baton }

/-- `expty_write` up to `handle->write`. The data is absent where it is no binary and no
iovec. -/
def expty_write (thread : Nat) (pty : Term) (data : Option Binary) : Call :=
  let refused reason : Call := { thread, data := [], phase := .refused reason }
  match pty with
  | .integer pty_id =>
    if is_int pty_id then
      match world.get_pty_baton pty_id, data with
      | none, _ => refused "Invalid pty handle"
      | some _, none => refused "ExPTY.write/2 expects the second argument to be binary or iovec(s)"
      | some handle, some data => { thread, data, phase := .entered handle }
    else refused "Cannot get pipesocket resource"
  | _ => refused "Cannot get pipesocket resource"

/-- The two statements of `pty_baton::write` before `WriteFile`. -/
def advance (index : Nat) (call : Call) : Option World :=
  match call.phase with
  | .entered handle => do
    let baton ← world.ptyHandles[handle]?
    let phase : Phase := if baton.write_ready then .locking handle else .returned (call.reply 0) 0
    return world.setCall index (call.move phase)
  | .locking handle => do
    let baton ← world.ptyHandles[handle]?
    let mutex ← baton.mutex.lock call.thread
    return (world.setBaton handle { baton with mutex }).setCall index (call.move (.writing handle))
  | .writing _ | .returned _ _ | .refused _ => none

/-- A failure returns before the unlock. The call meets no other thread between the end of a
`WriteFile` that succeeds and the unlock. -/
def write_file (index : Nat) (call : Call) (handle : Nat) : WriteFile → Option World
  | .succeeded dwWritten => do
    let baton ← world.ptyHandles[handle]?
    let mutex ← baton.mutex.unlock call.thread
    return (world.setBaton handle { baton with mutex }).setCall index
      (call.move (.returned (call.reply dwWritten) dwWritten))
  | .failed taken => some (world.setCall index (call.move (.returned (call.reply 0) taken)))

def step : Event → Option World
  | .expty_spawn id => some { world with ptyHandles := world.ptyHandles ++ [{ id := id }] }
  | .create_write_pipe handle =>
    world.ptyHandles[handle]?.map fun baton => world.setBaton handle { baton with write_ready := true }
  | .expty_write thread pty data =>
    if world.idle thread then some { world with calls := world.calls ++ [world.expty_write thread pty data] } else none
  | .advance index => world.calls[index]?.bind (world.advance index)
  | .WriteFile index result =>
    world.calls[index]?.bind fun call =>
      match call.phase with
      | .writing handle => if result.taken ≤ call.asked then world.write_file index call handle result else none
      | _ => none

end World

/-- The native call that the server's request starts. Only a write uses the mutex. -/
def start (world : World) (thread : Nat) : Server.Nif.Call → Option Call
  | .write pty data => some (world.expty_write thread pty (some data))
  | _ => none

end ExPTY.ConptyWrite
