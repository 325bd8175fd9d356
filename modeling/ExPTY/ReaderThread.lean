import ExPTY.Server

/-! The reader thread of src/c_src/unix/pty.cpp, `pty_pipesocket_fn`, one turn of its loop
at a time. `select` and `read` may answer in any way they can on the non-blocking
master, and where C leaves the behaviour undefined there is no next turn. -/

namespace ExPTY.ReaderThread
open Server (Binary)

/-- How many descriptors an `fd_set` has room for. -/
def FD_SETSIZE : Nat := 1024

def buf_size : Nat := 1024

/-- `select` without a timeout. After EINTR the descriptor may be in `readfds` or not. -/
inductive Select where
  | ready
  | EINTR (readfds : Bool)
  | error
  deriving DecidableEq, Repr

/-- What one turn is answered; `none` is a `read` that returns -1. -/
structure Turn where
  select : Select
  read : Option Binary
  bounded : ∀ bytes, read = some bytes → bytes.length ≤ buf_size

/-- `enif_make_new_binary` by the size it is asked for. It does not fail for a small binary. -/
structure Allocator where
  allocates : Nat → Bool
  small : ∀ size, 1 ≤ size → size ≤ buf_size → allocates size = true

inductive Control where
  | looping | finished | undefined
  deriving DecidableEq, Repr

structure Thread where
  control : Control := .looping
  indices : List Nat := []
  reads : List (Option Binary) := []
  sizes : List Nat := []
  sent : List Binary := []
  deriving DecidableEq, Repr

/-- The result of `read` as the `size_t` it is assigned to. -/
def bytes_read : Option Binary → Nat
  | none => (BitVec.ofInt 64 (-1)).toNat
  | some bytes => bytes.length

/-- `char buffer[buf_size]` after the `read`. -/
def buffer (read : Option Binary) : Binary :=
  let bytes := read.getD []
  bytes ++ List.replicate (buf_size - bytes.length) 0

/-- What follows `FD_ISSET`. Copying more than the buffer holds is undefined. -/
def Thread.take (thread : Thread) (vm : Allocator) (read : Option Binary) : Thread :=
  let size := bytes_read read
  let thread := { thread with reads := thread.reads ++ [read] }
  if size = 0 then { thread with control := .finished }
  else if vm.allocates size then
    let thread := { thread with sizes := thread.sizes ++ [size, size] }
    if size ≤ buf_size then { thread with sent := thread.sent ++ [(buffer read).take size] }
    else { thread with control := .undefined }
  else { thread with sizes := thread.sizes ++ [size] }

def Thread.step (vm : Allocator) (fd : Nat) (thread : Thread) (turn : Turn) : Option Thread :=
  if thread.control = .looping then
    let thread := { thread with indices := thread.indices ++ [fd] }
    if fd < FD_SETSIZE then
      match turn.select with
      | .ready | .EINTR true => some (thread.take vm turn.read)
      | .error | .EINTR false => some thread
    else some { thread with control := .undefined }
  else none

end ExPTY.ReaderThread
