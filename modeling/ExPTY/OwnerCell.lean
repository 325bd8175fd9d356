import ExPTY.Runs

/-! The `ErlNifPid` cell that `expty_spawn` of src/c_src/unix/pty.cpp allocates once and
stores in `baton->process` and in `pipesocket->process`, with the threads and the loop
callbacks that use it. The cell counts its frees, and a message sent through it after
the first is kept apart as lost. -/

namespace ExPTY.OwnerCell

/-- `pty_waitpid` -/
inductive Waiter where
  | waiting | reaped | sent | freed | cleared | posted | erased
  deriving DecidableEq, Repr

/-- `pty_pipesocket_fn` -/
inductive Reader where
  | polling
  | sending (data : List UInt8)
  | ended | posted
  deriving DecidableEq, Repr

/-- The handle `baton->async`: `pty_after_waitpid`, then `pty_after_close`. -/
inductive Baton where
  | active | closing | deleted
  deriving DecidableEq, Repr

/-- The handle `pipesocket->async`: `pty_after_pipesocket`, then the statements of
`pty_after_close_pipesocket`. -/
inductive Pipesocket where
  | active | closing | freed | released
  deriving DecidableEq, Repr

inductive Message where
  | data (data : List UInt8)
  | exit
  deriving DecidableEq, Repr

structure Session where
  /-- All that the child has written, and the end of it that has not been read. -/
  output : List UInt8 := []
  buffer : List UInt8 := []
  exited : Bool := false
  waiter : Waiter := .waiting
  reader : Reader := .polling
  baton : Baton := .active
  pipesocket : Pipesocket := .active
  baton_process : Bool := true
  pipesocket_process : Bool := true
  frees : Nat := 0
  delivered : List Message := []
  lost : List Message := []
  deriving DecidableEq, Repr

inductive Event where
  -- the child
  | output (data : List UInt8)
  | child_exit
  -- the waiter
  | waitpid | send_exit | free_baton_process | clear_baton_process | post_baton | erase
  -- the reader
  | read (count : Nat)
  | send_data | end_of_file | post_pipesocket
  -- the loop
  | after_waitpid | after_close | after_pipesocket | free_pipesocket_process | release_pipesocket
  deriving DecidableEq, Repr

namespace Session

/-- `enif_send` through the cell. -/
def send (session : Session) (message : Message) : Session :=
  { session with
    delivered := if session.frees = 0 then session.delivered ++ [message] else session.delivered
    lost := if session.frees = 0 then session.lost else session.lost ++ [message] }

/-- `enif_free`, which does nothing for `NULL`. -/
def free (session : Session) (process : Bool) : Session :=
  { session with frees := session.frees + process.toNat }

def step (session : Session) : Event → Option Session
  | .output data =>
    if session.exited then none
    else some { session with output := session.output ++ data, buffer := session.buffer ++ data }
  | .child_exit => if session.exited then none else some { session with exited := true }
  | .waitpid =>
    if session.waiter = .waiting ∧ session.exited then some { session with waiter := .reaped } else none
  | .send_exit => if session.waiter = .reaped then some { session.send .exit with waiter := .sent } else none
  | .free_baton_process =>
    if session.waiter = .sent then some { session.free session.baton_process with waiter := .freed } else none
  | .clear_baton_process =>
    if session.waiter = .freed then some { session with waiter := .cleared, baton_process := false } else none
  | .post_baton => if session.waiter = .cleared then some { session with waiter := .posted } else none
  | .erase => if session.waiter = .posted then some { session with waiter := .erased } else none
  | .read count =>
    if session.reader = .polling ∧ 0 < count ∧ count ≤ 1024 ∧ count ≤ session.buffer.length then
      some { session with reader := .sending (session.buffer.take count), buffer := session.buffer.drop count }
    else none
  | .send_data =>
    match session.reader with
    | .sending data => some { session.send (.data data) with reader := .polling }
    | _ => none
  | .end_of_file =>
    if session.reader = .polling ∧ session.buffer = [] then some { session with reader := .ended } else none
  | .post_pipesocket => if session.reader = .ended then some { session with reader := .posted } else none
  | .after_waitpid =>
    if session.baton = .active ∧ (session.waiter = .posted ∨ session.waiter = .erased) then
      some { session with baton := .closing }
    else none
  | .after_close => if session.baton = .closing then some { session with baton := .deleted } else none
  | .after_pipesocket =>
    if session.pipesocket = .active ∧ session.reader = .posted then some { session with pipesocket := .closing }
    else none
  | .free_pipesocket_process =>
    if session.pipesocket = .closing then
      some { session.free session.pipesocket_process with pipesocket := .freed }
    else none
  | .release_pipesocket =>
    if session.pipesocket = .freed then some { session with pipesocket := .released, pipesocket_process := false }
    else none

end Session

end ExPTY.OwnerCell
