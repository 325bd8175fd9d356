import ExPTY.NativeCalls

/-! One call of `expty_write` on its own. Whatever the other threads do, the call sees of
it the value of `fd_closed` at each of its checks and the result of each `::write`,
and it waits for the mutex until it has it. -/

namespace ExPTY.WriteCall
open NativeCalls
open Termios (Header)
open Server (Binary Reply)

/-- What the call would be told if it asked now; `none` is -1. -/
structure Answer where
  fd_closed : Bool
  result : Option Nat
  deriving DecidableEq, Repr

variable {header : Header}

def Answer.kernel (answer : Answer) : Kernel header :=
  { write := answer.result, ioctl := none, tcgetattr := none, tcsetattr := true }

structure Attempt (header : Header) where
  call : Call header
  locked : Bool := false
  requests : List (Syscall header) := []
  accepted : Binary := []

namespace Attempt

/-- `ExPTY.Nif.write` on the session's own resource. -/
def start (data : Binary) : Attempt header := { call := expty_write (.reference 0) data }

def step (attempt : Attempt header) (answer : Answer) : Option (Attempt header) :=
  match attempt.call.next with
  | none => none
  | some (.check after) => some { attempt with call := after answer.fd_closed }
  | some (.lock after) => some { attempt with call := after, locked := true }
  | some (.unlock after) => some { attempt with call := after, locked := false }
  | some (.system call after) =>
    if Bounded answer.kernel call then
      some
        { attempt with
          call := after answer.kernel
          requests := attempt.requests ++ [call]
          accepted := attempt.accepted ++ NativeCalls.accepted (answer.kernel : Kernel header) call }
    else none

end Attempt

/-- The results of every `::write` of a call, each of them for the number of bytes asked for. -/
structure Results where
  result : Nat → Nat → Option Nat
  bounded : ∀ index nbytes count, result index nbytes = some count → count ≤ nbytes

namespace Results

/-- What the next `::write` asks for when `written` bytes of the data are accepted. -/
def next (results : Results) (len index written : Nat) : Nat :=
  (results.result index (if 1024 > len - written then len - written else 1024)).getD 0

def written (results : Results) (len : Nat) : Nat → Nat
  | 0 => 0
  | index + 1 => results.written len index + results.next len index (results.written len index)

/-- How many of the first writes accepted nothing. -/
def refused (results : Results) (len : Nat) : Nat → Nat
  | 0 => 0
  | index + 1 =>
    results.refused len index + if results.next len index (results.written len index) = 0 then 1 else 0

/-- What a call with `fd_closed` false is told, by the number of writes it has made. -/
def answer (results : Results) (attempt : Attempt header) : Answer :=
  { fd_closed := false
    result :=
      match attempt.call with
      | .writing loop => results.result attempt.requests.length loop.nbytes
      | _ => none }

end Results

/-- The call after so many of its own steps, as long as it has not returned. -/
def Attempt.after (results : Results) : Nat → Attempt header → Option (Attempt header)
  | 0, attempt => some attempt
  | steps + 1, attempt => (attempt.step (results.answer attempt)).bind (after results steps)

end ExPTY.WriteCall
