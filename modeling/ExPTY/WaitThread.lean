import ExPTY.OwnerCell
import ExPTY.Server

/-! The waiter of src/c_src/unix/pty.cpp, `pty_waitpid`, with what `expty_spawn` puts into
its baton. A call of the function has its own `stat_loc`, which holds whatever was on
the stack before until a `waitpid` that succeeds has written it. -/

namespace ExPTY.WaitThread
open Server (Info)

/-- `int stat_loc` -/
abbrev Status := BitVec 32

def WTERMSIG (stat_loc : Status) : Int := (stat_loc &&& 0x7f).toNat
def WIFEXITED (stat_loc : Status) : Bool := WTERMSIG stat_loc == 0
def WEXITSTATUS (stat_loc : Status) : Int := ((stat_loc &&& 0xff00) >>> 8).toNat
/-- 0x7f is the mark of a child that is stopped or goes on again. -/
def WIFSIGNALED (stat_loc : Status) : Bool := WTERMSIG stat_loc != 0 && WTERMSIG stat_loc != 0x7f

def EINTR : Int := 4
def ECHILD : Int := 10

/-- What `waitpid` for one pid without options does. -/
inductive Waited where
  | status (stat_loc : Status)
  | failed (errno : Int)
  deriving DecidableEq, Repr

/-- One call of `pty_waitpid`: what its `stat_loc` holds at first, and its `waitpid`. -/
structure Frame where
  unset : Status
  waited : Waited
  deriving DecidableEq, Repr

def Frame.stat_loc (frame : Frame) : Status :=
  match frame.waited with
  | .status stat_loc => stat_loc
  | .failed _ => frame.unset

inductive Effect where
  | signal_SIGCHLD_SIG_DFL
  | waitpid (pid : Int)
  | enif_send (message : Info)
  | enif_free_process
  | clear_process
  | uv_async_send
  | erase (pid : Int)
  deriving DecidableEq, Repr

def Effect.message? : Effect → Option Info
  | .enif_send message => some message
  | _ => none

/-- The statement of `ExPTY.OwnerCell` that it is. -/
def Effect.event? : Effect → Option OwnerCell.Event
  | .enif_send _ => some .send_exit
  | .enif_free_process => some .free_baton_process
  | .clear_process => some .clear_baton_process
  | .uv_async_send => some .post_baton
  | .erase _ => some .erase
  | .signal_SIGCHLD_SIG_DFL | .waitpid _ => none

/-- The baton as `expty_spawn` makes it, and what its thread has done. -/
structure Baton where
  pid : Int
  exit_code : Int := 0
  signal_code : Int := 0
  effects : List Effect := []
  deriving DecidableEq, Repr

namespace Baton

def did (baton : Baton) (effects : List Effect) : Baton := { baton with effects := baton.effects ++ effects }

def sent (baton : Baton) : List Info := baton.effects.filterMap Effect.message?

/-- What follows the `waitpid`, whether it has succeeded or not. -/
def report (baton : Baton) (stat_loc : Status) : Baton :=
  let baton := if WIFEXITED stat_loc then { baton with exit_code := WEXITSTATUS stat_loc } else baton
  let baton := if WIFSIGNALED stat_loc then { baton with signal_code := WTERMSIG stat_loc } else baton
  baton.did [.enif_send (.exit baton.exit_code (some baton.signal_code)), .enif_free_process, .clear_process,
    .uv_async_send, .erase baton.pid]

end Baton

/-- The function with the frames of its recursion. It has not returned as long as the last
`waitpid` has not. -/
def pty_waitpid (baton : Baton) : List Frame → Option Baton
  | [] => none
  | frame :: frames =>
    let baton := baton.did [.signal_SIGCHLD_SIG_DFL, .waitpid baton.pid]
    if frame.waited = .failed EINTR then pty_waitpid baton frames else some (baton.report frame.stat_loc)

/-- The outcomes of `waitpid` for one session: it is interrupted any number of times, and
then it succeeds or fails in another way. -/
structure Outcomes where
  interrupted : List Status
  last : Frame
  final : last.waited ≠ .failed EINTR

def Outcomes.frames (outcomes : Outcomes) : List Frame :=
  outcomes.interrupted.map (fun unset => ⟨unset, .failed EINTR⟩) ++ [outcomes.last]

def Frame.reaped (frame : Frame) : Option Status :=
  match frame.waited with
  | .status stat_loc => some stat_loc
  | .failed _ => none

def Outcomes.reaped (outcomes : Outcomes) : List Status := outcomes.frames.filterMap Frame.reaped

end ExPTY.WaitThread
