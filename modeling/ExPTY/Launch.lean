import ExPTY.Runs

/-! The launch protocol between `expty_spawn` in src/c_src/unix/pty.cpp and the program
in src/c_src/unix/spawn-helper.cpp. Both sides run at once and share one pipe. Every
system call has each outcome it can have, chosen by the event that makes it. -/

namespace ExPTY.Launch

def COMM_ERR_EXEC : Int := 1
def COMM_ERR_CHDIR : Int := 2
def COMM_ERR_SETUID : Int := 3
def COMM_ERR_SETGID : Int := 4

/-- The calls of the helper whose failure it reports. -/
inductive Call where
  | chdir | setuid | setgid | exec
  deriving DecidableEq, Repr

def Call.type : Call → Int
  | .chdir => COMM_ERR_CHDIR
  | .setuid => COMM_ERR_SETUID
  | .setgid => COMM_ERR_SETGID
  | .exec => COMM_ERR_EXEC

structure HelperError where
  type : Int
  errno : Int
  deriving DecidableEq, Repr

inductive Helper where
  | absent | terminal | chdir | setuid | setgid | execvp
  | bail (call : Call) (errno : Int)
  | exiting | dead | replaced
  deriving DecidableEq, Repr

/-- Before `execvp` succeeded the helper has given up or was killed. -/
def Helper.failed : Helper → Bool
  | .bail _ _ | .exiting | .dead => true
  | _ => false

def Helper.running : Helper → Bool
  | .absent | .dead | .replaced => false
  | _ => true

/-- What `bail` put in the pipe: the first bytes of a record. -/
structure Written where
  call : Call
  errno : Int
  bytes : Nat
  deriving DecidableEq, Repr

/-- What `read` of eight bytes returns. A record arrives whole or in part. -/
inductive Read where
  | record (record : HelperError)
  | short (bytes : Nat)
  | eof
  | interrupted
  deriving DecidableEq, Repr

inductive Result where
  | session
  | error (reason : String)
  deriving DecidableEq, Repr

inductive Parent where
  | starting | reading
  | closing (read : Read)
  | naming | nonblocking
  | returned (result : Result)
  deriving DecidableEq, Repr

/-- The arguments that decide which calls the helper makes. -/
structure Request where
  cwd : List UInt8
  uid : Int
  gid : Int
  deriving DecidableEq, Repr

structure State where
  request : Request
  helper : Helper := .absent
  parent : Parent := .starting
  written : Option Written := none
  deriving DecidableEq, Repr

def throw_for_errno (strerror : Int → String) (message : String) (errno : Int) : String := message ++ strerror errno

/-- The reason for a whole record. Of an unknown type only the initial answer is left. -/
def reason (strerror : Int → String) (helper_error : HelperError) : String :=
  if helper_error.type = COMM_ERR_EXEC then throw_for_errno strerror "exec() failed: " helper_error.errno
  else if helper_error.type = COMM_ERR_CHDIR then throw_for_errno strerror "chdir() failed: " helper_error.errno
  else if helper_error.type = COMM_ERR_SETUID then throw_for_errno strerror "setuid() failed: " helper_error.errno
  else if helper_error.type = COMM_ERR_SETGID then throw_for_errno strerror "setgid() failed: " helper_error.errno
  else "error"

/-- An outcome is the errno of a failed call, or nothing when it succeeds. -/
inductive Event where
  -- in the parent
  | posix_spawn (outcome : Option Int)
  | read (read : Read)
  | close
  | ptsname (outcome : Option Int)
  | pty_nonblock (outcome : Option Int)
  -- in the helper
  | ioctl (outcome : Option Int)
  | chdir (outcome : Option Int)
  | setuid (outcome : Option Int)
  | setgid (outcome : Option Int)
  | execvp (outcome : Option Int)
  | write (bytes : Nat)
  | exit
  | signal
  deriving DecidableEq, Repr

namespace State

/-- The parent still has its end of the pipe. -/
def open? (state : State) : Bool :=
  match state.parent with
  | .reading | .closing _ => true
  | _ => false

/-- A helper call that is skipped when its argument says so. -/
def attempt (state : State) (made : Bool) (call : Call) (outcome : Option Int) (next : Helper) : State :=
  match made, outcome with
  | true, some errno => { state with helper := .bail call errno }
  | _, _ => { state with helper := next }

/-- Whether `read` can return this now. It waits while there is nothing to read and
the helper has the pipe open. -/
def Readable (state : State) : Read → Prop
  | .record helper_error =>
    ∃ written ∈ state.written, written.bytes = 8 ∧ helper_error = ⟨written.call.type, written.errno⟩
  | .short bytes => 0 < bytes ∧ bytes < 8 ∧ ∃ written ∈ state.written, bytes ≤ written.bytes
  | .eof => state.written = none ∧ (state.helper = .dead ∨ state.helper = .replaced)
  | .interrupted => True

instance (state : State) (read : Read) : Decidable (state.Readable read) := by
  unfold Readable
  cases read <;> infer_instance

def step (strerror : Int → String) (state : State) : Event → Option State
  | .posix_spawn none =>
    if state.parent = .starting then some { state with parent := .reading, helper := .terminal } else none
  | .posix_spawn (some errno) =>
    let message := throw_for_errno strerror "posix_spawn failed: " errno
    if state.parent = .starting then some { state with parent := .returned (.error message) } else none
  | .read read =>
    if state.parent = .reading ∧ state.Readable read then some { state with parent := .closing read } else none
  | .close =>
    match state.parent with
    | .closing (.record helper_error) =>
      some { state with parent := .returned (.error (reason strerror helper_error)) }
    -- anything but eight bytes counts as a success
    | .closing _ => some { state with parent := .naming }
    | _ => none
  | .ptsname outcome =>
    let failure := Result.error "Could not allocate memory for ptsname."
    if state.parent = .naming then
      some { state with parent := if outcome = none then .nonblocking else .returned failure }
    else none
  | .pty_nonblock outcome =>
    let failure := Result.error "Could not set master fd to nonblocking."
    if state.parent = .nonblocking then
      some { state with parent := .returned (if outcome = none then .session else failure) }
    else none
  -- a failure ends in `_exit(1)`, without a record
  | .ioctl outcome =>
    if state.helper = .terminal then some { state with helper := if outcome = none then .chdir else .dead } else none
  | .chdir outcome =>
    if state.helper = .chdir then some (state.attempt (state.request.cwd ≠ []) .chdir outcome .setuid) else none
  | .setuid outcome =>
    if state.helper = .setuid then some (state.attempt (state.request.uid ≠ -1) .setuid outcome .setgid) else none
  | .setgid outcome =>
    if state.helper = .setgid then some (state.attempt (state.request.gid ≠ -1) .setgid outcome .execvp) else none
  | .execvp outcome => if state.helper = .execvp then some (state.attempt true .exec outcome .replaced) else none
  | .write bytes =>
    match state.helper with
    | .bail call errno =>
      if bytes = 0 then some { state with helper := .exiting }
      else if state.open? ∧ bytes ≤ 8 then
        some { state with helper := .exiting, written := some { call, errno, bytes } }
      else none
    | _ => none
  | .exit => if state.helper = .exiting then some { state with helper := .dead } else none
  | .signal => if state.helper.running then some { state with helper := .dead } else none

end State

end ExPTY.Launch
