import ExPTY.Runs

/-! The session server of lib/expty.ex after `:do_spawn`: the session record, the
clauses of `handle_call` and `handle_info`, and the machine they make up. A native
call is answered by the environment, so an event carries the answers it would get.
A request that no clause accepts stops the server and has no next state. -/

namespace ExPTY.Server

abbrev Binary := List UInt8

inductive OsType where
  | unix | win32
  deriving DecidableEq, Repr

/-- The Erlang terms that the native layer hands to the server as session handles. -/
inductive Term where
  | nil
  | integer (value : Int)
  | binary (value : Binary)
  | reference (id : Nat)
  deriving DecidableEq, Repr

/-- A function value. The server only ever looks at its arity. -/
structure Func where
  id : Nat
  arity : Nat
  deriving DecidableEq, Repr

inductive Callback where
  | func (callback : Func)
  | module (name : String)
  deriving DecidableEq, Repr

/-- The fields of `%ExPTY{}`; `none` stands for an unset field. -/
structure T where
  os_type : OsType
  pid : Term := .nil
  pty : Term := .nil
  on_data : Option Callback := none
  on_exit : Option Callback := none
  echo? : Option Bool := none
  pipesocket : Term := .nil
  handle_flow_control : Option Bool := none
  flow_control_pause : Option Binary := none
  flow_control_resume : Option Binary := none
  conin : Term := .nil
  conout : Term := .nil
  inner_pid : Term := .nil
  deriving DecidableEq, Repr

namespace Nif

inductive Call where
  | write (pty : Term) (data : Binary)
  | kill (pipesocket : Term) (signal : Int)
  | resize (pty : Term) (cols rows : Int)
  | pause (pipesocket : Term)
  | resume (pipesocket : Term)
  | set_echo (pipesocket : Term) (echo? : Bool)
  deriving DecidableEq, Repr

inductive Spawned where
  | session (pipesocket : Nat) (pid : Int) (pty : Binary)
  | error (reason : String)
  deriving DecidableEq, Repr

def Call.handle : Call → Term
  | .write pty _ | .resize pty _ _ => pty
  | .kill pipesocket _ | .pause pipesocket | .resume pipesocket | .set_echo pipesocket _ => pipesocket

def Call.payload : Call → Option Binary
  | .write _ data => some data
  | _ => none

end Nif

/-- Answers of the server, and of the native functions it forwards. -/
inductive Reply where
  | ok
  | accepted (bytes : Int)        -- `{:partial, bytes}`
  | error (reason : String)
  | flag (value : Option Bool)
  | not_implemented_yet
  deriving DecidableEq, Repr

/-- The public calls on a session, as the messages they send to the server. -/
inductive Request where
  | write (data : Binary)
  | kill (signal : Int)
  | update_on_data (callback : Callback)
  | update_on_exit (callback : Callback)
  | resize (cols rows : Int)
  | get_flow_control
  | flow_control (enable? : Bool)
  | pause
  | resume
  | set_echo (echo? : Bool)
  deriving DecidableEq, Repr

/-- The messages the native threads send. On Windows there is no signal code. -/
inductive Info where
  | data (data : Binary)
  | exit (exit_code : Int) (signal_code : Option Int)
  deriving DecidableEq, Repr

/-- A callback invocation, with the session's own pid left implicit. -/
inductive Invocation where
  | on_data (callback : Callback) (data : Binary)
  | on_exit (callback : Callback) (exit_code : Int) (signal_code : Option Int)
  deriving DecidableEq, Repr

/-- What one clause does: its reply, the new state and its native calls in order. -/
structure Handled where
  reply : Reply
  state : T
  calls : List Nif.Call := []

/-- The arguments of `ExPTY.Nif.spawn_unix`. -/
structure SpawnUnix where
  file : Binary
  args : List Binary
  env : List (Binary × Binary)
  cwd : Binary
  cols : Int
  rows : Int
  ibaudrate : Int
  obaudrate : Int
  uid : Int
  gid : Int
  is_utf8 : Bool
  closeFDs : Bool
  echo? : Bool
  helperPath : Binary
  deriving DecidableEq, Repr

/-- The tuple that `init` leaves for the Unix `:do_spawn`. -/
structure UnixPack extends SpawnUnix where
  handle_flow_control : Bool
  flow_control_pause : Binary
  flow_control_resume : Binary
  on_data : Option Callback
  on_exit : Option Callback
  deriving DecidableEq, Repr

/-- The session record that a successful `:do_spawn` installs on Unix. -/
def T.of_spawn (pack : UnixPack) (pipesocket : Nat) (pid : Int) (pty : Binary) : T :=
  { os_type := .unix
    pipesocket := .reference pipesocket
    pid := .integer pid
    pty := .binary pty
    handle_flow_control := some pack.handle_flow_control
    flow_control_pause := some pack.flow_control_pause
    flow_control_resume := some pack.flow_control_resume
    on_data := pack.on_data
    on_exit := pack.on_exit
    echo? := some pack.echo? }

/-- `handle_call(:do_spawn)` on Unix. The `case` has no clause for an error, so
that a failed spawn crashes the server instead of answering. -/
def handle_do_spawn (answer : SpawnUnix → Nif.Spawned) (pack : UnixPack) : Option (Reply × T) :=
  match answer pack.toSpawnUnix with
  | .session pipesocket pid pty => some (.ok, .of_spawn pack pipesocket pid pty)
  | .error _ => none

/-- `handle_call({:write, data})` on Unix. -/
def handle_write (answer : Nif.Call → Reply) (data : Binary) (state : T) : Handled :=
  if state.handle_flow_control = some true then
    if some data = state.flow_control_pause then
      { reply := .ok, state, calls := [.pause state.pipesocket] }
    else if some data = state.flow_control_resume then
      { reply := .ok, state, calls := [.resume state.pipesocket] }
    else
      -- `_ -> :ok`
      { reply := .ok, state }
  else
    let call := .write state.pipesocket data
    { reply := answer call, state, calls := [call] }

@[simp] theorem handle_write_state (answer : Nif.Call → Reply) (data : Binary) (state : T) :
    (handle_write answer data state).state = state := by
  unfold handle_write
  split
  · split
    · rfl
    · split <;> rfl
  · rfl

/-- `handle_call({:flow_control, enable?})`. The answer of `resume` is not looked at. -/
def handle_flow_control (enable? : Bool) (state : T) : Handled :=
  { reply := .ok
    state := { state with handle_flow_control := some enable? }
    calls := if !enable? ∧ state.handle_flow_control = some true then [.resume state.pipesocket] else [] }

def forward (answer : Nif.Call → Reply) (call : Nif.Call) (state : T) : Handled :=
  { reply := answer call, state, calls := [call] }

def handle_call (answer : Nif.Call → Reply) (request : Request) (state : T) : Option Handled :=
  match request, state.os_type with
  | .write data, .unix => some (handle_write answer data state)
  | .write data, .win32 => some (forward answer (.write state.pty data) state)
  | .kill signal, .unix => some (forward answer (.kill state.pipesocket signal) state)
  | .kill _, .win32 => some { reply := .not_implemented_yet, state }
  | .update_on_data callback, _ => some { reply := .ok, state := { state with on_data := some callback } }
  | .update_on_exit callback, _ => some { reply := .ok, state := { state with on_exit := some callback } }
  | .resize cols rows, .unix => some (forward answer (.resize state.pipesocket cols rows) state)
  | .resize cols rows, .win32 => some (forward answer (.resize state.pty cols rows) state)
  | .get_flow_control, _ => some { reply := .flag state.handle_flow_control, state }
  | .flow_control enable?, _ => some (handle_flow_control enable? state)
  | .pause, _ => some (forward answer (.pause state.pipesocket) state)
  | .resume, _ => some (forward answer (.resume state.pipesocket) state)
  | .set_echo echo?, .unix =>
    let call := .set_echo state.pipesocket echo?
    some { reply := answer call, state := { state with echo? := some echo? }, calls := [call] }
  | .set_echo _, .win32 => none

/-- The callback that `handle_info` invokes; the state never changes. On Unix the
exit message carries both codes, and the clause accepts no shorter tuple. -/
def handle_info (message : Info) (state : T) : Option (Option Invocation) :=
  match message with
  | .data data => some (state.on_data.map fun callback => .on_data callback data)
  | .exit exit_code (some signal_code) =>
    some (state.on_exit.map fun callback => .on_exit callback exit_code (some signal_code))
  | .exit _ none => none

/-- A served session with the history of what it did. -/
structure Serving where
  session : T
  calls : List Nif.Call := []
  replies : List Reply := []
  invoked : List Invocation := []

inductive Event where
  | call (request : Request) (answer : Nif.Call → Reply)
  | info (message : Info)

def Serving.step (serving : Serving) : Event → Option Serving
  | .call request answer =>
    (handle_call answer request serving.session).map fun handled =>
      { serving with
        session := handled.state
        calls := serving.calls ++ handled.calls
        replies := serving.replies ++ [handled.reply] }
  | .info message =>
    (handle_info message serving.session).map fun invocation =>
      { serving with invoked := serving.invoked ++ invocation.toList }

/-- A server that has just answered `:do_spawn`. -/
def Serving.spawned (session : T) : Serving := { session }

end ExPTY.Server
