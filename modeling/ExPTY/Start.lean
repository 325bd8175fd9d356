import ExPTY.Callbacks

/-! `ExPTY.spawn/3` from the caller's side: `init` in the new process, the `:do_spawn`
call with the native functions behind it, and what the caller gets when the server
answers or crashes. What the runtime and the native functions answer is given. -/

namespace ExPTY.Start
open Elixir Callbacks
open Server (Binary Callback OsType T)

/-- The surroundings of the call. Where a function raises there is no result. -/
structure Host where
  os_type : OsType
  exports : Exports
  -- `Application.get_env(:expty, key, default)`
  get_env : String → Value → Value
  -- `System.get_env()`
  system_env : Value
  -- `Path.expand/1`
  expand : Value → Option Binary
  -- string interpolation
  interpolate : Value → Option Binary
  -- `:code.priv_dir(:expty)`
  priv_dir : Value
  -- `:rand.uniform(100_000_000)`
  uniform : Nat
  -- the text that `args_to_command_line_impl` makes of binaries
  quoted : List Binary → Binary

def Host.default_pty_options (host : Host) : Option Keyword := do
  let home ← host.expand (.text "~")
  match host.os_type with
  | .unix =>
    return [("name", host.get_env "name" (.text "xterm-color")),
      ("cols", host.get_env "cols" (.integer 80)),
      ("rows", host.get_env "rows" (.integer 24)),
      ("ibaudrate", .integer 38400),
      ("obaudrate", .integer 38400),
      ("env", host.get_env "env" host.system_env),
      ("cwd", host.get_env "cwd" (.binary home)),
      ("on_data", .nil),
      ("on_exit", .nil),
      ("echo?", host.get_env "echo?" (.atom "false")),
      ("encoding", host.get_env "encoding" (.text "utf-8")),
      ("handle_flow_control", host.get_env "handle_flow_control" (.atom "false")),
      ("flow_control_pause", host.get_env "flow_control_pause" (.binary [0x13])),
      ("flow_control_resume", host.get_env "flow_control_resume" (.binary [0x11]))]
  | .win32 =>
    return [("name", host.get_env "name" (.text "Windows Shell")),
      ("cols", host.get_env "cols" (.integer 80)),
      ("rows", host.get_env "rows" (.integer 24)),
      ("env", host.get_env "env" host.system_env),
      ("cwd", host.get_env "cwd" (.binary home)),
      ("on_data", .nil),
      ("on_exit", .nil),
      ("debug", host.get_env "debug" (.atom "false")),
      ("pipe_name", host.get_env "pipe_name" (.text "pipe")),
      ("inherit_cursor", host.get_env "inherit_cursor" (.atom "false"))]

/-- `ExPTY.Nif.helper_path/0` on Unix. -/
def Host.helper_path (host : Host) : Option Binary :=
  (host.interpolate host.priv_dir).map (· ++ Unicode.utf8 "/spawn-helper".toList)

structure Common where
  file : Value
  args : Value
  env : Value
  cwd : Binary
  cols : Value
  rows : Value
  on_data : Option Callback
  on_exit : Option Callback
  deriving DecidableEq, Repr

structure UnixPack extends Common where
  ibaudrate : Value
  obaudrate : Value
  uid : Value
  gid : Value
  is_utf8 : Bool
  closeFDs : Value
  echo? : Value
  helperPath : Binary
  handle_flow_control : Bool
  flow_control_pause : Binary
  flow_control_resume : Binary
  deriving DecidableEq, Repr

structure Win32Pack extends Common where
  debug : Value
  pipe_name : Binary
  inherit_cursor : Value
  deriving DecidableEq, Repr

inductive Pack where
  | unix (pack : UnixPack)
  | win32 (pack : Win32Pack)
  deriving DecidableEq, Repr

def Pack.common : Pack → Common
  | .unix pack => pack.toCommon
  | .win32 pack => pack.toCommon

def init_unix (host : Host) (options : Keyword) (common : Common) : Option UnixPack := do
  let helperPath ← host.helper_path
  let handle_flow_control ← ((options.access "handle_flow_control").or (.atom "false")).boolean?
  let flow_control_pause ← ((options.access "flow_control_pause").or (.binary [0x13])).binary?
  let flow_control_resume ← ((options.access "flow_control_resume").or (.binary [0x11])).binary?
  return { common with
    file := common.file.or (.text "sh")
    ibaudrate := (options.access "ibaudrate").or (.integer 38400)
    obaudrate := (options.access "obaudrate").or (.integer 38400)
    uid := (options.access "uid").or (.integer (-2))
    gid := (options.access "gid").or (.integer (-2))
    is_utf8 := options.access "encoding" = .text "utf-8"
    closeFDs := (options.access "closeFDs").or (.atom "false")
    echo? := (options.access "echo?").or (.atom "false")
    helperPath, handle_flow_control, flow_control_pause, flow_control_resume }

def init_win32 (host : Host) (options : Keyword) (common : Common) : Option Win32Pack := do
  let pipe_name ← host.interpolate ((options.access "pipe_name").or (.text "pipe"))
  return { common with
    file := common.file.or (.text "powershell.exe")
    debug := (options.access "debug").or (.atom "false")
    pipe_name := pipe_name ++ Unicode.utf8 ('-' :: (toString host.uniform).toList)
    inherit_cursor := (options.access "inherit_cursor").or (.atom "false") }

/-- `init`. Options that are no keyword list, which `Keyword.merge` does not take, are `none`. -/
def init (host : Host) (file args : Value) (pty_options : Option Keyword) : Option Pack := do
  let default_options ← host.default_pty_options
  let options := default_options.merge (← pty_options)
  let cwd ← host.expand (options.access "cwd")
  let common : Common :=
    { file
      args := args.or .empty
      env := options.access "env"
      cwd
      cols := options.access "cols"
      rows := options.access "rows"
      on_data := init_on_data host.exports (options.access "on_data")
      on_exit := init_on_exit host.exports (options.access "on_exit") }
  match host.os_type with
  | .unix => (init_unix host options common).map .unix
  | .win32 => (init_win32 host options common).map .win32

inductive State where
  | pack (pack : Pack)
  | session (session : T)
  deriving DecidableEq, Repr

inductive Answer (α : Type) where
  | value (value : α)
  | error (reason : String)
  | badarg
  deriving DecidableEq, Repr

def Answer.value? {α : Type} : Answer α → Option α
  | .value given => some given
  | _ => none

/-- The answers to the native calls that a spawn comes to make: the session tuples, and
the process id of `{:ok, inner_pid}`. -/
structure Answers where
  spawn_unix : Answer (Nat × Int × Binary)
  spawn_win32 : Answer (Int × Binary × Binary)
  connect_win32 : Answer Int

inductive Native where
  | spawn_unix (file args env : Value) (cwd : Binary) (cols rows ibaudrate obaudrate uid gid : Value) (is_utf8 : Bool)
    (closeFDs echo? : Value) (helperPath : Binary)
  | spawn_win32 (file cols rows debug : Value) (pipe_name : Binary) (inherit_cursor : Value)
  | connect_win32 (pty_id : Int) (command_line cwd : Binary) (env : Value)
  deriving DecidableEq, Repr

inductive Reply where
  | ok
  | error (reason : String)
  deriving DecidableEq, Repr

/-- The reply and the next state of the server, unless it crashes, and its native calls. -/
structure Handled where
  result : Option (Reply × State)
  calls : List Native
  deriving DecidableEq, Repr

/-- `args_to_command_line/2`, whose clauses are for proper lists of binaries only. -/
def args_to_command_line (host : Host) (file args : Value) : Option Binary :=
  (Value.cons file args).binaries?.map host.quoted

/-- The session of a Unix pack. An `echo?` that is no truth value counts as unset. -/
def UnixPack.session (pack : UnixPack) (pipesocket : Nat) (pid : Int) (pty : Binary) : T :=
  { os_type := .unix
    pipesocket := .reference pipesocket
    pid := .integer pid
    pty := .binary pty
    handle_flow_control := some pack.handle_flow_control
    flow_control_pause := some pack.flow_control_pause
    flow_control_resume := some pack.flow_control_resume
    on_data := pack.on_data
    on_exit := pack.on_exit
    echo? := pack.echo?.boolean? }

def Win32Pack.session (pack : Win32Pack) (pty_id : Int) (conin conout : Binary) (inner_pid : Int) : T :=
  { os_type := .win32
    pty := .integer pty_id
    conin := .binary conin
    conout := .binary conout
    inner_pid := .integer inner_pid
    on_data := pack.on_data
    on_exit := pack.on_exit }

/-- `handle_call(:do_spawn)` on Unix, without a clause for what is no session tuple. -/
def UnixPack.do_spawn (pack : UnixPack) (answers : Answers) : Handled :=
  { calls := [.spawn_unix pack.file pack.args pack.env pack.cwd pack.cols pack.rows pack.ibaudrate pack.obaudrate
      pack.uid pack.gid pack.is_utf8 pack.closeFDs pack.echo? pack.helperPath]
    result :=
      match answers.spawn_unix with
      | .value (pipesocket, pid, pty) => some (.ok, .session (pack.session pipesocket pid pty))
      | _ => none }

/-- `handle_call(:do_spawn)` on Windows. An error is answered and the tuple stays the state. -/
def Win32Pack.do_spawn (host : Host) (pack : Win32Pack) (answers : Answers) : Handled :=
  let spawned := .spawn_win32 pack.file pack.cols pack.rows pack.debug pack.pipe_name pack.inherit_cursor
  match answers.spawn_win32 with
  | .value (pty_id, conin, conout) =>
    match args_to_command_line host pack.file pack.args with
    | none => { calls := [spawned], result := none }
    | some command_line =>
      { calls := [spawned, .connect_win32 pty_id command_line pack.cwd pack.env]
        result :=
          match answers.connect_win32 with
          | .value inner_pid => some (.ok, .session (pack.session pty_id conin conout inner_pid))
          | .error reason => some (.error reason, .pack (.win32 pack))
          | .badarg => none }
  | .error reason => { calls := [spawned], result := some (.error reason, .pack (.win32 pack)) }
  | .badarg => { calls := [spawned], result := none }

def Pack.do_spawn (host : Host) (answers : Answers) : Pack → Handled
  | .unix pack => pack.do_spawn answers
  | .win32 pack => pack.do_spawn host answers

inductive Returned where
  | ok
  | error (reason : String)
  -- `{:error, {exception, stacktrace}}` of `GenServer.start`
  | init_error
  -- the exit of `GenServer.call` when the server has crashed
  | exit
  deriving DecidableEq, Repr

/-- The caller's result, the state of the server process while it is alive, and the native
calls that were made. -/
structure Outcome where
  returned : Returned
  server : Option State := none
  calls : List Native := []
  deriving DecidableEq, Repr

/-- `GenServer.call(pid, :do_spawn)`, and what `spawn/3` makes of the answer. -/
def Handled.outcome (handled : Handled) : Outcome :=
  match handled.result with
  | none => { returned := .exit, calls := handled.calls }
  | some (.ok, state) => { returned := .ok, server := some state, calls := handled.calls }
  | some (.error reason, state) => { returned := .error reason, server := some state, calls := handled.calls }

def spawn (host : Host) (answers : Answers) (file args : Value) (opts : Option Keyword) : Outcome :=
  match init host file args opts with
  | none => { returned := .init_error }
  | some pack => (pack.do_spawn host answers).outcome

end ExPTY.Start
