import ExPTY.NifTerms
import ExPTY.ShellPath

/-! The way of a Windows spawn from the caller of `ExPTY.spawn/3` to `CreateProcessW`: the
two native calls that the server comes to make, what the native code reads in their terms,
and the client that the second of them starts. -/

namespace ExPTY.ConptyPath
open Elixir (Value)
open EnvironmentBlock (Client Outcome System Wide)
open NifTerms (at_least get_bool get_int get_string)
open Server (Binary)
open Start (Answer Answers Native)

/-- The terms of a call of `ExPTY.Nif.spawn_win32`. -/
structure Terms where
  file : Value
  cols : Value
  rows : Value
  debug : Value
  pipeName : Value
  inheritCursor : Value

/-- The local variables of `expty_spawn`. -/
structure Locals where
  file : Binary
  cols : Int
  rows : Int
  debug : Bool
  pipeName : Binary
  inheritCursor : Bool
  deriving DecidableEq, Repr

def Terms.read (terms : Terms) : Option Locals := do
  let file ← get_string terms.file
  let cols ← get_int terms.cols
  at_least 1 cols
  let rows ← get_int terms.rows
  at_least 1 rows
  let debug ← get_bool terms.debug
  let pipeName ← get_string terms.pipeName
  let inheritCursor ← get_bool terms.inheritCursor
  return { file, cols, rows, debug, pipeName, inheritCursor }

/-- The loop of `nif::get_env`, with the names and the values still apart. -/
def get_variables : List (Value × Value) → Option (List (Binary × Binary))
  | [] => some []
  | (key, value) :: rest => do
    let var_name ← get_string key
    let var_value ← get_string value
    return (var_name, var_value) :: (← get_variables rest)

/-- What the two native functions meet. -/
structure Machine where
  -- the pairs of the terms that are maps
  maps : Nat → Option (List (Value × Value))
  shell : ShellPath.Host
  -- `std::wstring_convert`, which throws for what it cannot convert
  to_bytes : Wide → Option String
  -- the number of the new console and the names of its pipes
  CreateNamedPipesAndPseudoConsole : Locals → Option (BitVec 32 × Binary × Binary)
  system : System

namespace Machine
variable (machine : Machine)

/-- `expty_spawn`. It has no answer where it throws, and none for terms that it cannot read,
for which its result is never set. -/
def expty_spawn (terms : Terms) : Option (Answer (Int × Binary × Binary)) := do
  let locals ← terms.read
  match ShellPath.expty_spawn machine.shell locals.file with
  | .error why shellpath => return .error (why ++ (← machine.to_bytes shellpath))
  | .ok shellpath =>
    let _ ← machine.to_bytes shellpath
    match machine.CreateNamedPipesAndPseudoConsole locals with
    | none => return .error "Cannot launch conpty"
    | some (ptyId, conin, conout) => return .value (ptyId.toInt, conin, conout)

def get_env : Value → Option (List (Binary × Binary))
  | .other id => (machine.maps id).bind get_variables
  | _ => none

/-- `expty_pty_connect` in the session that has just been numbered. -/
def expty_pty_connect (pty_id : Int) (cmdline cwd : Binary) (env : Value) : Option Outcome :=
  let system := { machine.system with ptyHandles := machine.system.ptyHandles ++ [pty_id] }
  match machine.get_env env with
  | none => some .badarg
  | some env => EnvironmentBlock.expty_pty_connect system pty_id cmdline cwd env

def answer : Outcome → Answer Int
  | .badarg => .badarg
  | .error reason => .error reason
  | .ok inner_pid _ => .value inner_pid

/-- The answer to a native call is that of the machine. -/
def Answered (answers : Answers) : Native → Prop
  | .spawn_win32 file cols rows debug pipe_name inherit_cursor =>
    machine.expty_spawn ⟨file, cols, rows, debug, .binary pipe_name, inherit_cursor⟩ = some answers.spawn_win32
  | .connect_win32 pty_id command_line cwd env =>
    (machine.expty_pty_connect pty_id command_line cwd env).map answer = some answers.connect_win32
  | .spawn_unix .. => True

def client : Outcome → Option Client
  | .ok _ client => some client
  | _ => none

/-- What the native calls of a spawn start. -/
def started (outcome : Start.Outcome) : List Client :=
  outcome.calls.filterMap fun
    | .connect_win32 pty_id command_line cwd env => (machine.expty_pty_connect pty_id command_line cwd env).bind client
    | _ => none

end Machine

end ExPTY.ConptyPath
