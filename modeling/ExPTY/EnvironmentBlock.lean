import ExPTY.Handover
import ExPTY.Unicode

/-! `expty_pty_connect` on Windows: from the arguments of `connect_win32` to the command
line, the directory and the environment block that `CreateProcessW` is given, and the
environment that it builds from the block. -/

namespace ExPTY.EnvironmentBlock
open Delimited
open Handover (get_env)
open NativeCalls (is_int)
open Server (Binary)
open Unicode

/-- `std::wstring`, and the strings of the Windows API. -/
abbrev Wide := List UInt16

/-- `(int)str.length()` -/
def slen (str : Binary) : Int := (str.length : Int).bmod 0x100000000

/-- `MultiByteToWideChar(CP_UTF8, MB_ERR_INVALID_CHARS, bytes, slen, ..)`. A length of -1
stands for a string that ends in a NUL, which is then converted with it. The number of
units is an `int`. -/
def MultiByteToWideChar (bytes : Binary) (slen : Int) : Wide :=
  let text := if slen = -1 then cut 0 bytes else bytes.take slen.toNat
  let output := ((decode text).map utf16).getD []
  let sizeOfStr := if slen = -1 then output.length + 1 else output.length
  if sizeOfStr < 0x80000000 then output else []

/-- The result is made by `std::wstring(output)`, so that a NUL that ends the output makes
no difference to it. -/
def to_wstring (str : Binary) : Wide := cut 0 (MultiByteToWideChar str (slen str))

def envBlock (env_strings : List Binary) : Wide :=
  env_strings.flatMap (fun entry => to_wstring entry ++ [0]) ++ [0]

/-- The counter of the loop is a `uint32_t`, which no size from 2^32 on stops. -/
def env_w (env_strings : List Binary) : Option Wide :=
  if env_strings.length = 0 then some []
  else if env_strings.length < 0x100000000 then some (envBlock env_strings)
  else none

def envArg (env_w : Wide) : Option Wide := if env_w = [] then none else some env_w

abbrev Variable := Wide × Wide

/-- The state of the system at the call, with the answers it gives. The answer of
`InitializeProcThreadAttributeList` is not looked at. -/
structure System where
  ptyHandles : List Int
  UpdateProcThreadAttribute : Bool
  CreateProcessW : Option Int
  environment : List Variable

def System.built (system : System) : Option Wide → List Variable
  | none => system.environment
  | some block => (entries 0 block).filterMap (splitBehind 0x3D)

structure Client where
  commandLine : Wide
  cwd : Wide
  environment : List Variable
  deriving DecidableEq, Repr

inductive Outcome where
  | badarg
  | error (reason : String)
  | ok (inner_pid : Int) (client : Client)
  deriving DecidableEq, Repr

/-- A call that never returns has no outcome. -/
def expty_pty_connect (system : System) (pty_id : Int) (cmdline cwd : Binary) (env : List (Binary × Binary)) :
    Option Outcome :=
  if ¬ is_int pty_id then some .badarg
  else if pty_id ∉ system.ptyHandles then some (.error "Invalid pty handle")
  else
    let cmdline_w := to_wstring cmdline
    let cwd_w := to_wstring cwd
    (env_w (get_env env)).map fun env_w =>
      if !system.UpdateProcThreadAttribute then .error "UpdateProcThreadAttribute failed"
      else
        match system.CreateProcessW with
        | none => .error "Cannot create process"
        | some inner_pid => .ok inner_pid ⟨cmdline_w, cwd_w, system.built (envArg env_w)⟩

end ExPTY.EnvironmentBlock
