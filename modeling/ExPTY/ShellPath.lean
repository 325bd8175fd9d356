import ExPTY.EnvironmentBlock

/-! The lookup of the shell on Windows: `get_shell_path` of path_util.cc and what
`expty_spawn` of conpty.cc makes of its answer. -/

namespace ExPTY.ShellPath
open Delimited
open EnvironmentBlock (Wide to_wstring)
open Server (Binary)

def MAX_ENV : Nat := 65536

/-- What the lookup asks the system for. `GetFileAttributesW` resolves a name from a
working directory, and `stale` is what the buffer of the environment variable holds
before it is written. -/
structure Host where
  cwd : Wide
  GetFileAttributesW : Wide → Wide → UInt32
  PathIsRelativeW : Wide → Bool
  Path : Option Wide
  stale : Wide

namespace Host
variable (host : Host)

def file_exists (filename : Wide) : Bool :=
  let attr := host.GetFileAttributesW host.cwd filename
  -- INVALID_FILE_ATTRIBUTES, FILE_ATTRIBUTE_DIRECTORY
  !(attr == 0xFFFFFFFF || attr &&& 0x10 != 0)

/-- A variable that does not fit leaves the buffer as it is, and the size it needs is returned. -/
def GetEnvironmentVariableW (size : Nat) : Nat × Wide :=
  match host.Path with
  | none => (0, host.stale)
  | some value => if value.length < size then (value.length, value) else (value.length + 1, host.stale)

end Host

/-- Plain joining with a backslash. -/
def PathCombineW (dir file : Wide) : Wide := dir ++ 0x5C :: file

/-- The loop that fills `paths`. What follows the last delimiter stays in the buffer. -/
def split_paths (buffer : Wide) : List Wide :=
  match _found : splitFirst 0x3B buffer with
  | none => []
  | some (path, rest) => path :: split_paths rest
termination_by buffer.length
decreasing_by exact splitFirst_shorter _found

section
variable (host : Host) (filename : Wide)

/-- The array `searchPath` is never null, so no path is skipped. -/
def search : List Wide → Wide
  | [] => []
  | path :: paths =>
    let searchPath := PathCombineW path filename
    if host.file_exists searchPath then searchPath else search paths

def get_shell_path : Wide :=
  if host.file_exists filename then []
  else
    let (read, buffer_) := host.GetEnvironmentVariableW MAX_ENV
    if read = 0 then []
    else search host filename (split_paths buffer_)

end

/-- The reason of an error is `why` with `shellpath` behind it. -/
inductive Lookup where
  | error (why : String) (shellpath : Wide)
  | ok (shellpath : Wide)
  deriving DecidableEq, Repr

/-- The part of `expty_spawn` that settles `shellpath`. -/
def expty_spawn (host : Host) (file : Binary) : Lookup :=
  let fileW := to_wstring file
  let shellpath := if host.PathIsRelativeW fileW then get_shell_path host fileW else fileW
  if shellpath.isEmpty || !host.file_exists shellpath then .error "File not found: " shellpath
  else .ok shellpath

end ExPTY.ShellPath
