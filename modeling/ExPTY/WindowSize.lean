import ExPTY.Handover
import ExPTY.ShellPath

/-! The size of a terminal on its way to the operating system: `expty_spawn` and
`expty_resize` on both platforms, and `resize/3` with the clauses behind it. A Unix
terminal has unsigned numbers of 16 bits for its size, a Windows console signed ones.
The tests of the source are all made on an `int`. -/

namespace ExPTY.WindowSize
open Handover (accepts)
open NativeCalls (Errno Winsize ioctl_reply is_int)
open Server (Binary OsType Reply SpawnUnix T Term)

structure Size where
  cols : Int
  rows : Int
  deriving DecidableEq, Repr

/-- `COORD` -/
structure Coord where
  X : BitVec 16
  Y : BitVec 16
  deriving DecidableEq, Repr

def winsize (winp : Winsize) : Size := ⟨winp.ws_col.toNat, winp.ws_row.toNat⟩

def Coord.size (coord : Coord) : Size := ⟨coord.X.toInt, coord.Y.toInt⟩

/-- What a native function answers. `undefined` is a term that no statement has written. -/
inductive Answer where
  | ok
  | error (reason : String)
  | badarg
  | undefined
  deriving DecidableEq, Repr

def Answer.of : Reply → Answer
  | .error reason => .error reason
  | _ => .ok

def Answer.refused : Answer → Bool
  | .error _ | .badarg => true
  | .ok | .undefined => false

/-- The answer of a call, the size that it gave to the system, and the size of the
session's terminal when it has returned. -/
structure Outcome where
  answer : Answer
  handed : Option Size := none
  size : Option Size
  deriving DecidableEq, Repr

/-- What a call finds and is answered. An absent error number is a success, and `rest` is
the error that a spawn comes to after it has a terminal. -/
structure System where
  size : Option Size
  rest : Option String
  -- Unix
  openpty : Bool
  TIOCSWINSZ : Option Errno
  -- Windows
  host : ShellPath.Host
  ptyHandles : List Int
  LoadLibraryExW : Bool
  GetProcAddress : Bool
  CreatePseudoConsole : Bool
  ResizePseudoConsole : Bool

namespace System
variable (system : System)

def opened (size : Size) : Outcome :=
  match system.rest with
  | none => { answer := .ok, handed := some size, size := some size }
  | some reason => { answer := .error reason, handed := some size, size := none }

namespace Unix

def expty_spawn (request : SpawnUnix) : Outcome :=
  if accepts request then
    let winp : Winsize := ⟨.ofInt 16 request.cols, .ofInt 16 request.rows⟩
    if system.openpty then system.opened (winsize winp) else { answer := .error "openpty() failed.", size := none }
  else { answer := .error "error", size := none }

def expty_resize (pipesocket : Term) (cols rows : Int) : Outcome :=
  match pipesocket with
  | .reference _ =>
    if is_int cols ∧ cols > 0 ∧ is_int rows ∧ rows > 0 then
      let winp : Winsize := ⟨.ofInt 16 cols, .ofInt 16 rows⟩
      { answer := .of (ioctl_reply system.TIOCSWINSZ)
        handed := some (winsize winp)
        size := if system.TIOCSWINSZ = none then some (winsize winp) else system.size }
    else { answer := .error "Cannot get pipesocket resource", size := system.size }
  | _ => { answer := .error "Cannot get pipesocket resource", size := system.size }

end Unix

namespace Win32

/-- The other three arguments are of their documented types. Where the tests fail, the
result is returned as it was declared. -/
def expty_spawn (file : Binary) (cols rows : Int) : Outcome :=
  if is_int cols ∧ cols > 0 ∧ is_int rows ∧ rows > 0 then
    match ShellPath.expty_spawn system.host file with
    | .error why _ => { answer := .error why, size := none }
    | .ok _ =>
      let size : Coord := ⟨.ofInt 16 cols, .ofInt 16 rows⟩
      if system.CreatePseudoConsole then system.opened size.size
      else { answer := .error "Cannot launch conpty", size := none }
  else { answer := .undefined, size := none }

/-- The result of `ResizePseudoConsole` is not looked at. -/
def expty_resize (pty : Term) (cols rows : Int) : Outcome :=
  match pty with
  | .integer pty_id =>
    if is_int pty_id ∧ is_int cols ∧ cols > 0 ∧ is_int rows ∧ rows > 0 then
      if pty_id ∉ system.ptyHandles then { answer := .error "invalid pty handle", size := system.size }
      else if !system.LoadLibraryExW then { answer := .error "cannot load kernel32.dll", size := system.size }
      else if !system.GetProcAddress then
        { answer := .error "cannot find function ResizePseudoConsole", size := system.size }
      else
        let size : Coord := ⟨.ofInt 16 cols, .ofInt 16 rows⟩
        { answer := .ok
          handed := some size.size
          size := if system.ResizePseudoConsole then some size.size else system.size }
    else { answer := .badarg, size := system.size }
  | _ => { answer := .badarg, size := system.size }

end Win32

end System

/-- The calls that set a size, as they come to the native functions. A resize comes from a
session's server, by the clause for its platform. -/
inductive Request where
  | spawn_unix (request : SpawnUnix)
  | spawn_win32 (file : Binary) (cols rows : Int)
  | resize (session : T) (cols rows : Int)
  deriving DecidableEq, Repr

namespace Request

def os_type : Request → OsType
  | .spawn_unix _ => .unix
  | .spawn_win32 .. => .win32
  | .resize session _ _ => session.os_type

def asked : Request → Size
  | .spawn_unix request => ⟨request.cols, request.rows⟩
  | .spawn_win32 _ cols rows | .resize _ cols rows => ⟨cols, rows⟩

def isSpawn : Request → Bool
  | .resize .. => false
  | _ => true

end Request

def System.run (system : System) : Request → Outcome
  | .spawn_unix request => System.Unix.expty_spawn system request
  | .spawn_win32 file cols rows => System.Win32.expty_spawn system file cols rows
  | .resize session cols rows =>
    match session.os_type with
    | .unix => System.Unix.expty_resize system session.pipesocket cols rows
    | .win32 => System.Win32.expty_resize system session.pty cols rows

end ExPTY.WindowSize
