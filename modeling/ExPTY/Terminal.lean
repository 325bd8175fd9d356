import ExPTY.NativeCalls

/-! A Unix session server together with the terminal that its native calls work on. The
server handles one request at a time, so each native call runs to its return against
the terminal as it finds it, and any of its system calls may fail. The session is open
and nobody else changes the settings. -/

namespace ExPTY.Terminal
open NativeCalls
open Termios (Header)
open Server (Binary Reply Request Nif.Call)

/-- The terminal: its settings, and the bytes written to the master that the line
discipline passed on to the child, each with the native call that wrote it. -/
structure Tty (header : Header) where
  settings : Termios.T header
  input : List (Nif.Call × UInt8) := []

/-- What the kernel does about one system call. A write counts the bytes it accepts. -/
inductive Answer where
  | succeeds (count : Nat)
  | fails (errno : Errno)
  deriving DecidableEq, Repr

variable {header : Header}

/-- With IXON set, START and STOP are taken for flow control and go no further. -/
def flow_control (settings : Termios.T header) (byte : UInt8) : Bool :=
  settings.ixon && (byte == settings.c_cc .VSTART || byte == settings.c_cc .VSTOP)

namespace Tty

def receive (tty : Tty header) (source : Nif.Call) (bytes : Binary) : Tty header :=
  { tty with input := tty.input ++ (bytes.filter fun byte => !flow_control tty.settings byte).map (source, ·) }

def kernel (tty : Tty header) : Answer → Kernel header
  | .succeeds count => { write := some count, ioctl := none, tcgetattr := some tty.settings, tcsetattr := true }
  | .fails errno => { write := none, ioctl := some errno, tcgetattr := none, tcsetattr := false }

def perform (tty : Tty header) (source : Nif.Call) (kernel : Kernel header) : Syscall header → Tty header
  | .write data offset nbytes => tty.receive source (accepted kernel (.write data offset nbytes))
  | .tcsetattr settings => if kernel.tcsetattr then { tty with settings } else tty
  | .ioctl _ | .tcgetattr => tty

/-- A native call up to its return, with one answer for each of its actions. Those to an
action that is no system call are not looked at. -/
def run (source : Nif.Call) : List Answer → Call header → Tty header → Option (Reply × Tty header)
  | _, .returned reply, tty => some (reply, tty)
  | [], _, _ => none
  | answer :: answers, call, tty =>
    match call.next with
    | some (.check after) => run source answers (after false) tty
    | some (.lock after) | some (.unlock after) => run source answers after tty
    | some (.system system after) =>
      let kernel := tty.kernel answer
      if Bounded kernel system then run source answers (after kernel) (tty.perform source kernel system) else none
    | none => none

def native (tty : Tty header) (answers : List Answer) (call : Nif.Call) : Option (Reply × Tty header) :=
  (NativeCalls.start call).bind fun started => tty.run call answers started

end Tty

/-- One request as it went: the native calls with their answers, the reply, the states. -/
structure Entry where
  request : Request
  before : Server.T
  native : List (Nif.Call × Reply)
  reply : Reply
  after : Server.T

structure World (header : Header) where
  session : Server.T
  tty : Tty header
  log : List Entry := []

structure Event where
  request : Request
  answers : List Answer

/-- The server's clause and its native call, if it makes one. `kill` does not use the
terminal and is no step here. -/
def World.step (world : World header) (event : Event) : Option (World header) :=
  let answer call := ((world.tty.native event.answers call).map Prod.fst).getD .ok
  (Server.handle_call answer event.request world.session).bind fun handled =>
    let native := handled.calls.map fun call => (call, answer call)
    let world' := { world with
      session := handled.state
      log := world.log ++ [⟨event.request, world.session, native, handled.reply, handled.state⟩] }
    match handled.calls with
    | [] => some world'
    | call :: _ => (world.tty.native event.answers call).map fun returned => { world' with tty := returned.2 }

/-- A session just spawned, with nothing written to its terminal yet. -/
def World.spawned (pack : Server.UnixPack) (pipesocket : Nat) (pid : Int) (pty : Binary)
    (settings : Termios.T header) : World header :=
  { session := .of_spawn pack pipesocket pid pty, tty := { settings } }

end ExPTY.Terminal
