import ExPTY.SharedDescriptor

/-! A Unix session server between its mailbox and its descriptor. It handles one message
after the other, and a clause with a native call goes on only when the call has returned,
however long the kernel keeps it in its loop. -/

namespace ExPTY.SessionQueue
open NativeCalls
open Termios (Header)
open Server (Binary Info Reply Request Serving T Term UnixPack)

inductive Mail where
  | call (request : Request)
  | info (message : Info)
  deriving DecidableEq, Repr

/-- A message that has been handled, with what the native call of its clause returned. -/
structure Served where
  mail : Mail
  native : Option Reply := none
  deriving DecidableEq, Repr

/-- The step of the server that never waits. -/
def Served.event (served : Served) : Server.Event :=
  match served.mail with
  | .call request => .call request fun _ => served.native.getD .ok
  | .info message => .info message

/-- `expty_kill`, with the signals that it sends. -/
def expty_kill (pipesocket : Term) (signal : Int) : Reply × List Int :=
  match pipesocket with
  | .reference _ => if is_int signal ∧ signal > 0 then (.ok, [signal]) else (.error "Cannot get pipesocket resource", [])
  | _ => (.error "Cannot get pipesocket resource", [])

structure World (header : Header) where
  serving : Serving
  mailbox : List Mail := []
  /-- The request whose clause waits for its native call. -/
  waiting : Option Request := none
  descriptor : SharedDescriptor.World header := {}
  kills : List Int := []
  /-- Nothing reads these two: all the mail, and that which has been handled. -/
  posted : List Mail := []
  served : List Served := []

inductive Event (header : Header) where
  -- a caller of write, kill and the others
  | request (request : Request)
  -- the messages of the native threads
  | data (data : Binary)
  | exit (exit_code signal_code : Int)
  | take
  | advance (kernel : Kernel header)
  | answer
  -- the reader at the end of the file, and what becomes of the number after that
  | end_of_file
  | close
  | hangup
  | reopen (file : Nat)
  | release

variable {header : Header}

namespace World

/-- `handle_call(:do_spawn)` has installed the session. -/
def start (header : Header) (pack : UnixPack) (pipesocket : Nat) (pid : Int) (pty : Binary) : World header :=
  { serving := .spawned (.of_spawn pack pipesocket pid pty) }

def post (world : World header) (mail : Mail) : World header :=
  { world with mailbox := world.mailbox ++ [mail], posted := world.posted ++ [mail] }

def serve (world : World header) (served : Served) : Option (World header) :=
  (world.serving.step served.event).map fun serving => { world with serving, served := world.served ++ [served] }

/-- A clause up to its native call, of which no clause makes more than one. -/
def issue (world : World header) (request : Request) : List Server.Nif.Call → Option (World header)
  | [] => world.serve { mail := .call request }
  | .kill pipesocket signal :: _ =>
    let (reply, sent) := expty_kill pipesocket signal
    World.serve { world with kills := world.kills ++ sent } { mail := .call request, native := some reply }
  | call :: _ =>
    (world.descriptor.step (.call call)).map fun descriptor => { world with descriptor, waiting := some request }

def handle (world : World header) (request : Request) : Option (World header) :=
  (Server.handle_call (fun _ => .ok) request world.serving.session).bind fun handled => world.issue request handled.calls

def take (world : World header) : Option (World header) :=
  match world.waiting, world.mailbox with
  | none, .call request :: rest => World.handle { world with mailbox := rest } request
  | none, .info message :: rest => World.serve { world with mailbox := rest } { mail := .info message }
  | _, _ => none

/-- The native call has returned. -/
def answer (world : World header) : Option (World header) :=
  match world.waiting, world.descriptor.calls.getLast? with
  | some request, some (.returned reply) =>
    World.serve { world with waiting := none } { mail := .call request, native := some reply }
  | _, _ => none

def follow (world : World header) (event : SharedDescriptor.Event header) : Option (World header) :=
  (world.descriptor.step event).map fun descriptor => { world with descriptor }

def step (world : World header) : Event header → Option (World header)
  | .request request => some (world.post (.call request))
  | .data data => some (world.post (.info (.data data)))
  | .exit exit_code signal_code => some (world.post (.info (.exit exit_code (some signal_code))))
  | .take => world.take
  -- the last call is the one that the server waits for
  | .advance kernel => world.follow (.advance (world.descriptor.calls.length - 1) kernel)
  | .answer => world.answer
  | .end_of_file => world.follow .end_of_file
  | .close => world.follow .close
  | .hangup => world.follow .hangup
  | .reopen file => world.follow (.reopen file)
  | .release => world.follow .release

end World

end ExPTY.SessionQueue
