import ExPTY.SmartCell

/-! One `start_executable` of the smart cell at the level of messages. The cell calls
`ExPTY.spawn`, `ExPTY.on_data` and `ExPTY.on_exit` one after the other, the native
threads post to the same server from `spawn_unix` on, and the server takes its messages
in the order in which they arrived. -/

namespace ExPTY.SmartCellStart
open Server (Binary Callback Info Invocation Request T UnixPack handle_call handle_do_spawn handle_info)
open SmartCell (Assigns Pid handle_executable_exited)

/-- The functions that `start_executable` registers. -/
def on_data : Callback := .func ⟨0, 3⟩
def on_exit : Callback := .func ⟨1, 4⟩

/-- Where the cell is in `start_executable`: before a call, waiting for its answer, or
back in its own loop. -/
inductive Cell where
  | spawning | spawned | setting_on_data | on_data_set | setting_on_exit | on_exit_set | idle
  deriving DecidableEq, Repr

inductive Mail where
  | call (request : Request)
  | info (message : Info)
  deriving DecidableEq, Repr

def started (pty : Pid) (assigns : Assigns) : Assigns := { assigns with pty := some pty, started? := true }

structure World where
  pack : UnixPack
  pty : Pid
  assigns : Assigns
  cell : Cell := .spawning
  launched : Bool := false
  server : Option T := none
  mailbox : List Mail := []
  posted : List Binary := []
  exits : List Int := []
  broadcasts : List Binary := []
  /-- The `{:executable_exited, code}` messages on their way to the cell, and those it
  has handled. -/
  notices : List Int := []
  handled : List Int := []

inductive Event where
  | spawn_unix
  | do_spawn (pipesocket : Nat) (pid : Int) (pty : Binary)
  | post_data (data : Binary)
  | post_exit (exit_code signal_code : Int)
  | call_on_data
  | call_on_exit
  | take
  | assign
  | executable_exited
  deriving DecidableEq, Repr

namespace World

/-- `ExPTY.spawn(executable, [])`, so that the session starts without callbacks. -/
def start (pack : UnixPack) (pty : Pid) (executable : String) : World :=
  { pack := { pack with on_data := none, on_exit := none }, pty, assigns := { executable } }

def invoke (world : World) : Option Invocation → World
  | some (.on_data callback data) =>
    if callback = SmartCellStart.on_data then { world with broadcasts := world.broadcasts ++ [data] } else world
  | some (.on_exit callback exit_code _) =>
    if callback = SmartCellStart.on_exit then { world with notices := world.notices ++ [exit_code] } else world
  | none => world

/-- Where the answer to a call leaves the cell. -/
def answered (cell : Cell) : Request → Cell
  | .update_on_data _ => .on_data_set
  | .update_on_exit _ => .on_exit_set
  | _ => cell

def receive (world : World) (session : T) : Mail → Option World
  | .call request =>
    (handle_call (fun _ => .ok) request session).map fun handled =>
      { world with server := some handled.state, cell := answered world.cell request }
  | .info message => (handle_info message session).map world.invoke

def step (world : World) : Event → Option World
  | .spawn_unix => if world.launched then none else some { world with launched := true }
  | .do_spawn pipesocket pid pty =>
    if world.cell = .spawning ∧ world.launched then
      (handle_do_spawn (fun _ => .session pipesocket pid pty) world.pack).map fun answer =>
        { world with server := some answer.2, cell := .spawned }
    else none
  | .post_data data =>
    if world.launched then
      some { world with mailbox := world.mailbox ++ [.info (.data data)], posted := world.posted ++ [data] }
    else none
  -- the waiter posts one exit message
  | .post_exit exit_code signal_code =>
    if world.launched ∧ world.exits = [] then
      some { world with
        mailbox := world.mailbox ++ [.info (.exit exit_code (some signal_code))], exits := [exit_code] }
    else none
  | .call_on_data =>
    if world.cell = .spawned then
      some { world with
        mailbox := world.mailbox ++ [.call (.update_on_data SmartCellStart.on_data)], cell := .setting_on_data }
    else none
  | .call_on_exit =>
    if world.cell = .on_data_set then
      some { world with
        mailbox := world.mailbox ++ [.call (.update_on_exit SmartCellStart.on_exit)], cell := .setting_on_exit }
    else none
  | .take =>
    match world.server, world.mailbox with
    | some session, mail :: rest => receive { world with mailbox := rest } session mail
    | _, _ => none
  | .assign =>
    if world.cell = .on_exit_set then some { world with assigns := started world.pty world.assigns, cell := .idle }
    else none
  | .executable_exited =>
    match world.cell, world.notices with
    | .idle, code :: rest =>
      some { world with
        assigns := (handle_executable_exited code world.assigns).1, notices := rest, handled := world.handled ++ [code] }
    | _, _ => none

end World

end ExPTY.SmartCellStart
