import ExPTY.Server

/-! The smart cell of lib/expty_smartcell.ex on Unix: its handlers, and a world in
which browser events, delayed messages and the exit notices of all its sessions
reach it in any order. A notice in flight remembers its session only for the
statements about it: the handler is given the exit code and nothing else. -/

namespace ExPTY.SmartCell
open Server (Binary)

/-- A session server, as the pid that `ExPTY.spawn` returns. -/
abbrev Pid := Nat

/-- `ctx.assigns` -/
structure Assigns where
  executable : String
  pty : Option Pid := none
  pty_ref : Option Nat := none
  started? : Bool := false
  deriving DecidableEq, Repr

/-- What a handler does besides returning new assigns, in the order it does it. -/
inductive Effect where
  | on_data (pty : Pid)
  | on_exit (pty : Pid)
  | write (pty : Pid) (data : Binary)
  | resize (pty : Pid) (cols rows : Int)
  | kill (pty : Pid) (signal : Int)
  | send_after (cols rows : Int) (delay : Nat)
  | broadcast_exited (code : Int)
  deriving DecidableEq, Repr

abbrev Handled := Assigns × List Effect

def default_executable (darwin : Bool) : String := if darwin then "zsh" else "bash"

/-- `init/2` -/
def init (darwin : Bool) (executable : Option String) : Assigns :=
  { executable := executable.getD (default_executable darwin) }

def stop_executable (assigns : Assigns) : List Effect :=
  match assigns.pty with
  | some pty => [.kill pty 9]
  | none => []

/-- `handle_event("start_executable")`, given what `ExPTY.spawn` answers for an
executable. `{:ok, pty} = ...` crashes the cell when the spawn fails. -/
def handle_start (darwin : Bool) (executable : Option String) (spawn : String → Option Pid) (assigns : Assigns) :
    Option Handled :=
  if assigns.started? then
    some (assigns, [])
  else
    match spawn (executable.getD (default_executable darwin)) with
    | some pty => some ({ assigns with pty := some pty, started? := true }, [.on_data pty, .on_exit pty])
    | none => none

def handle_stop (assigns : Assigns) : Handled :=
  ({ assigns with pty := none, started? := false }, stop_executable assigns)

/-- `handle_event("on_key")`, given what `Base.decode64` makes of the data. -/
def handle_on_key (decoded : Option Binary) (assigns : Assigns) : Handled :=
  match assigns.pty, decoded with
  | some pty, some data => (assigns, [.write pty data])
  | _, _ => (assigns, [])

/-- `handle_event("resize")`. Other dimensions fall through to the last clause. -/
def handle_resize (cols rows : Int) (assigns : Assigns) : Handled :=
  if cols > 0 ∧ rows > 0 then
    match assigns.pty with
    | some pty => (assigns, [.resize pty cols rows])
    | none => (assigns, [.send_after cols rows 500])
  else (assigns, [])

/-- `handle_info({:resize, cols, rows})` -/
def handle_delayed_resize (cols rows : Int) (assigns : Assigns) : Handled :=
  match assigns.pty with
  | some pty => (assigns, [.resize pty cols rows])
  | none => (assigns, [])

/-- `handle_info({:executable_exited, code})` -/
def handle_executable_exited (code : Int) (assigns : Assigns) : Handled :=
  ({ assigns with pty := none, pty_ref := none, started? := false }, [.broadcast_exited code])

/-- One started session. Its `on_exit` callback posts one notice to the cell, at
some time after the child has ended. -/
structure Session where
  alive : Bool := true
  killed : Bool := false
  notified : Bool := false
  reports_data : Bool := false
  reports_exit : Bool := false
  /-- What `ExPTY.resize` was last given. Until then the session has its spawn's size. -/
  resized : Option (Int × Int) := none
  written : List Binary := []
  deriving DecidableEq, Repr

structure World where
  darwin : Bool
  assigns : Assigns
  terminated : Bool := false
  sessions : List Session := []
  notices : List (Pid × Int) := []
  delayed : List (Int × Int) := []
  exits : List Int := []
  deriving DecidableEq, Repr

inductive Event where
  | start_executable (executable : Option String) (succeeds : Bool)
  | stop_executable
  | on_key (decoded : Option Binary)
  | resize (cols rows : Int)
  | unknown_event
  | delayed_resize (cols rows : Int)
  | executable_exited (origin : Pid) (code : Int)
  | terminate
  | child_exit (pty : Pid)
  | on_exit (pty : Pid) (code : Int)
  deriving DecidableEq, Repr

namespace World

def update (world : World) (pty : Pid) (change : Session → Session) : World :=
  { world with sessions := world.sessions.modify pty change }

def perform (world : World) : Effect → World
  | .on_data pty => world.update pty fun session => { session with reports_data := true }
  | .on_exit pty => world.update pty fun session => { session with reports_exit := true }
  | .write pty data => world.update pty fun session => { session with written := session.written ++ [data] }
  | .resize pty cols rows => world.update pty fun session => { session with resized := some (cols, rows) }
  | .kill pty _ => world.update pty fun session => { session with killed := true }
  | .send_after cols rows _ => { world with delayed := world.delayed ++ [(cols, rows)] }
  | .broadcast_exited code => { world with exits := world.exits ++ [code] }

def apply (world : World) (handled : Handled) : World := handled.2.foldl perform { world with assigns := handled.1 }

/-- A crash in a handler and an orderly shutdown both end in `terminate/2`. -/
def terminate (world : World) : World :=
  { world.apply (world.assigns, SmartCell.stop_executable world.assigns) with terminated := true }

def fresh (world : World) : Pid := world.sessions.length

def start (world : World) (executable : Option String) (succeeds : Bool) : World :=
  let spawn := fun _ => if succeeds then some world.fresh else none
  match handle_start world.darwin executable spawn world.assigns with
  | some handled =>
    -- the session is there before the handler registers its callbacks
    let sessions := if world.assigns.started? then world.sessions else world.sessions ++ [{}]
    World.apply { world with sessions } handled
  | none => world.terminate

def step (world : World) (event : Event) : Option World :=
  match event with
  | .child_exit pty =>
    if (world.sessions[pty]?.any fun session => session.alive) then
      some (world.update pty fun session => { session with alive := false })
    else none
  | .on_exit pty code =>
    if (world.sessions[pty]?.any fun session => session.reports_exit && !session.alive && !session.notified) then
      some { world.update pty fun session => { session with notified := true } with
        notices := world.notices ++ [(pty, code)] }
    else none
  | event =>
    if world.terminated then none
    else match event with
      | .start_executable executable succeeds => some (world.start executable succeeds)
      | .stop_executable => some (world.apply (handle_stop world.assigns))
      | .on_key decoded => some (world.apply (handle_on_key decoded world.assigns))
      | .resize cols rows => some (world.apply (handle_resize cols rows world.assigns))
      | .delayed_resize cols rows =>
        if (cols, rows) ∈ world.delayed then
          some (World.apply { world with delayed := world.delayed.erase (cols, rows) }
            (handle_delayed_resize cols rows world.assigns))
        else none
      | .executable_exited origin code =>
        if (origin, code) ∈ world.notices then
          some (World.apply { world with notices := world.notices.erase (origin, code) }
            (handle_executable_exited code world.assigns))
        else none
      | .terminate => some world.terminate
      | _ => some world

end World

end ExPTY.SmartCell
