import ExPTY.Runs
import ExPTY.SharedDescriptor

/-! One session's descriptor with a record of what has happened on it. Nothing reads the
record, so that it stands beside the descriptor in every run and changes none. -/

namespace ExPTY.SharedDescriptor
open NativeCalls
open Termios (Header)
open Server (Binary)

/-- What each call was made with, the calls that took the mutex in the order in which
they did, and the call that each entry of `uses` belongs to. -/
structure History (header : Header) where
  world : World header := {}
  requests : List Server.Nif.Call := []
  order : List Nat := []
  users : List Nat := []

variable {header : Header}

namespace History

def record (history : History header) : Event header → History header
  | .call request => { history with requests := history.requests ++ [request] }
  | .advance index _ =>
    match history.world.calls[index]?.bind Call.next with
    | some (.lock _) => { history with order := history.order ++ [index] }
    | some (.system _ _) => { history with users := history.users ++ [index] }
    | _ => history
  | _ => history

def step (history : History header) (event : Event header) : Option (History header) :=
  (history.world.step event).map fun world => { history.record event with world }

/-- The data of a call of `ExPTY.Nif.write` that finds its session's resource. -/
def source (history : History header) (index : Nat) : Option Binary :=
  match history.requests[index]? with
  | some (.write (.reference _) data) => some data
  | _ => none

/-- What the descriptor accepted from the calls of `ExPTY.Nif.write`, in the order in which it did. -/
def written (history : History header) : Binary :=
  (history.users.zip history.world.uses).flatMap fun (user, use) =>
    if (history.source user).isSome then use.accepted else []

/-- The first so many bytes of what a call was made with. -/
def share (history : History header) (count : Nat → Nat) (index : Nat) : Binary :=
  ((history.source index).getD []).take (count index)

end History

end ExPTY.SharedDescriptor
