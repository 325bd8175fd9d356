import ExPTY.Page
import ExPTY.ReaderThread
import ExPTY.SmartCellStart

/-! The output of a session on its whole way from the master to the page: the reader
thread, the mailbox of the session server, the events that the cell broadcasts and the
page's terminal. Each of them goes on in its own time. -/

namespace ExPTY.OutputPath
open Server (Binary UnixPack)
open ReaderThread (Allocator Thread Turn)

structure Path where
  thread : Thread := {}
  cell : SmartCellStart.World
  /-- The `"data"` events on their way to the page. -/
  channel : List (List Char) := []
  /-- What `term.write` has been given. -/
  screen : Binary := []

inductive Event where
  | turn (turn : Turn)
  | cell (event : SmartCellStart.Event)
  | page

namespace Path

/-- The `enif_send`s of the reader. -/
def post (cell : SmartCellStart.World) (messages : List Binary) : Option SmartCellStart.World :=
  messages.foldlM (fun cell data => cell.step (.post_data data)) cell

/-- `broadcast_event(ctx, "data", ...)` -/
def broadcast (path : Path) (cell : SmartCellStart.World) : Path :=
  { path with
    cell
    channel := path.channel ++ (cell.broadcasts.drop path.cell.broadcasts.length).map Base64.encode }

/-- The page's handler of `"data"`, which `atob` ends for what is not base64. -/
def show_data (path : Path) (data : List Char) : Path :=
  match Page.atob data with
  | some units => { path with screen := path.screen ++ units.map (·.toUInt8) }
  | none => path

def step (vm : Allocator) (fd : Nat) (path : Path) : Event → Option Path
  | .turn turn =>
    -- the thread is there once `spawn_unix` has started it
    if path.cell.launched then
      (path.thread.step vm fd turn).bind fun thread =>
        (post path.cell (thread.sent.drop path.thread.sent.length)).map fun cell => { path with thread, cell }
    else none
  | .cell (.post_data _) => none
  | .cell event => (path.cell.step event).map path.broadcast
  | .page =>
    match path.channel with
    | data :: rest => some { path.show_data data with channel := rest }
    | [] => none

def start (pack : UnixPack) (pty : SmartCell.Pid) (executable : String) : Path :=
  { cell := .start pack pty executable }

end Path

end ExPTY.OutputPath
