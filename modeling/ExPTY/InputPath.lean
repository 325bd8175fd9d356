import ExPTY.Page
import ExPTY.PageButton

/-! The keys on their way from the page of lib/assets/main.js to the sessions: what is
typed is pushed among the starts and stops, and the cell gives each key to the session
that it has when the key arrives. -/

namespace ExPTY.InputPath
open PageButton (Page)

inductive Pushed where
  | button (event : PageButton.Pushed)
  | on_key (data : List Char)
  deriving DecidableEq, Repr

structure World where
  page : Page
  cell : SmartCell.World
  pushed : List Pushed := []
  /-- The codes of the `"executable_exited"` events on their way to the page. -/
  exited : List Int := []
  deriving DecidableEq, Repr

inductive Event where
  | edit (executable : String)
  | click
  | typed (text : List Char)
  | deliver (succeeds : Bool)
  | cell (event : SmartCell.Event)
  | executable_exited
  deriving DecidableEq, Repr

def Pushed.event (succeeds : Bool) : Pushed → SmartCell.Event
  | .button event => event.event succeeds
  | .on_key data => .on_key (Base64.decode data)

namespace World

/-- The page as `init` of main.js leaves it. -/
def init (darwin : Bool) (executable : Option String) : World :=
  let assigns := SmartCell.init darwin executable
  { page := { executable := assigns.executable }, cell := { darwin, assigns } }

/-- `term.onData`, where `btoa` may throw. -/
def on_data (world : World) (text : List Char) : World :=
  match Page.on_data text with
  | some data => { world with pushed := world.pushed ++ [.on_key data] }
  | none => world

def follow (world : World) (event : SmartCell.Event) : Option World :=
  (world.cell.step event).map fun cell =>
    { world with cell, exited := world.exited ++ cell.exits.drop world.cell.exits.length }

def step (world : World) : Event → Option World
  | .edit executable => some { world with page := { world.page with executable } }
  | .click =>
    let (page, event) := world.page.start_stop_executable
    some { world with page, pushed := world.pushed ++ [.button event] }
  | .typed text => some (world.on_data text)
  | .deliver succeeds =>
    match world.pushed with
    | event :: rest => World.follow { world with pushed := rest } (event.event succeeds)
    | [] => none
  -- these come from the page only
  | .cell (.start_executable ..) | .cell .stop_executable | .cell (.on_key _) => none
  | .cell event => world.follow event
  | .executable_exited =>
    match world.exited with
    | code :: rest => some { world with page := world.page.executable_exited code, exited := rest }
    | [] => none

end World

end ExPTY.InputPath
