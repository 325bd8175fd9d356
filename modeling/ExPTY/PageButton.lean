import ExPTY.SmartCell

/-! The start and stop button of the page, lib/assets/main.js, and the cell behind it. The
page pushes its events on one ordered channel and gets the cell's on another, and it
never asks what the cell's state is. -/

namespace ExPTY.PageButton
open SmartCell (Assigns)

inductive Icon where
  | play | stop
  deriving DecidableEq, Repr

inductive Pushed where
  | start_executable (executable : String)
  | stop_executable
  deriving DecidableEq, Repr

structure Page where
  executable : String
  icon : Icon := .play
  /-- The exit code in the status label, which is empty at first. -/
  status : Option Int := none
  deriving DecidableEq, Repr

structure World where
  page : Page
  cell : SmartCell.World
  pushed : List Pushed := []
  /-- The codes of the `"executable_exited"` events on their way to the page. -/
  exited : List Int := []
  deriving DecidableEq, Repr

inductive Event where
  | edit (executable : String)
  | click
  | deliver (succeeds : Bool)
  | cell (event : SmartCell.Event)
  | executable_exited
  deriving DecidableEq, Repr

/-- `start_stop_executable()` -/
def Page.start_stop_executable (page : Page) : Page × Pushed :=
  match page.icon with
  | .stop => ({ page with icon := .play }, .stop_executable)
  | .play => ({ page with icon := .stop, status := none }, .start_executable page.executable)

/-- `ctx.handleEvent("executable_exited")` -/
def Page.executable_exited (page : Page) (code : Int) : Page := { page with icon := .play, status := some code }

def Pushed.event (succeeds : Bool) : Pushed → SmartCell.Event
  | .start_executable executable => .start_executable (some executable) succeeds
  | .stop_executable => .stop_executable

namespace World

/-- The page as `init` of main.js leaves it, whatever the cell's fields say of `started`. -/
def init (darwin : Bool) (executable : Option String) : World :=
  let assigns := SmartCell.init darwin executable
  { page := { executable := assigns.executable }, cell := { darwin, assigns } }

/-- A step of the cell, with what it broadcasts. -/
def follow (world : World) (event : SmartCell.Event) : Option World :=
  (world.cell.step event).map fun cell =>
    { world with cell, exited := world.exited ++ cell.exits.drop world.cell.exits.length }

def step (world : World) : Event → Option World
  | .edit executable => some { world with page := { world.page with executable } }
  | .click =>
    let (page, event) := world.page.start_stop_executable
    some { world with page, pushed := world.pushed ++ [event] }
  | .deliver succeeds =>
    match world.pushed with
    | event :: rest => World.follow { world with pushed := rest } (event.event succeeds)
    | [] => none
  -- these two come from the page only
  | .cell (.start_executable ..) | .cell .stop_executable => none
  | .cell event => world.follow event
  | .executable_exited =>
    match world.exited with
    | code :: rest => some { world with page := world.page.executable_exited code, exited := rest }
    | [] => none

end World

end ExPTY.PageButton
