import ExPTY.PageButton

/-! The size of the terminal on the page of lib/assets/main.js, and how the cell hears of
it: the terminal of xterm.js with its fit addon, the observers of its element, and the
resizes that the page pushes among its starts and stops. -/

namespace ExPTY.PageSize
open PageButton (Page)

/-- Columns and rows. -/
abbrev Size := Int × Int

inductive Pushed where
  | button (event : PageButton.Pushed)
  | resize (cols rows : Int)
  deriving DecidableEq, Repr

structure View where
  -- `term.cols` and `term.rows`
  size : Size := (80, 24)
  opened : Bool := false
  /-- The calls of `term.open` and of `term.onResize`. -/
  opens : Nat := 0
  listeners : Nat := 0
  /-- The observers made, those that are not disconnected, and the one in the variable. -/
  made : Nat := 0
  observing : List Nat := []
  resizeObserver : Option Nat := none
  deriving DecidableEq, Repr

namespace View
variable (view : View)

/-- `Terminal.resize`, which tells its listeners of a new size. -/
def resize (size : Size) : View × List Pushed :=
  if size = view.size then (view, [])
  else
    -- MINIMUM_COLS, MINIMUM_ROWS
    ({ view with size := (max size.1 2, max size.2 1) },
      List.replicate view.listeners (.resize (max size.1 2) (max size.2 1)))

/-- `FitAddon.proposeDimensions`, given how many columns and rows there is room for. -/
def proposeDimensions (room : Option Size) : Option Size :=
  if view.opens = 0 then none else room.map fun size => (max 2 size.1, max 1 size.2)

/-- `FitAddon.fit` -/
def fit (room : Option Size) : View × List Pushed :=
  match view.proposeDimensions room with
  | none => (view, [])
  | some size => if view.size = size then (view, []) else view.resize size

def fullscreenchanged (left : Bool) (room : Option Size) : View × List Pushed :=
  let default := if left then view.resize (80, 24) else (view, [])
  let fitted := default.1.fit room
  (fitted.1, default.2 ++ fitted.2)

/-- The terminal is opened at the first start. -/
def open_terminal : View :=
  if view.opened then view else { view with opened := true, opens := view.opens + 1, listeners := view.listeners + 1 }

/-- A new observer takes the place of the one in the variable, which goes on observing. -/
def observe : View :=
  { view with
    made := view.made + 1, observing := view.observing ++ [view.made], resizeObserver := some view.made }

/-- `start_stop_executable()` for the terminal. -/
def start (room : Option Size) : View × List Pushed :=
  let fitted := view.open_terminal.fit room
  (fitted.1.observe, fitted.2)

def stop : View :=
  match view.resizeObserver with
  | some observer => { view with observing := view.observing.erase observer }
  | none => view

end View

structure World where
  page : Page
  view : View := {}
  cell : SmartCell.World
  pushed : List Pushed := []
  /-- The codes of the `"executable_exited"` events on their way to the page. -/
  exited : List Int := []
  deriving DecidableEq, Repr

inductive Event where
  | edit (executable : String)
  | click (room : Option Size)
  | enter_fullscreen (room : Option Size)
  | fullscreenchanged (left : Bool) (room : Option Size)
  | observed (observer : Nat) (room : Option Size)
  | deliver (succeeds : Bool)
  | cell (event : SmartCell.Event)
  | executable_exited
  deriving DecidableEq, Repr

def Pushed.event (succeeds : Bool) : Pushed → SmartCell.Event
  | .button event => event.event succeeds
  | .resize cols rows => .resize cols rows

namespace World

/-- The page as `init` of main.js leaves it. -/
def init (darwin : Bool) (executable : Option String) : World :=
  let assigns := SmartCell.init darwin executable
  { page := { executable := assigns.executable }, cell := { darwin, assigns } }

/-- The terminal changes and the page pushes what it was told. -/
def show_view (world : World) (shown : View × List Pushed) : World :=
  { world with view := shown.1, pushed := world.pushed ++ shown.2 }

def start_stop_executable (world : World) (room : Option Size) : World :=
  let (page, event) := world.page.start_stop_executable
  let clicked := { world with page, pushed := world.pushed ++ [Pushed.button event] }
  match world.page.icon with
  | .stop => { clicked with view := world.view.stop }
  | .play => clicked.show_view (world.view.start room)

def follow (world : World) (event : SmartCell.Event) : Option World :=
  (world.cell.step event).map fun cell =>
    { world with cell, exited := world.exited ++ cell.exits.drop world.cell.exits.length }

def step (world : World) : Event → Option World
  | .edit executable => some { world with page := { world.page with executable } }
  | .click room => some (world.start_stop_executable room)
  | .enter_fullscreen room => if world.page.icon = .stop then some (world.show_view (world.view.fit room)) else some world
  | .fullscreenchanged left room =>
    if world.view.opened then some (world.show_view (world.view.fullscreenchanged left room)) else none
  | .observed observer room =>
    if observer ∈ world.view.observing then some (world.show_view (world.view.fit room)) else none
  | .deliver succeeds =>
    match world.pushed with
    | event :: rest => World.follow { world with pushed := rest } (event.event succeeds)
    | [] => none
  -- these come from the page only
  | .cell (.start_executable ..) | .cell .stop_executable | .cell (.resize ..) => none
  | .cell event => world.follow event
  | .executable_exited =>
    match world.exited with
    | code :: rest => some { world with page := world.page.executable_exited code, exited := rest }
    | [] => none

end World

end ExPTY.PageSize
