import ExPTY.Elixir

/-! The two ways by which a callback comes into a session: the options that `init` looks
at, and the public functions `on_data/2` and `on_exit/2`. Both ask for the arity of a
function and for the exports of a module, each in its own words. -/

namespace ExPTY.Callbacks
open Elixir
open Server (Callback Info Reply Request Serving)

/-- The block of `init` that makes a callback of an option. A module is asked for an
exported function of its own arity. -/
def installed (exports : Exports) (function : String) (arity exported : Nat) (option : Value) : Option Callback :=
  match option.or .nil with
  | .function callback => if callback.arity = arity then some (.func callback) else none
  | .atom module => if exports module function exported then some (.module module) else none
  | _ => none

def init_on_data (exports : Exports) (option : Value) : Option Callback := installed exports "on_data" 3 3 option

/-- A function has to take 4 arguments, but a module is asked for `on_exit/3`. -/
def init_on_exit (exports : Exports) (option : Value) : Option Callback := installed exports "on_exit" 4 3 option

inductive Client where
  | update (callback : Callback)
  | error (reason : String)
  | function_clause
  deriving DecidableEq, Repr

def Client.callback? : Client → Option Callback
  | .update callback => some callback
  | _ => none

/-- Interpolating an atom; `nil` gives the empty text. -/
def interpolate (module : String) : String := if module = "nil" then "" else module

def checked (exports : Exports) (function : String) (arity : Nat) : Value → Client
  | .function callback => if callback.arity = arity then .update (.func callback) else .function_clause
  | .atom module =>
    if exports module function arity then .update (.module module)
    else .error ("expecting " ++ interpolate module ++ "." ++ function ++ "/3 to be exist")
  | _ => .function_clause

def on_data (exports : Exports) (value : Value) : Client := checked exports "on_data" 3 value

/-- The error names `on_exit/3` here too. -/
def on_exit (exports : Exports) (value : Value) : Client := checked exports "on_exit" 4 value

inductive Action where
  | on_data (value : Value)
  | on_exit (value : Value)
  | call (request : Request) (answer : Server.Nif.Call → Reply)
  | message (info : Info)

/-- No other public function sends an update. -/
def plain : Request → Bool
  | .update_on_data _ | .update_on_exit _ => false
  | _ => true

/-- A refused value stays with the caller. -/
def send (serving : Serving) (request : Callback → Request) : Client → Option Serving
  | .update callback => serving.step (.call (request callback) fun _ => .ok)
  | _ => some serving

def step (exports : Exports) (serving : Serving) : Action → Option Serving
  | .on_data value => send serving .update_on_data (on_data exports value)
  | .on_exit value => send serving .update_on_exit (on_exit exports value)
  | .call request answer => if plain request then serving.step (.call request answer) else none
  | .message info => serving.step (.info info)

end ExPTY.Callbacks
