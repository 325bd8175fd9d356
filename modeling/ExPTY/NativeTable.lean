import ExPTY.Start

/-! The native functions behind `ExPTY.Nif`: the functions that the module of
lib/expty_nif.ex defines, the table of either library, and what the module is after its
`load_nif/0` has asked the runtime to put the one in the place of the other. -/

namespace ExPTY.NativeTable
open Server (OsType)
open Start (Answer Answers)

/-- A function of a module. -/
structure Function where
  name : String
  arity : Nat
  deriving DecidableEq, Repr

inductive Implementation where
  | expty_spawn | expty_pty_connect | expty_write | expty_kill | expty_resize | expty_pause | expty_resume
  | expty_set_echo | expty_stub
  deriving DecidableEq, Repr

/-- `ErlNifFunc` -/
structure Entry where
  function : Function
  fptr : Implementation
  deriving DecidableEq, Repr

/-- The functions of `ExPTY.Nif`. -/
def defined : List Function :=
  [⟨"load_nif", 0⟩, ⟨"helper_path", 0⟩, ⟨"spawn_win32", 6⟩, ⟨"spawn_unix", 14⟩, ⟨"connect_win32", 4⟩, ⟨"write", 2⟩,
    ⟨"resize", 3⟩, ⟨"kill", 2⟩, ⟨"pause", 1⟩, ⟨"resume", 1⟩, ⟨"set_echo", 2⟩]

/-- The tables of pty.cpp and of conpty.cc. -/
def nif_functions : OsType → List Entry
  | .unix =>
    [⟨⟨"spawn_unix", 14⟩, .expty_spawn⟩, ⟨⟨"write", 2⟩, .expty_write⟩, ⟨⟨"kill", 2⟩, .expty_kill⟩,
      ⟨⟨"resize", 3⟩, .expty_resize⟩, ⟨⟨"pause", 1⟩, .expty_pause⟩, ⟨⟨"resume", 1⟩, .expty_resume⟩,
      ⟨⟨"set_echo", 2⟩, .expty_set_echo⟩,
      -- stubs
      ⟨⟨"spawn_win32", 6⟩, .expty_stub⟩, ⟨⟨"connect_win32", 4⟩, .expty_stub⟩]
  | .win32 =>
    [⟨⟨"spawn_win32", 6⟩, .expty_spawn⟩, ⟨⟨"write", 2⟩, .expty_write⟩, ⟨⟨"resize", 3⟩, .expty_resize⟩,
      ⟨⟨"connect_win32", 4⟩, .expty_pty_connect⟩,
      -- stubs
      ⟨⟨"spawn_unix", 13⟩, .expty_stub⟩, ⟨⟨"pause", 1⟩, .expty_stub⟩, ⟨⟨"resume", 1⟩, .expty_stub⟩]

inductive Refusal where
  | reload | load_failed
  | bad_lib (function : Function)
  deriving DecidableEq, Repr

/-- `erlang:load_nif/2`, given whether the file can be opened. A table may only name
functions that the module defines. -/
def load_nif (functions : List Function) (opened : Bool) (table : List Entry) : Except Refusal Unit :=
  if !opened then .error .load_failed
  else
    match table.find? fun entry => entry.function ∉ functions with
    | some entry => .error (.bad_lib entry.function)
    | none => .ok ()

inductive Module where
  | natives (table : List Entry)
  -- with the bodies that raise `:not_loaded`
  | placeholders
  -- with no function at all
  | missing
  deriving DecidableEq, Repr

namespace Module

/-- `ExPTY.Nif` after its `@on_load`, which fails for a reason that is no text. -/
def load (functions : List Function) (opened : Bool) (table : List Entry) : Module :=
  match load_nif functions opened table with
  | .ok () | .error .reload => .natives table
  | .error .load_failed => .placeholders
  | .error (.bad_lib _) => .missing

/-- What a call of a function runs, where it does not raise. A later entry takes the place
of an earlier one. -/
def call (function : Function) : Module → Option Implementation
  | .natives table => ((table.filter (·.function = function)).getLast?).map Entry.fptr
  | .placeholders | .missing => none

/-- What the server gets of a call that is meant for an implementation. To it an exception
is like a `badarg`. -/
def answer {α : Type} (module : Module) (function : Function) (implementation : Implementation) (own : Answer α) :
    Answer α :=
  match module.call function with
  | none => .badarg
  | some called =>
    if called = implementation then own
    else if called = .expty_stub then .error "invalid NIF call to platform-specific implementation"
    else .badarg

/-- The answers of a spawn, given those of the implementations. -/
def answers (module : Module) (own : Answers) : Answers :=
  { spawn_unix := module.answer ⟨"spawn_unix", 14⟩ .expty_spawn own.spawn_unix
    spawn_win32 := module.answer ⟨"spawn_win32", 6⟩ .expty_spawn own.spawn_win32
    connect_win32 := module.answer ⟨"connect_win32", 4⟩ .expty_pty_connect own.connect_win32 }

end Module

/-- The function that a call of a session is for. -/
def function : Server.Nif.Call → Function
  | .write .. => ⟨"write", 2⟩
  | .kill .. => ⟨"kill", 2⟩
  | .resize .. => ⟨"resize", 3⟩
  | .pause .. => ⟨"pause", 1⟩
  | .resume .. => ⟨"resume", 1⟩
  | .set_echo .. => ⟨"set_echo", 2⟩

/-- The implementation in pty.cpp that is modelled for it. -/
def implementation : Server.Nif.Call → Implementation
  | .write .. => .expty_write
  | .kill .. => .expty_kill
  | .resize .. => .expty_resize
  | .pause .. => .expty_pause
  | .resume .. => .expty_resume
  | .set_echo .. => .expty_set_echo

end ExPTY.NativeTable
