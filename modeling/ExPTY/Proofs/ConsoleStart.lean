import ExPTY.ConptyPath
import ExPTY.Proofs.CommandLineRoundTrip
import ExPTY.Proofs.FaithfulEnvironment
import ExPTY.Proofs.SpawnOptions

/-! What a Windows spawn starts, from the options of its caller to the command line, the
directory and the environment of the client, once its native calls are answered as the
implementations in conpty.cc answer them. Where all of it is text that the conversions
keep, the client reads its own arguments back from the command line. -/

namespace ExPTY.Proofs.ConsoleStart
open ConptyPath Elixir EnvironmentBlock Start
open Argv (commandLineToArgvW)
open CommandLineEncoding (encoded)
open CommandLineIsolation (SingleCodePoints)
open CommandLineRoundTrip (EnclosedBlank)
open FaithfulEnvironment (CleanEntry SameMap Starts Whole)
open Handover (Env get_env)
open NativeCalls (is_int)
open Server (Binary)
open SpawnOptions (outcome_calls setting text_binary)
open TermDecoding
open Unicode

/-- What the settings of a spawn stand for. -/
structure Request where
  file : Binary
  args : List Binary
  cols : Int
  rows : Int
  debug : Bool
  pipeName : Binary
  inheritCursor : Bool
  cwd : Binary
  env : List (Binary × Binary)

def Request.locals (request : Request) : Locals :=
  { file := request.file, cols := request.cols, rows := request.rows, debug := request.debug, pipeName := request.pipeName
    inheritCursor := request.inheritCursor }

inductive Variables : List (Value × Value) → List (Binary × Binary) → Prop where
  | nil : Variables [] []
  | cons {key value : Value} {name text : Binary} {rest : List (Value × Value)} {env : List (Binary × Binary)}
      (named : Text key name) (valued : Text value text) (more : Variables rest env) :
      Variables ((key, value) :: rest) ((name, text) :: env)

structure Asked (machine : Machine) (host : Host) (option : String → Value) (file args : Value) (request : Request) :
    Prop where
  file : file.or (.text "powershell.exe") = .binary request.file
  args : Texts (args.or .empty) request.args
  cols : Number (option "cols") request.cols ∧ request.cols > 0
  rows : Number (option "rows") request.rows ∧ request.rows > 0
  debug : Truth ((option "debug").or (.atom "false")) request.debug
  pipeName : ∃ name, host.interpolate ((option "pipe_name").or (.text "pipe")) = some name ∧
    request.pipeName = name ++ utf8 ('-' :: (toString host.uniform).toList)
  inheritCursor : Truth ((option "inherit_cursor").or (.atom "false")) request.inheritCursor
  cwd : host.expand (option "cwd") = some request.cwd
  env : ∃ id pairs, option "env" = .other id ∧ machine.maps id = some pairs ∧ Variables pairs request.env

/-- The client with these settings, unless the loop over its environment never ends. -/
def run (host : Host) (system : System) (request : Request) : Option Client :=
  (env_w (get_env request.env)).map fun env_w =>
    { commandLine := to_wstring (host.quoted (request.file :: request.args)), cwd := to_wstring request.cwd
      environment := system.built (envArg env_w) }

variable {machine : Machine} {host : Host} {answers : Answers} {file args : Value} {opts : Option Keyword}

section Terms

theorem get_variables_iff (pairs : List (Value × Value)) (env : List (Binary × Binary)) :
    get_variables pairs = some env ↔ Variables pairs env := by
  induction pairs generalizing env with
  | nil =>
    constructor
    · intro read
      cases read
      exact .nil
    · intro read
      cases read
      rfl
  | cons pair rest ih =>
    obtain ⟨key, value⟩ := pair
    simp only [get_variables, Option.bind_eq_bind, Option.bind_eq_some_iff, Option.pure_def, Option.some.injEq]
    constructor
    · rintro ⟨name, named, text, valued, later, read, rfl⟩
      exact .cons ((get_string_iff key name).mp named) ((get_string_iff value text).mp valued) ((ih later).mp read)
    · intro read
      cases read with
      | @cons _ _ name text _ later named valued more =>
        exact ⟨name, (get_string_iff key name).mpr named, text, (get_string_iff value text).mpr valued, later,
          (ih later).mpr more, rfl⟩

theorem get_env_iff (machine : Machine) (term : Value) (env : List (Binary × Binary)) :
    machine.get_env term = some env ↔
      ∃ id pairs, term = .other id ∧ machine.maps id = some pairs ∧ Variables pairs env := by
  constructor
  · intro read
    cases term with
    | other id =>
      obtain ⟨pairs, found, read⟩ := Option.bind_eq_some_iff.mp read
      exact ⟨id, pairs, rfl, found, (get_variables_iff pairs env).mp read⟩
    | atom | integer | binary | function | empty | cons => cases read
  · rintro ⟨id, pairs, rfl, found, entries⟩
    rw [Machine.get_env, found, Option.bind_some]
    exact (get_variables_iff pairs env).mpr entries

/-- The head of the native spawn takes the terms for these variables. -/
theorem read_iff (terms : ConptyPath.Terms) (locals : Locals) : terms.read = some locals ↔
    Text terms.file locals.file ∧ (Number terms.cols locals.cols ∧ locals.cols > 0) ∧
      (Number terms.rows locals.rows ∧ locals.rows > 0) ∧ Truth terms.debug locals.debug ∧
      Text terms.pipeName locals.pipeName ∧ Truth terms.inheritCursor locals.inheritCursor := by
  constructor
  · intro read
    obtain ⟨file, text, read⟩ := Option.bind_eq_some_iff.mp read
    obtain ⟨cols, wide, read⟩ := Option.bind_eq_some_iff.mp read
    obtain ⟨_, some_cols, read⟩ := Option.bind_eq_some_iff.mp read
    obtain ⟨rows, high, read⟩ := Option.bind_eq_some_iff.mp read
    obtain ⟨_, some_rows, read⟩ := Option.bind_eq_some_iff.mp read
    obtain ⟨debug, debugs, read⟩ := Option.bind_eq_some_iff.mp read
    obtain ⟨pipe, named, read⟩ := Option.bind_eq_some_iff.mp read
    obtain ⟨cursor, inherits, read⟩ := Option.bind_eq_some_iff.mp read
    cases read
    exact ⟨(get_string_iff _ _).mp text, ⟨(get_int_iff _ _).mp wide, (at_least_iff _ _ _).mp some_cols⟩,
      ⟨(get_int_iff _ _).mp high, (at_least_iff _ _ _).mp some_rows⟩, (get_bool_iff _ _).mp debugs,
      (get_string_iff _ _).mp named, (get_bool_iff _ _).mp inherits⟩
  · rintro ⟨text, ⟨wide, some_cols⟩, ⟨high, some_rows⟩, debugs, named, inherits⟩
    simp only [Terms.read, (get_string_iff _ _).mpr text, (get_int_iff _ _).mpr wide, (at_least_iff 1 _ ()).mpr some_cols,
      (get_int_iff _ _).mpr high, (at_least_iff 1 _ ()).mpr some_rows, (get_bool_iff _ _).mpr debugs,
      (get_string_iff _ _).mpr named, (get_bool_iff _ _).mpr inherits, Option.bind_eq_bind, Option.bind_some,
      Option.pure_def]

end Terms

section Natives

end Natives

section Calls

/-- The terms that a Windows pack is sent as. -/
def packed (pack : Win32Pack) : ConptyPath.Terms :=
  { file := pack.file, cols := pack.cols, rows := pack.rows, debug := pack.debug, pipeName := .binary pack.pipe_name
    inheritCursor := pack.inherit_cursor }

def connects (host : Host) (pack : Win32Pack) : Answer (Int × Binary × Binary) → List Native
  | .value (pty_id, _) =>
    (Start.args_to_command_line host pack.file pack.args).toList.map fun command_line =>
      .connect_win32 pty_id command_line pack.cwd pack.env
  | _ => []

theorem do_spawn_calls (host : Host) (pack : Win32Pack) (answers : Answers) :
    (pack.do_spawn host answers).calls =
      .spawn_win32 pack.file pack.cols pack.rows pack.debug pack.pipe_name pack.inherit_cursor ::
        connects host pack answers.spawn_win32 := by
  unfold Win32Pack.do_spawn
  cases answers.spawn_win32 with
  | error | badarg => rfl
  | value session =>
    obtain ⟨pty_id, conin, conout⟩ := session
    simp only [connects]
    cases Start.args_to_command_line host pack.file pack.args <;> rfl

/-- On Windows a spawn starts a client by way of both its native calls. -/
theorem mem_started (os : host.os_type = .win32)
    (answered : ∀ call ∈ (spawn host answers file args opts).calls, machine.Answered answers call) (client : Client) :
    client ∈ machine.started (spawn host answers file args opts) ↔
      ∃ pack pty_id conin conout command_line, init host file args opts = some (.win32 pack) ∧
        machine.expty_spawn (packed pack) = some (.value (pty_id, conin, conout)) ∧
        Start.args_to_command_line host pack.file pack.args = some command_line ∧
        (machine.expty_pty_connect pty_id command_line pack.cwd pack.env).bind Machine.client = some client := by
  revert answered
  unfold spawn
  cases accepted : init host file args opts with
  | none =>
    intro _
    constructor
    · intro member
      cases member
    · rintro ⟨_, _, _, _, _, other, _⟩
      cases other
  | some pack =>
    obtain ⟨pack, rfl⟩ := SpawnOptions.init_win32_pack os accepted
    intro answered
    have calls := do_spawn_calls host pack answers
    simp only [Machine.started, outcome_calls, Pack.do_spawn, calls] at answered ⊢
    have spawned : machine.expty_spawn (packed pack) = some answers.spawn_win32 := answered _ (.head _)
    simp only [Option.some.injEq, Pack.win32.injEq, exists_and_left, exists_eq_left', spawned, List.filterMap_cons]
    cases answer : answers.spawn_win32 with
    | error | badarg =>
      simp only [connects, List.filterMap_nil]
      constructor
      · intro member
        cases member
      · rintro ⟨_, _, _, other, _⟩
        cases other
    | value session =>
      obtain ⟨pty_id, conin, conout⟩ := session
      simp only [connects, List.mem_filterMap, List.mem_map, Option.mem_toList, Answer.value.injEq, Prod.mk.injEq]
      constructor
      · rintro ⟨_, ⟨command_line, line, rfl⟩, started⟩
        exact ⟨pty_id, conin, conout, ⟨rfl, rfl, rfl⟩, command_line, line, started⟩
      · rintro ⟨_, _, _, ⟨rfl, _, _⟩, command_line, line, started⟩
        exact ⟨_, ⟨command_line, line, rfl⟩, started⟩

/-- What the server and the native functions take a pack for. -/
structure Taken (machine : Machine) (pack : Win32Pack) (request : Request) : Prop where
  read : (packed pack).read = some request.locals
  texts : (Value.cons pack.file pack.args).binaries? = some (request.file :: request.args)
  cwd : pack.cwd = request.cwd
  env : ∃ id pairs, pack.env = .other id ∧ machine.maps id = some pairs ∧ Variables pairs request.env

end Calls

section Reading
variable {graphemes : Graphemes}

end Reading

/-- A machine without a configuration, whose environment is the map 0. -/
def windows : Host :=
  { os_type := .win32, exports := fun _ _ _ => false, get_env := fun _ default => default, system_env := .other 0
    expand := fun path => if path = .text "~" then some (utf8 "C:\\".toList) else path.binary?
    interpolate := Value.binary?, priv_dir := .empty, uniform := 7
    quoted := fun texts =>
      utf8 (args_to_command_line_impl .codePoints (texts.map fun bytes => (decode bytes).getD []) 0 []) }

def conpty : Machine :=
  { maps := fun _ => some [(.text "PATH", .text "C:\\")]
    shell :=
      { cwd := [], GetFileAttributesW := fun _ _ => 0x20, PathIsRelativeW := fun _ => false, Path := none, stale := [] }
    to_bytes := fun wide => some (String.ofList (wide.map fun unit => .ofNat unit.toNat))
    CreateNamedPipesAndPseudoConsole := fun _ => some (1, [], [])
    system := FaithfulEnvironment.conpty }

def answering : Answers := { spawn_unix := .badarg, spawn_win32 := .value (1, [], []), connect_win32 := .value 7 }

def arguments : Value := .cons (.text "/c") (.cons (.text "a b") .empty)

end ExPTY.Proofs.ConsoleStart
