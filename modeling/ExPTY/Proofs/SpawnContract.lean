import ExPTY.Start

/-! The contract of `spawn/3`: a result for the caller, a served session after `{:ok, pid}`
and no process after an error. On Unix no native error is answered, and on Windows
the server outlives the error that it answers. -/

namespace ExPTY.Proofs.SpawnContract
open Callbacks Elixir Runs Start
open Server (Nif.Spawned OsType Request Serving T handle_call handle_do_spawn)

def offered : OsType → Request → Bool
  | .unix, _ => true
  | .win32, .get_flow_control | .win32, .flow_control _ | .win32, .pause | .win32, .resume | .win32, .set_echo _ => false
  | .win32, _ => true

abbrev Call := Request × (Server.Nif.Call → Server.Reply)

def events (calls : List Call) : List Server.Event := calls.map fun call => .call call.1 call.2

def Serves (os_type : OsType) (session : T) : Prop :=
  ∀ calls : List Call, (∀ call ∈ calls, offered os_type call.1 = true) →
    (exec Serving.step (.spawned session) (events calls)).isSome

def Contract (host : Host) (outcome : Outcome) : Prop :=
  match outcome.returned with
  | .ok => ∃ session, outcome.server = some (.session session) ∧ session.os_type = host.os_type ∧ Serves host.os_type session
  | .error _ | .init_error => outcome.server = none
  | .exit => False

/-- The native calls of the platform succeed, and what Windows makes a command line of is text. -/
def Succeeds (host : Host) (answers : Answers) (file args : Value) : Prop :=
  match host.os_type with
  | .unix => answers.spawn_unix.value?.isSome
  | .win32 =>
    answers.spawn_win32.value?.isSome ∧ (Value.cons (file.or (.text "powershell.exe")) (args.or .empty)).binaries?.isSome ∧
      answers.connect_win32.value?.isSome

section Served

theorem handle_call_os_type {answer : Server.Nif.Call → Server.Reply} {request : Request} {session : T}
    {handled : Server.Handled} (served : handle_call answer request session = some handled) :
    handled.state.os_type = session.os_type := by
  unfold handle_call at served
  split at served <;> cases served
  case h_1 => simp
  all_goals rfl

theorem handle_call_offered {answer : Server.Nif.Call → Server.Reply} {request : Request} {session : T}
    (known : offered session.os_type request = true) : (handle_call answer request session).isSome := by
  unfold handle_call
  cases os : session.os_type with
  | unix => cases request <;> rfl
  | win32 =>
    rw [os] at known
    cases request with
    | get_flow_control | flow_control _ | pause | resume | set_echo _ => cases known
    | _ => rfl

private theorem run_offered (calls : List Call) (serving : Serving)
    (known : ∀ call ∈ calls, offered serving.session.os_type call.1 = true) :
    (exec Serving.step serving (events calls)).isSome := by
  induction calls generalizing serving with
  | nil => rfl
  | cons call calls ih =>
    obtain ⟨first, rest⟩ := List.forall_mem_cons.mp known
    obtain ⟨handled, served⟩ : ∃ handled, handle_call call.2 call.1 serving.session = some handled :=
      Option.isSome_iff_exists.mp (handle_call_offered first)
    have taken : serving.step (.call call.1 call.2) = some _ := Option.map_eq_some_iff.mpr ⟨handled, served, rfl⟩
    rw [events, List.map_cons, exec_cons Serving.step _ taken]
    refine ih _ fun other member => ?_
    rw [handle_call_os_type served]
    exact rest other member

/-- Every session of a platform serves its calls, whatever they were before. -/
theorem serves {os : OsType} {session : T} (same : session.os_type = os) : Serves os session := by
  subst same
  exact fun calls known => run_offered calls (.spawned session) known

end Served

section Sessions

/-- The tuple holds the options that the server model takes in their documented types. -/
structure Typed (pack : UnixPack) (typed : Server.UnixPack) : Prop where
  echo : pack.echo?.boolean? = some typed.echo?
  handle_flow_control : pack.handle_flow_control = typed.handle_flow_control
  flow_control_pause : pack.flow_control_pause = typed.flow_control_pause
  flow_control_resume : pack.flow_control_resume = typed.flow_control_resume
  on_data : pack.on_data = typed.on_data
  on_exit : pack.on_exit = typed.on_exit

def answered : Nif.Spawned → Answer (Nat × Int × Server.Binary)
  | .session pipesocket pid pty => .value (pipesocket, pid, pty)
  | .error reason => .error reason

theorem do_spawn_typed {pack : UnixPack} {typed : Server.UnixPack} (same : Typed pack typed) (answers : Answers)
    (answer : Nif.Spawned) (given : answers.spawn_unix = answered answer) :
    (pack.do_spawn answers).result =
      (handle_do_spawn (fun _ => answer) typed).map fun replied => (.ok, .session replied.2) := by
  obtain ⟨echo, flow, pause, resume, data, exit⟩ := same
  simp only [UnixPack.do_spawn, handle_do_spawn, given]
  cases answer with
  | session pipesocket pid pty =>
    simp only [answered, Option.map_some, UnixPack.session, T.of_spawn, echo, flow, pause, resume, data, exit]
  | error reason => rfl

end Sessions

section Spawns

variable {host : Host} {answers : Answers} {file args : Value} {opts : Option Keyword}

/-- The tuple that `init` leaves is one of the platform, with the defaults of its own. -/
private theorem init_pack {pack : Pack} (accepted : init host file args opts = some pack) :
    (host.os_type = .unix ∧ ∃ unix, pack = .unix unix) ∨
      host.os_type = .win32 ∧ ∃ win32, pack = .win32 win32 ∧ win32.file = file.or (.text "powershell.exe") ∧
        win32.args = args.or .empty := by
  simp only [init, Option.bind_eq_bind, Option.bind_eq_some_iff] at accepted
  obtain ⟨_, -, _, -, _, -, accepted⟩ := accepted
  split at accepted
  next os =>
    obtain ⟨unix, -, rfl⟩ := Option.map_eq_some_iff.mp accepted
    exact .inl ⟨os, unix, rfl⟩
  next os =>
    obtain ⟨win32, built, rfl⟩ := Option.map_eq_some_iff.mp accepted
    simp only [init_win32, Option.bind_eq_bind, Option.bind_eq_some_iff, Option.pure_def, Option.some.injEq] at built
    obtain ⟨_, -, rfl⟩ := built
    exact .inr ⟨os, _, rfl, rfl, rfl⟩

private theorem unix_contract (os : host.os_type = .unix) {pack : UnixPack}
    (accepted : init host file args opts = some (.unix pack)) :
    Contract host (spawn host answers file args opts) ↔ answers.spawn_unix.value?.isSome := by
  simp only [spawn, accepted, Pack.do_spawn, UnixPack.do_spawn]
  cases answers.spawn_unix with
  | value given =>
    refine ⟨fun _ => rfl, fun _ => ⟨_, rfl, os.symm, ?_⟩⟩
    rw [os]
    exact serves rfl
  | error _ | badarg => exact ⟨False.elim, nofun⟩

private theorem win32_contract (os : host.os_type = .win32) {pack : Win32Pack}
    (accepted : init host file args opts = some (.win32 pack)) :
    Contract host (spawn host answers file args opts) ↔
      answers.spawn_win32.value?.isSome ∧ (Value.cons pack.file pack.args).binaries?.isSome ∧
        answers.connect_win32.value?.isSome := by
  simp only [spawn, accepted, Pack.do_spawn, Win32Pack.do_spawn, Start.args_to_command_line]
  cases answers.spawn_win32 with
  | error _ => exact ⟨nofun, fun succeeded => nomatch succeeded.1⟩
  | badarg => exact ⟨False.elim, fun succeeded => nomatch succeeded.1⟩
  | value given =>
    cases (Value.cons pack.file pack.args).binaries? with
    | none => exact ⟨False.elim, fun succeeded => nomatch succeeded.2.1⟩
    | some binaries =>
      cases answers.connect_win32 with
      | value inner_pid =>
        refine ⟨fun _ => ⟨rfl, rfl, rfl⟩, fun _ => ⟨_, rfl, os.symm, ?_⟩⟩
        rw [os]
        exact serves rfl
      | error _ => exact ⟨nofun, fun succeeded => nomatch succeeded.2.2⟩
      | badarg => exact ⟨False.elim, fun succeeded => nomatch succeeded.2.2⟩

end Spawns

/-- The contract of `spawn/3` holds exactly when `init` refuses the options or nothing fails
after it. -/
theorem spawn_contract_iff (host : Host) (answers : Answers) (file args : Value) (opts : Option Keyword) :
    Contract host (spawn host answers file args opts) ↔
      ((init host file args opts).isSome → Succeeds host answers file args) := by
  cases accepted : init host file args opts with
  | none =>
    rw [spawn, accepted]
    exact ⟨fun _ => nofun, fun _ => rfl⟩
  | some pack =>
    simp only [Option.isSome_some, forall_const]
    unfold Succeeds
    obtain ⟨os, unix, rfl⟩ | ⟨os, win32, rfl, ownFile, ownArgs⟩ := init_pack accepted
    · rw [os]
      exact unix_contract os accepted
    · rw [os, ← ownFile, ← ownArgs]
      exact win32_contract os accepted

def plainHost (os_type : OsType) : Host :=
  { os_type
    exports := fun _ _ _ => false
    get_env := fun _ default => default
    system_env := .other 0
    expand := Value.binary?
    interpolate := fun _ => some []
    priv_dir := .empty
    uniform := 1
    quoted := List.flatten }

/-- `ExPTY.spawn("ls", [])` where the native spawn fails. -/
def refused (os_type : OsType) : Outcome :=
  spawn (plainHost os_type) ⟨.error "openpty() failed.", .error "Cannot launch conpty", .badarg⟩ (.text "ls") .empty (some [])

/-- The failure ends the caller on Unix, and leaves a server behind on Windows. -/
theorem native_error_breaks_contract :
    ((refused .unix).returned = .exit ∧ ¬ Contract (plainHost .unix) (refused .unix)) ∧
      (refused .win32).returned = .error "Cannot launch conpty" ∧ (refused .win32).server.isSome ∧
        ¬ Contract (plainHost .win32) (refused .win32) :=
  ⟨⟨by decide, id⟩, by decide, by decide, nofun⟩

end ExPTY.Proofs.SpawnContract
