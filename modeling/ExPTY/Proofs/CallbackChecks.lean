import ExPTY.Start

/-! The callbacks of a session against the functions that exist. The public functions
let only callable values through, so a session stays callable when it starts so; what
it starts with is decided by `init`, which asks a module for `on_exit/3`. -/

namespace ExPTY.Proofs.CallbackChecks
open Callbacks Elixir Runs Server Start

def Defined (exports : Exports) (function : String) (arity : Nat) : Callback → Prop
  | .func callback => callback.arity = arity
  | .module module => exports module function arity = true

structure Callable (exports : Exports) (session : T) : Prop where
  on_data : ∀ callback, session.on_data = some callback → Defined exports "on_data" 3 callback
  on_exit : ∀ callback, session.on_exit = some callback → Defined exports "on_exit" 4 callback

def Invocable (exports : Exports) : Invocation → Prop
  | .on_data callback _ => Defined exports "on_data" 3 callback
  | .on_exit callback _ _ => Defined exports "on_exit" 4 callback

/-- The session can be dispatched to, and nothing undefined has been called. -/
structure Sound (exports : Exports) (serving : Serving) : Prop where
  session : Callable exports serving.session
  invoked : ∀ invocation ∈ serving.invoked, Invocable exports invocation

/-- The option and the later call agree on a value. Only atoms can be judged differently:
`false` counts as no option, and `init` may ask a module for another arity. -/
def Consistent (exports : Exports) (function : String) (arity exported : Nat) : Value → Prop
  | .atom module =>
    if module = "false" then exports "nil" function exported = false ∧ exports "false" function arity = false
    else exports module function exported = exports module function arity
  | _ => True

variable {exports : Exports} {serving next : Serving}

theorem checked_defined {function : String} {arity : Nat} {value : Value} {callback : Callback}
    (accepted : checked exports function arity value = .update callback) : Defined exports function arity callback := by
  unfold checked at accepted
  split at accepted
  · split at accepted
    next same =>
      cases accepted
      exact same
    next => cases accepted
  · split at accepted
    next found =>
      cases accepted
      exact found
    next => cases accepted
  · cases accepted

private theorem callback_defined {function : String} {arity : Nat} {value : Value} {callback : Callback}
    (accepted : (checked exports function arity value).callback? = some callback) :
    Defined exports function arity callback := by
  cases judged : checked exports function arity value with
  | update other =>
    rw [judged] at accepted
    cases accepted
    exact checked_defined judged
  | error _ | function_clause =>
    rw [judged] at accepted
    cases accepted

section Steps

private theorem handle_call_callbacks {answer : Server.Nif.Call → Server.Reply} {request : Request} {session : T}
    {handled : Server.Handled} (other : plain request = true) (served : handle_call answer request session = some handled) :
    handled.state.on_data = session.on_data ∧ handled.state.on_exit = session.on_exit := by
  unfold handle_call at served
  split at served <;> cases served
  case h_1 => simp
  case h_5 | h_6 => cases other
  all_goals exact ⟨rfl, rfl⟩

private theorem Callable.same {session other : T} (callable : Callable exports session) (data : other.on_data = session.on_data)
    (exit : other.on_exit = session.on_exit) : Callable exports other :=
  ⟨data ▸ callable.on_data, exit ▸ callable.on_exit⟩

private theorem sound_call {answer : Server.Nif.Call → Server.Reply} {request : Request} (sound : Sound exports serving)
    (other : plain request = true) (taken : serving.step (.call request answer) = some next) : Sound exports next := by
  obtain ⟨handled, served, rfl⟩ := Option.map_eq_some_iff.mp taken
  obtain ⟨data, exit⟩ := handle_call_callbacks other served
  exact ⟨sound.session.same data exit, sound.invoked⟩

private theorem sound_message {info : Info} (sound : Sound exports serving) (taken : serving.step (.info info) = some next) :
    Sound exports next := by
  obtain ⟨invocation, handled, rfl⟩ := Option.map_eq_some_iff.mp taken
  refine ⟨sound.session, fun invoked member => ?_⟩
  rcases List.mem_append.mp member with member | member
  · exact sound.invoked invoked member
  · obtain rfl := Option.mem_toList.mp member
    unfold handle_info at handled
    split at handled
    · obtain ⟨callback, installed, rfl⟩ := Option.map_eq_some_iff.mp (Option.some.inj handled)
      exact sound.session.on_data callback installed
    · obtain ⟨callback, installed, rfl⟩ := Option.map_eq_some_iff.mp (Option.some.inj handled)
      exact sound.session.on_exit callback installed
    · cases handled

/-- A value that is refused changes nothing, and one that is let through is defined. -/
private theorem sound_send {request : Callback → Request} {function : String} {arity : Nat} {value : Value}
    (sound : Sound exports serving)
    (updated : ∀ callback, Defined exports function arity callback → ∀ after,
      serving.step (.call (request callback) fun _ => .ok) = some after → Sound exports after)
    (taken : send serving request (checked exports function arity value) = some next) : Sound exports next := by
  cases judged : checked exports function arity value with
  | update callback =>
    rw [judged] at taken
    exact updated callback (checked_defined judged) next taken
  | error _ | function_clause =>
    rw [judged] at taken
    cases taken
    exact sound

theorem sound_step {action : Action} (sound : Sound exports serving) (taken : step exports serving action = some next) :
    Sound exports next := by
  cases action with
  | on_data value =>
    apply sound_send sound _ taken
    intro callback defined after served
    cases served
    refine ⟨⟨fun installed same => ?_, sound.session.on_exit⟩, sound.invoked⟩
    cases same
    exact defined
  | on_exit value =>
    apply sound_send sound _ taken
    intro callback defined after served
    cases served
    refine ⟨⟨sound.session.on_data, fun installed same => ?_⟩, sound.invoked⟩
    cases same
    exact defined
  | call request answer =>
    simp only [step] at taken
    split at taken
    next other => exact sound_call sound other taken
    next => cases taken
  | message info => exact sound_message sound taken

/-- A session stays callable, whatever it is asked, when it starts so. -/
theorem always_sound_iff (session : T) :
    (∀ actions, Always (step exports) (Sound exports) (.spawned session) actions) ↔ Callable exports session := by
  constructor
  · intro always
    exact (always []).start.session
  · intro callable actions
    refine Always.of_invariant (fun serving action next sound taken => sound_step sound taken) actions ?_
    exact ⟨callable, fun invocation member => absurd member List.not_mem_nil⟩

end Steps

section Options

variable {host : Host} {answers : Answers} {file args : Value} {options : Keyword}

private theorem default_unset {defaults : Keyword} (given : host.default_pty_options = some defaults) :
    defaults.lookup "on_data" = some .nil ∧ defaults.lookup "on_exit" = some .nil := by
  unfold Host.default_pty_options at given
  obtain ⟨home, -, given⟩ := Option.bind_eq_some_iff.mp given
  split at given <;> cases given <;> exact ⟨rfl, rfl⟩

private theorem init_callbacks {pack : Pack} (accepted : init host file args (some options) = some pack) :
    pack.common.on_data = init_on_data host.exports (options.access "on_data") ∧
      pack.common.on_exit = init_on_exit host.exports (options.access "on_exit") := by
  obtain ⟨defaults, given, accepted⟩ := Option.bind_eq_some_iff.mp accepted
  obtain ⟨data, exit⟩ := default_unset given
  obtain ⟨own, same, accepted⟩ := Option.bind_eq_some_iff.mp accepted
  cases same
  obtain ⟨cwd, -, accepted⟩ := Option.bind_eq_some_iff.mp accepted
  rw [Keyword.access_merge_nil data, Keyword.access_merge_nil exit] at accepted
  split at accepted
  · obtain ⟨unix, built, rfl⟩ := Option.map_eq_some_iff.mp accepted
    simp only [init_unix, Option.bind_eq_bind, Option.bind_eq_some_iff, Option.pure_def, Option.some.injEq] at built
    obtain ⟨_, -, _, -, _, -, _, -, rfl⟩ := built
    exact ⟨rfl, rfl⟩
  · obtain ⟨win32, built, rfl⟩ := Option.map_eq_some_iff.mp accepted
    simp only [init_win32, Option.bind_eq_bind, Option.bind_eq_some_iff, Option.pure_def, Option.some.injEq] at built
    obtain ⟨_, -, rfl⟩ := built
    exact ⟨rfl, rfl⟩

private theorem do_spawn_callbacks {pack : Pack} {reply : Start.Reply} {session : T}
    (served : (pack.do_spawn host answers).result = some (reply, .session session)) :
    session.on_data = pack.common.on_data ∧ session.on_exit = pack.common.on_exit := by
  cases pack with
  | unix pack =>
    simp only [Pack.do_spawn, UnixPack.do_spawn] at served
    split at served <;> cases served
    exact ⟨rfl, rfl⟩
  | win32 pack =>
    simp only [Pack.do_spawn, Win32Pack.do_spawn] at served
    split at served
    · split at served
      · cases served
      · simp only at served
        split at served <;> cases served
        exact ⟨rfl, rfl⟩
    · cases served
    · cases served

theorem spawned_callbacks {session : T} (spawned : (spawn host answers file args (some options)).server = some (.session session)) :
    session.on_data = init_on_data host.exports (options.access "on_data") ∧
      session.on_exit = init_on_exit host.exports (options.access "on_exit") := by
  unfold spawn at spawned
  split at spawned
  · cases spawned
  next pack accepted =>
    obtain ⟨data, exit⟩ := init_callbacks accepted
    rw [← data, ← exit]
    unfold Handled.outcome at spawned
    split at spawned
    · cases spawned
    next served =>
      cases spawned
      exact do_spawn_callbacks served
    next served =>
      cases spawned
      exact do_spawn_callbacks served

end Options

private theorem or_nil {value : Value} (other : value ≠ .atom "false") : value.or .nil = value := by
  unfold Value.or
  split
  next falsy => exact (falsy.resolve_right other).symm
  next => rfl

/-- The two checks come to the same callback exactly on consistent values. -/
theorem installed_eq_checked_iff (exports : Exports) (function : String) (arity exported : Nat) (value : Value) :
    installed exports function arity exported value = (checked exports function arity value).callback? ↔
      Consistent exports function arity exported value := by
  cases value with
  | atom module =>
    by_cases falsy : module = "false"
    · subst falsy
      have nothing : (Value.atom "false").or .nil = .atom "nil" := rfl
      simp only [installed, nothing, checked, Consistent, if_true]
      cases exports "nil" function exported <;> cases exports "false" function arity <;> simp [Client.callback?]
    · have itself : (Value.atom module).or .nil = .atom module := or_nil fun same => falsy (Value.atom.inj same)
      simp only [installed, itself, checked, Consistent, if_neg falsy]
      cases exports module function exported <;> cases exports module function arity <;> simp [Client.callback?]
  | function callback =>
    have itself : (Value.function callback).or .nil = .function callback := or_nil nofun
    simp only [installed, itself, checked, Consistent, iff_true]
    split <;> rfl
  | integer _ | binary _ | empty | cons _ _ | other _ =>
    simp [installed, checked, Consistent, Client.callback?, or_nil]

/-- `Example` exports `on_data/3` and `on_exit/4`, and `Other` exports `on_exit/3`. -/
def host : Host :=
  { os_type := .unix
    exports := fun module function arity =>
      (module, function, arity) ∈ [("Example", "on_data", 3), ("Example", "on_exit", 4), ("Other", "on_exit", 3)]
    get_env := fun _ default => default
    system_env := .other 0
    expand := Value.binary?
    interpolate := fun _ => some []
    priv_dir := .empty
    uniform := 1
    quoted := List.flatten }

def answers : Answers :=
  { spawn_unix := .value (0, 1, []), spawn_win32 := .badarg, connect_win32 := .badarg }

def spawned (options : Keyword) : Outcome := spawn host answers (.text "tty") .empty (some options)

def tty (on_data on_exit : Option Callback) : T :=
  { os_type := .unix, pipesocket := .reference 0, pid := .integer 1, pty := .binary []
    handle_flow_control := some false, flow_control_pause := some [0x13], flow_control_resume := some [0x11]
    on_data, on_exit, echo? := some false }

/-- A session stays callable and its options are judged as later calls are exactly when
both options are consistent. -/
theorem callbacks_iff {host : Host} {answers : Answers} {file args : Value} {options : Keyword} {session : T}
    (spawned : (spawn host answers file args (some options)).server = some (.session session)) :
    (∀ actions, Always (step host.exports) (Sound host.exports) (.spawned session) actions) ∧
        session.on_data = (on_data host.exports (options.access "on_data")).callback? ∧
        session.on_exit = (on_exit host.exports (options.access "on_exit")).callback? ↔
      Consistent host.exports "on_data" 3 3 (options.access "on_data") ∧
        Consistent host.exports "on_exit" 4 3 (options.access "on_exit") := by
  obtain ⟨data, exit⟩ := spawned_callbacks spawned
  have dataIff := installed_eq_checked_iff host.exports "on_data" 3 3 (options.access "on_data")
  have exitIff := installed_eq_checked_iff host.exports "on_exit" 4 3 (options.access "on_exit")
  constructor
  · intro given
    obtain ⟨-, sameData, sameExit⟩ := given
    exact ⟨dataIff.mp (data.symm.trans sameData), exitIff.mp (exit.symm.trans sameExit)⟩
  · intro given
    obtain ⟨consistentData, consistentExit⟩ := given
    have sameData := data.trans (dataIff.mpr consistentData)
    have sameExit := exit.trans (exitIff.mpr consistentExit)
    refine ⟨(always_sound_iff session).mpr ⟨fun callback held => ?_, fun callback held => ?_⟩, sameData, sameExit⟩
    · exact callback_defined (sameData.symm.trans held)
    · exact callback_defined (sameExit.symm.trans held)

theorem callbacks_of_function :
    (∀ actions, Always (step host.exports) (Sound host.exports)
        (.spawned (tty (some (.module "Example")) (some (.func ⟨0, 4⟩)))) actions) ∧
      some (.module "Example") = (on_data host.exports (.atom "Example")).callback? ∧
      some (.func ⟨0, 4⟩) = (on_exit host.exports (.function ⟨0, 4⟩)).callback? := by
  have started : (spawned [("on_data", .atom "Example"), ("on_exit", .function ⟨0, 4⟩)]).server =
      some (.session (tty (some (.module "Example")) (some (.func ⟨0, 4⟩)))) := by decide
  exact (callbacks_iff started).mpr ⟨rfl, trivial⟩

/-- The module of the README gets no exit callback. One with `on_exit/3` gets one that the
exit message cannot call. -/
theorem exit_option_misjudged :
    ((spawned [("on_exit", .atom "Example")]).server = some (.session (tty none none)) ∧
      on_exit host.exports (.atom "Example") = .update (.module "Example")) ∧
    (spawned [("on_exit", .atom "Other")]).server = some (.session (tty none (some (.module "Other")))) ∧
      ¬ ∀ actions, Always (step host.exports) (Sound host.exports) (.spawned (tty none (some (.module "Other")))) actions := by
  refine ⟨⟨by decide, by decide⟩, by decide, fun always => ?_⟩
  have callable := (always []).start.session
  exact absurd (callable.on_exit _ rfl) (by decide : ¬ host.exports "Other" "on_exit" 4 = true)

end ExPTY.Proofs.CallbackChecks
