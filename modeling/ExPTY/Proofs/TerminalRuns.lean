import ExPTY.Terminal

/-! What a native call that returns has done to the terminal. A write leaves the settings
and adds input of its own. The three that change the settings either fail and leave all
as it was, or set what they read and then write their control byte, if they have one. -/

namespace ExPTY.Proofs.TerminalRuns
open NativeCalls Terminal
open Termios (Header Change XON XOFF)
open Server (Binary Reply Request Nif.Call)

variable {header : Header}

def change? : Nif.Call → Option Change
  | .pause _ => some .pause
  | .resume _ => some .resume
  | .set_echo _ echo? => some (.set_echo echo?)
  | _ => none

def fails : List Answer → Bool
  | .succeeds _ :: .succeeds _ :: _ => false
  | _ => true

def taken : List Answer → Bool
  | .succeeds count :: _ => count ≠ 0
  | _ => false

/-- The kernel took the byte that is written after the two. -/
def accepts (answers : List Answer) : Bool := taken (answers.drop 2)

/-- The settings stay, and whatever is new in the input comes from the source. -/
structure Appended (source : Nif.Call) (before after : Tty header) : Prop where
  settings : after.settings = before.settings
  input : ∃ bytes : Binary, after.input = before.input ++ bytes.map (source, ·)

inductive Changed (source : Nif.Call) (change : Change) (answers : List Answer) (before : Tty header) :
    Reply → Tty header → Prop where
  | failed (message : String) (failed : fails answers = true) : Changed source change answers before (.error message) before
  | done (done : fails answers = false) : Changed source change answers before .ok
      (Tty.receive { before with settings := change.apply before.settings } source
        (if accepts answers then change.control.toList else []))

section Runs
variable {source : Nif.Call} {before middle after : Tty header} {reply : Reply} {answers : List Answer}

theorem Appended.refl : Appended source before before := ⟨rfl, [], (List.append_nil before.input).symm⟩

theorem Appended.trans (first : Appended source before middle) (second : Appended source middle after) :
    Appended source before after := by
  obtain ⟨bytes, input⟩ := first.input
  obtain ⟨more, same⟩ := second.input
  refine ⟨second.settings.trans first.settings, bytes ++ more, ?_⟩
  rw [same, input, List.append_assoc, List.map_append]

theorem receive_nil (tty : Tty header) (source : Nif.Call) : tty.receive source [] = tty := by
  simp [Tty.receive]

theorem appended_receive (tty : Tty header) (source : Nif.Call) (bytes : Binary) :
    Appended source tty (tty.receive source bytes) := ⟨rfl, _, rfl⟩

def of_write : Call header → Bool
  | .entered _ | .locking _ | .looping _ | .writing _ | .unlocking _ | .returned _ => true
  | _ => false

theorem of_write_after (loop : Loop) (count : Option Nat) : of_write (after_write loop count : Call header) = true := by
  unfold after_write
  split
  · rfl
  · rfl
  · simp only []
    split <;> rfl

theorem run_write (call : Call header) (ofWrite : of_write call = true)
    (returned : before.run source answers call = some (reply, after)) : Appended source before after := by
  induction answers generalizing call before with
  | nil =>
    cases call with
    | returned => cases returned; exact .refl
    | _ => cases returned
  | cons answer answers ih =>
    cases call with
    | returned => cases returned; exact .refl
    | entered data => exact ih (.locking data) rfl returned
    | locking data => exact ih (.looping (.start data)) rfl returned
    | looping loop => exact ih (.writing loop) rfl returned
    | unlocking loop => exact ih (.returned loop.reply) rfl returned
    | writing loop =>
      simp only [Tty.run, Call.next, Option.ite_none_right_eq_some] at returned
      exact (appended_receive _ _ _).trans (ih _ (of_write_after loop _) returned.2)
    | ioctl | tcgetattr | tcsetattr | control => cases ofWrite

theorem run_ioctl {winp : Winsize} (returned : before.run source answers (.ioctl winp) = some (reply, after)) :
    after = before := by
  cases answers with
  | nil => cases returned
  | cons answer answers =>
    simp only [Tty.run, Call.next, Option.ite_none_right_eq_some] at returned
    cases returned.2
    rfl

theorem run_control {byte : UInt8} (returned : before.run source answers (.control byte) = some (reply, after)) :
    reply = .ok ∧ after = before.receive source (if taken answers then [byte] else []) := by
  cases answers with
  | nil => cases returned
  | cons answer answers =>
    simp only [Tty.run, Call.next, Option.ite_none_right_eq_some] at returned
    obtain ⟨bounded, returned⟩ := returned
    cases returned
    refine ⟨rfl, ?_⟩
    match answer, bounded with
    | .fails _, _ | .succeeds 0, _ | .succeeds 1, _ => rfl
    | .succeeds (count + 2), bounded => exact absurd (bounded (count + 2) rfl) (by simp)

theorem run_change {change : Change} (returned : before.run source answers (.tcgetattr change) = some (reply, after)) :
    Changed source change answers before reply after := by
  match answers with
  | [] => cases returned
  | .fails _ :: answers =>
    cases answers <;> cases returned <;> exact .failed _ rfl
  | .succeeds _ :: [] => cases returned
  | .succeeds _ :: .fails _ :: answers =>
    cases answers <;> cases returned <;> exact .failed _ rfl
  | .succeeds first :: .succeeds second :: answers =>
    have done : fails (.succeeds first :: .succeeds second :: answers) = false := rfl
    rcases change with _ | _ | echo
    · obtain ⟨rfl, rfl⟩ := run_control returned
      exact .done done
    · obtain ⟨rfl, rfl⟩ := run_control returned
      exact .done done
    · have changed : Changed source (.set_echo echo) _ before .ok _ := .done done
      simp only [Change.control, Option.toList_none, ite_self, receive_nil] at changed
      cases answers <;> cases returned <;> exact changed

theorem native_write {pipesocket : Server.Term} {data : Binary}
    (returned : before.native answers (.write pipesocket data) = some (reply, after)) :
    Appended (.write pipesocket data) before after := by
  refine run_write (expty_write pipesocket data) ?_ returned
  cases pipesocket <;> rfl

theorem native_resize {pipesocket : Server.Term} {cols rows : Int}
    (returned : before.native answers (.resize pipesocket cols rows) = some (reply, after)) : after = before := by
  have refused {reason : String} (returned : before.run (.resize pipesocket cols rows) answers
      (.returned (.error reason)) = some (reply, after)) : after = before := by
    cases answers <;> cases returned <;> rfl
  simp only [Tty.native, NativeCalls.start, Option.bind_some, expty_resize, with_resource] at returned
  split at returned
  · split at returned
    · exact run_ioctl returned
    · exact refused returned
  · exact refused returned

theorem native_change {call : Nif.Call} {change : Change} (changes : change? call = some change) {id : Nat}
    (handle : call.handle = .reference id) (returned : before.native answers call = some (reply, after)) :
    Changed call change answers before reply after := by
  cases call <;> cases changes <;> cases handle <;> exact run_change returned

end Runs

/-- The native call that a request makes on Unix. -/
def issued (session : Server.T) : Request → Option Nif.Call
  | .write data =>
    if session.handle_flow_control = some true then
      if some data = session.flow_control_pause then some (.pause session.pipesocket)
      else if some data = session.flow_control_resume then some (.resume session.pipesocket)
      else none
    else some (.write session.pipesocket data)
  | .kill signal => some (.kill session.pipesocket signal)
  | .resize cols rows => some (.resize session.pipesocket cols rows)
  | .flow_control enable? =>
    if !enable? ∧ session.handle_flow_control = some true then some (.resume session.pipesocket) else none
  | .pause => some (.pause session.pipesocket)
  | .resume => some (.resume session.pipesocket)
  | .set_echo echo? => some (.set_echo session.pipesocket echo?)
  | .update_on_data _ | .update_on_exit _ | .get_flow_control => none

def updated (session : Server.T) : Request → Server.T
  | .update_on_data callback => { session with on_data := some callback }
  | .update_on_exit callback => { session with on_exit := some callback }
  | .flow_control enable? => { session with handle_flow_control := some enable? }
  | .set_echo echo? => { session with echo? := some echo? }
  | _ => session

structure Open (session : Server.T) : Prop where
  unix : session.os_type = .unix
  handle : ∃ id, session.pipesocket = .reference id

theorem Open.updated {session : Server.T} (ready : Open session) (request : Request) : Open (updated session request) := by
  cases request <;> exact ⟨ready.unix, ready.handle⟩

theorem Open.issued {session : Server.T} (ready : Open session) {request : Request} {call : Nif.Call}
    (issues : issued session request = some call) : ∃ id, call.handle = .reference id := by
  obtain ⟨id, handle⟩ := ready.handle
  refine ⟨id, handle ▸ ?_⟩
  cases request with
  | write data =>
    simp only [TerminalRuns.issued] at issues
    split at issues
    · split at issues
      · cases issues; rfl
      · split at issues <;> cases issues; rfl
    · cases issues; rfl
  | flow_control enable? =>
    simp only [TerminalRuns.issued] at issues
    split at issues <;> cases issues
    rfl
  | kill | resize | pause | resume | set_echo => cases issues; rfl
  | update_on_data | update_on_exit | get_flow_control => cases issues

theorem handled_unix {session : Server.T} (ready : Open session) {answer : Nif.Call → Reply} {request : Request}
    {handled : Server.Handled} (taken : Server.handle_call answer request session = some handled) :
    handled.state = updated session request ∧ handled.calls = (issued session request).toList := by
  obtain ⟨unix, _⟩ := ready
  cases session
  cases unix
  cases request with
  | write data =>
    cases taken
    refine ⟨Server.handle_write_state _ _ _, ?_⟩
    simp only [Server.handle_write, issued]
    split
    · split
      · rfl
      · split <;> rfl
    · rfl
  | flow_control enable? =>
    cases taken
    refine ⟨rfl, ?_⟩
    simp only [Server.handle_flow_control, issued]
    split <;> rfl
  | _ => cases taken; exact ⟨rfl, rfl⟩

theorem open_spawned (pack : Server.UnixPack) (pipesocket : Nat) (pid : Int) (pty : Binary)
    (settings : Termios.T header) : Open (World.spawned pack pipesocket pid pty settings).session :=
  ⟨rfl, pipesocket, rfl⟩

/-- What one request does to the server and to the terminal. -/
theorem step_cases {world next : World header} {event : Event} (ready : Open world.session)
    (taken : world.step event = some next) :
    next.session = updated world.session event.request ∧
      ((issued world.session event.request = none ∧ next.tty = world.tty ∧
          ∃ reply, next.log = world.log ++ [⟨event.request, world.session, [], reply, next.session⟩]) ∨
        ∃ call result, issued world.session event.request = some call ∧
          world.tty.native event.answers call = some (result, next.tty) ∧
          ∃ reply, next.log = world.log ++ [⟨event.request, world.session, [(call, result)], reply, next.session⟩]) := by
  obtain ⟨handled, clause, taken⟩ := Option.bind_eq_some_iff.mp taken
  obtain ⟨state, calls⟩ := handled_unix ready clause
  simp only [calls] at taken
  cases issues : issued world.session event.request with
  | none =>
    simp only [issues, Option.toList_none, Option.some.injEq] at taken
    subst taken
    exact ⟨state, .inl ⟨rfl, rfl, handled.reply, rfl⟩⟩
  | some call =>
    simp only [issues, Option.toList_some, Option.map_eq_some_iff] at taken
    obtain ⟨⟨result, tty⟩, returned, rfl⟩ := taken
    refine ⟨state, .inr ⟨call, result, rfl, returned, handled.reply, ?_⟩⟩
    simp [returned]

theorem Changed.settings {source : Nif.Call} {change : Change} {answers : List Answer} {before after : Tty header}
    {reply : Reply} (changed : Changed source change answers before reply after) :
    after.settings = before.settings ∨ after.settings = change.apply before.settings := by
  cases changed with
  | failed => exact .inl rfl
  | done => exact .inr rfl

theorem Changed.applied {source : Nif.Call} {change : Change} {answers : List Answer} {before after : Tty header}
    (changed : Changed source change answers before .ok after) : after.settings = change.apply before.settings := by
  cases changed
  rfl

theorem step_settings {world next : World header} {event : Event} (ready : Open world.session)
    (taken : world.step event = some next) :
    next.tty.settings = world.tty.settings ∨ ∃ change : Change, next.tty.settings = change.apply world.tty.settings := by
  obtain ⟨_, ⟨_, tty, _⟩ | ⟨call, result, issues, returned, _⟩⟩ := step_cases ready taken
  · rw [tty]
    exact .inl rfl
  · obtain ⟨id, handle⟩ := ready.issued issues
    cases changes : change? call with
    | some change => exact (native_change changes handle returned).settings.imp_right fun applied => ⟨change, applied⟩
    | none =>
      cases call with
      | write => exact .inl (native_write returned).settings
      | resize => exact .inl (congrArg _ (native_resize returned))
      | kill => cases returned
      | pause | resume | set_echo => cases changes

theorem step_open {world next : World header} {event : Event} (ready : Open world.session)
    (taken : world.step event = some next) : Open next.session := by
  rw [(step_cases ready taken).1]
  exact ready.updated event.request

def shell : Server.UnixPack :=
  { file := [0x73, 0x68], args := [], env := [], cwd := [], cols := 80, rows := 24, ibaudrate := 38400, obaudrate := 38400
    uid := -2, gid := -2, is_utf8 := true, closeFDs := false, echo? := false, helperPath := []
    handle_flow_control := false, flow_control_pause := [XOFF], flow_control_resume := [XON]
    on_data := none, on_exit := none }

def terminal : World Header.linux := .spawned shell 0 1 [] (Header.linux.spawned true false 38400 38400)

/-- A kernel that does all it is asked, one byte at a time. -/
def willing : List Answer := List.replicate 6 (.succeeds 1)

end ExPTY.Proofs.TerminalRuns
