import ExPTY.Proofs.TerminalRuns

/-! What the server believes of its terminal when native calls fail. It writes down the
echo mode and the flow control mode beside the native call and not after it, so that a
failed call leaves it with a belief of its own. -/

namespace ExPTY.Proofs.TerminalAgreement
open Runs NativeCalls Terminal TerminalRuns
open Termios (Header Change)
open Server (Binary Reply Request Nif.Call)

variable {header : Header}

/-- A request gone right: a failed native call has changed nothing, and flow control was
given up, with `:ok`, only if the terminal had been resumed. -/
structure Entry.Right (entry : Entry) : Prop where
  kept : ∀ call reason, (call, .error reason) ∈ entry.native → entry.after = entry.before
  cleared : ∀ pipesocket result, entry.request = .flow_control false → (.resume pipesocket, result) ∈ entry.native →
    entry.reply = .ok ∨ entry.after.handle_flow_control = some false → result = .ok

/-- The server's echo mode is the terminal's, and every request so far went right. -/
structure Agrees (world : World header) : Prop where
  echo : world.session.echo? = some world.tty.settings.echo
  log : ∀ entry ∈ world.log, Entry.Right entry

/-- The request leaves the same beliefs whether or not its native call works. -/
def Indifferent (session : Server.T) : Request → Prop
  | .set_echo echo? => session.echo? = some echo?
  | .flow_control false => session.handle_flow_control ≠ some true
  | _ => True

/-- A set_echo that fails asked for the mode that was set, and the resume of a
flow_control that gives up does not fail. -/
def Honest (world : World header) (event : Event) : Prop :=
  fails event.answers = true → Indifferent world.session event.request

section Steps
variable {world next : World header} {event : Event}

theorem agrees_append {entry : Entry} (agrees : Agrees world) (log : next.log = world.log ++ [entry]) :
    Agrees next ↔ next.session.echo? = some next.tty.settings.echo ∧ Entry.Right entry := by
  constructor
  · exact fun after => ⟨after.echo, after.log entry (by rw [log]; exact List.mem_append_right _ (.head _))⟩
  · intro given
    obtain ⟨echo, right⟩ := given
    refine ⟨echo, fun other member => ?_⟩
    rw [log] at member
    rcases List.mem_append.mp member with member | member
    · exact agrees.log other member
    · exact List.mem_singleton.mp member ▸ right

theorem right_same {request : Request} {before : Server.T} {native : List (Nif.Call × Reply)} {reply : Reply}
    (other : request ≠ .flow_control false) : Entry.Right ⟨request, before, native, reply, before⟩ :=
  ⟨fun _ _ _ => rfl, fun _ _ gives => absurd gives other⟩

theorem right_idle {request : Request} {before after : Server.T} {reply : Reply} :
    Entry.Right ⟨request, before, [], reply, after⟩ := ⟨nofun, nofun⟩

theorem echo_kept {before after : Tty header} {answers : List Answer} {call : Nif.Call} {result : Reply} {id : Nat}
    (plain : ∀ echo, change? call ≠ some (.set_echo echo)) (handle : call.handle = .reference id)
    (returned : before.native answers call = some (result, after)) : after.settings.echo = before.settings.echo := by
  cases call with
  | write => rw [(native_write returned).settings]
  | resize => rw [native_resize returned]
  | kill => cases returned
  | set_echo _ echo? => exact absurd rfl (plain echo?)
  | pause | resume =>
    cases native_change rfl handle returned with
    | failed => rfl
    | done => rfl

/-- A request that changes no belief cannot go wrong. -/
theorem agrees_same (ready : Open world.session) (agrees : Agrees world) (taken : world.step event = some next)
    (same : (updated world.session event.request).echo? = world.session.echo?) (other : event.request ≠ .flow_control false)
    (plain : ∀ call, issued world.session event.request = some call →
      updated world.session event.request = world.session ∧ ∀ echo, change? call ≠ some (.set_echo echo)) :
    Agrees next := by
  obtain ⟨session, effect⟩ := step_cases ready taken
  have believed : next.session.echo? = world.session.echo? := session ▸ same
  obtain ⟨_, tty, reply, log⟩ | ⟨call, result, issues, returned, reply, log⟩ := effect
  · exact (agrees_append agrees log).mpr ⟨by rw [believed, tty]; exact agrees.echo, right_idle⟩
  · obtain ⟨id, handle⟩ := ready.issued issues
    obtain ⟨kept, plain⟩ := plain call issues
    have echo := echo_kept plain handle returned
    rw [session, kept] at log
    exact (agrees_append agrees log).mpr ⟨by rw [believed, echo]; exact agrees.echo, right_same other⟩

theorem agrees_set_echo (ready : Open world.session) (agrees : Agrees world) {echo? : Bool} {answers : List Answer}
    (taken : world.step ⟨.set_echo echo?, answers⟩ = some next) :
    Agrees next ↔ (fails answers = true → world.session.echo? = some echo?) := by
  obtain ⟨session, ⟨issues, _⟩ | ⟨call, result, issues, returned, reply, log⟩⟩ := step_cases ready taken
  · cases issues
  · obtain ⟨id, handle⟩ := ready.issued issues
    cases issues
    rw [agrees_append agrees log, session]
    generalize next.tty = after at returned
    cases native_change rfl handle returned with
    | failed message failed =>
      simp only [failed, forall_const]
      constructor
      · exact fun ⟨echo, _⟩ => agrees.echo.trans echo.symm
      · intro same
        have kept : updated world.session (.set_echo echo?) = world.session := by rw [updated, ← same]
        exact ⟨by rw [kept]; exact agrees.echo, kept ▸ right_same nofun⟩
    | done done =>
      refine iff_of_true ⟨?_, ?_, nofun⟩ (fun failed => nomatch done.symm.trans failed)
      · exact congrArg some (Termios.echo_set_echo world.tty.settings echo?).symm
      · intro call reason member
        cases List.mem_singleton.mp member

theorem agrees_flow_control (ready : Open world.session) (agrees : Agrees world) {enable? : Bool} {answers : List Answer}
    (taken : world.step ⟨.flow_control enable?, answers⟩ = some next) :
    Agrees next ↔ (fails answers = true → Indifferent world.session (.flow_control enable?)) := by
  obtain ⟨session, ⟨issues, tty, reply, log⟩ | ⟨call, result, issues, returned, reply, log⟩⟩ := step_cases ready taken
  · simp only [issued, ite_eq_right_iff, reduceCtorEq, imp_false, not_and] at issues
    rw [agrees_append agrees log, session, tty]
    refine iff_of_true ⟨agrees.echo, right_idle⟩ fun _ => ?_
    cases enable? with
    | true => trivial
    | false => exact issues rfl
  · obtain ⟨id, handle⟩ := ready.issued issues
    simp only [issued, Option.ite_none_right_eq_some, Bool.not_eq_true'] at issues
    obtain ⟨⟨rfl, flows⟩, issues⟩ := issues
    cases issues
    rw [agrees_append agrees log, session]
    generalize next.tty = after at returned
    cases native_change rfl handle returned with
    | failed message failed =>
      refine iff_of_false ?_ fun indifferent => indifferent failed flows
      intro after
      cases after.2.cleared _ _ rfl (.head _) (.inr rfl)
    | done done =>
      refine iff_of_true ⟨agrees.echo, ?_, ?_⟩ (fun failed => absurd (done.symm.trans failed) Bool.false_ne_true)
      · intro call reason member
        cases List.mem_singleton.mp member
      · intro pipesocket result _ member _
        cases List.mem_singleton.mp member
        rfl

theorem agrees_step (ready : Open world.session) (agrees : Agrees world) (taken : world.step event = some next) :
    Agrees next ↔ Honest world event := by
  obtain ⟨request, answers⟩ := event
  have harmless (same : (updated world.session request).echo? = world.session.echo?) (other : request ≠ .flow_control false)
      (plain : ∀ call, issued world.session request = some call →
        updated world.session request = world.session ∧ ∀ echo, change? call ≠ some (.set_echo echo))
      (indifferent : Indifferent world.session request) : Agrees next ↔ Honest world ⟨request, answers⟩ :=
    iff_of_true (agrees_same ready agrees taken same other plain) fun _ => indifferent
  cases request with
  | set_echo echo? => exact agrees_set_echo ready agrees taken
  | flow_control enable? => exact agrees_flow_control ready agrees taken
  | write data =>
    refine harmless rfl (by simp) ?_ trivial
    intro call issues
    refine ⟨rfl, fun echo => ?_⟩
    simp only [issued] at issues
    split at issues
    · split at issues
      · cases issues
        simp [TerminalRuns.change?]
      · split at issues <;> cases issues
        simp [TerminalRuns.change?]
    · cases issues
      simp [TerminalRuns.change?]
  | kill | resize | pause | resume =>
    refine harmless rfl (by simp) ?_ trivial
    intro call issues
    cases issues
    exact ⟨rfl, fun echo => by simp [TerminalRuns.change?]⟩
  | update_on_data | update_on_exit | get_flow_control => exact harmless rfl (by simp) (by simp [issued]) trivial

end Steps

/-- In every run the server and the terminal agree, and no failed call changes the state,
exactly when no failing call was one whose outcome the server takes for granted. -/
theorem agrees_iff (pack : Server.UnixPack) (pipesocket : Nat) (pid : Int) (pty : Binary) (ibaudrate obaudrate : Int)
    (events : List Event) :
    Always World.step Agrees
        (.spawned pack pipesocket pid pty (header.spawned pack.is_utf8 pack.echo? ibaudrate obaudrate)) events ↔
      Along World.step Honest
        (.spawned pack pipesocket pid pty (header.spawned pack.is_utf8 pack.echo? ibaudrate obaudrate)) events := by
  apply always_iff_along fun world => Open world.session
  · intro world event next ready taken
    rw [(step_cases ready taken).1]
    exact ready.updated event.request
  · intro world event next ready agrees taken
    exact agrees_step ready agrees taken
  · exact open_spawned pack pipesocket pid pty _
  · refine ⟨?_, fun entry member => absurd member List.not_mem_nil⟩
    exact congrArg some (Termios.echo_spawned pack.is_utf8 pack.echo? ibaudrate obaudrate).symm

/-- `ExPTY.set_echo(pty, true)` whose `tcgetattr` fails. -/
theorem failed_set_echo_disagrees :
    ∃ final, exec World.step terminal [⟨.set_echo true, [.fails .EBADF]⟩] = some final ∧
      final.session.echo? = some true ∧ final.tty.settings.echo = false ∧
      ¬ Always World.step Agrees terminal [⟨.set_echo true, [.fails .EBADF]⟩] := by
  refine ⟨_, rfl, rfl, by decide, ?_⟩
  intro always
  exact nomatch ((always.final rfl).log _ (.head _)).kept _ _ (.head _)

end ExPTY.Proofs.TerminalAgreement
