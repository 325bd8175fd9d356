import ExPTY.Proofs.TerminalRuns

/-! What pausing and resuming type into the program. A pause sets IXON before it writes
XOFF, which is then consumed. A resume clears IXON before it writes XON, and so nothing
is left to consume it. -/

namespace ExPTY.Proofs.FlowControl
open Runs NativeCalls Terminal TerminalRuns
open Termios (Header Change XON XOFF)
open Server (Binary Reply Request Nif.Call)

variable {header : Header}

/-- None of the bytes that reached the child was written by a pause or a resume. -/
def Untyped (world : World header) : Prop :=
  ∀ entry ∈ world.tty.input, ∀ pipesocket, entry.1 ≠ .pause pipesocket ∧ entry.1 ≠ .resume pipesocket

/-- A resume that the request makes fails, or the kernel does not take its byte. -/
def Silent (world : World header) (event : Event) : Prop :=
  ∀ pipesocket, issued world.session event.request = some (.resume pipesocket) →
    fails event.answers = true ∨ accepts event.answers = false

structure Ready (world : World header) : Prop where
  session : Open world.session
  start : world.tty.settings.c_cc .VSTART = XON
  stop : world.tty.settings.c_cc .VSTOP = XOFF

section Bytes
variable {source : Nif.Call} {before after : Tty header} {reply : Reply} {answers : List Answer}

theorem flow_control_pause (settings : Termios.T header) (stop : settings.c_cc .VSTOP = XOFF) :
    flow_control (Change.pause.apply settings) XOFF = true := by
  simp [flow_control, stop]

theorem flow_control_resume (settings : Termios.T header) (byte : UInt8) :
    flow_control (Change.resume.apply settings) byte = false := by
  simp [flow_control]

/-- The bytes of a change that the child gets to read. -/
def typed (answers : List Answer) : Change → Binary
  | .resume => if fails answers || !accepts answers then [] else [XON]
  | _ => []

theorem typed_changed {change : Change} (changed : Changed source change answers before reply after)
    (stop : before.settings.c_cc .VSTOP = XOFF) :
    after.input = before.input ++ (typed answers change).map (source, ·) := by
  cases changed with
  | failed message failed =>
    rcases change with _ | _ | echo <;> simp [typed, failed]
  | done done =>
    simp only [Tty.receive]
    rcases change with _ | _ | echo
    · split <;> simp [typed, Change.control, flow_control_pause before.settings stop]
    · cases took : accepts answers <;>
        simp [typed, Change.control, done, took, flow_control_resume before.settings]
    · simp [typed, Change.control]

end Bytes

section Steps
variable {world next : World header} {event : Event}

theorem untyped_append (untyped : Untyped world) {source : Nif.Call} {bytes : Binary}
    (input : next.tty.input = world.tty.input ++ bytes.map (source, ·)) :
    Untyped next ↔ (bytes ≠ [] → ∀ pipesocket, source ≠ .pause pipesocket ∧ source ≠ .resume pipesocket) := by
  constructor
  · intro untyped some
    obtain ⟨byte, rest, rfl⟩ := List.exists_cons_of_ne_nil some
    exact untyped (source, byte) (by rw [input]; exact List.mem_append_right _ (.head _))
  · intro harmless entry member
    rw [input] at member
    rcases List.mem_append.mp member with member | member
    · exact untyped entry member
    · obtain ⟨byte, held, rfl⟩ := List.mem_map.mp member
      exact harmless (List.ne_nil_of_mem held)

theorem Ready.step (ready : Ready world) (taken : world.step event = some next) : Ready next := by
  have c_cc : next.tty.settings.c_cc = world.tty.settings.c_cc := by
    obtain same | ⟨change, applied⟩ := step_settings ready.session taken
    · rw [same]
    · rw [applied, Termios.c_cc_apply]
  exact ⟨step_open ready.session taken, c_cc ▸ ready.start, c_cc ▸ ready.stop⟩

theorem untyped_step (ready : Ready world) (untyped : Untyped world) (taken : world.step event = some next) :
    Untyped next ↔ Silent world event := by
  obtain ⟨_, ⟨issues, tty, _⟩ | ⟨call, result, issues, returned, _⟩⟩ := step_cases ready.session taken
  · refine iff_of_true ?_ fun _ resumes => nomatch issues.symm.trans resumes
    rwa [Untyped, tty]
  · obtain ⟨id, handle⟩ := ready.session.issued issues
    simp only [Silent, issues, Option.some.injEq]
    cases call with
    | kill => cases returned
    | write =>
      obtain ⟨bytes, input⟩ := (native_write returned).input
      rw [untyped_append untyped input]
      exact iff_of_true (fun _ _ => ⟨nofun, nofun⟩) nofun
    | resize =>
      refine iff_of_true ?_ nofun
      rwa [Untyped, native_resize returned]
    | pause =>
      rw [untyped_append untyped (typed_changed (native_change rfl handle returned) ready.stop)]
      exact iff_of_true (fun some => absurd rfl some) nofun
    | set_echo =>
      rw [untyped_append untyped (typed_changed (native_change rfl handle returned) ready.stop)]
      exact iff_of_true (fun some => absurd rfl some) nofun
    | resume pipesocket =>
      rw [untyped_append untyped (typed_changed (native_change rfl handle returned) ready.stop)]
      cases failed : fails event.answers <;> cases took : accepts event.answers <;> simp [typed, failed, took]

end Steps

/-- In every run the line discipline consumes every control byte of a pause or a resume
exactly when no resume gets as far as its byte. -/
theorem untyped_iff (pack : Server.UnixPack) (pipesocket : Nat) (pid : Int) (pty : Binary) (settings : Termios.T header)
    (start : settings.c_cc .VSTART = XON) (stop : settings.c_cc .VSTOP = XOFF) (events : List Event) :
    Always World.step Untyped (.spawned pack pipesocket pid pty settings) events ↔
      Along World.step Silent (.spawned pack pipesocket pid pty settings) events := by
  apply always_iff_along Ready
  · intro world event next ready taken
    exact ready.step taken
  · intro world event next ready untyped taken
    exact untyped_step ready untyped taken
  · exact ⟨open_spawned pack pipesocket pid pty settings, start, stop⟩
  · exact nofun

theorem pause_consumed : Always World.step Untyped terminal [⟨.pause, willing⟩, ⟨.write [108], willing⟩] := by
  refine (untyped_iff shell 0 1 [] (Header.linux.spawned true false 38400 38400) rfl rfl _).mpr ?_
  exact .cons rfl nofun <| .cons rfl nofun along_nil

theorem resume_types :
    ∃ final, exec World.step terminal [⟨.resume, willing⟩] = some final ∧
      final.tty.input = [(.resume (.reference 0), 0x11)] ∧ ¬ Always World.step Untyped terminal [⟨.resume, willing⟩] := by
  refine ⟨_, rfl, by rfl, ?_⟩
  intro always
  exact (always.final rfl (.resume (.reference 0), 0x11) (.head _) (.reference 0)).2 rfl

end ExPTY.Proofs.FlowControl
