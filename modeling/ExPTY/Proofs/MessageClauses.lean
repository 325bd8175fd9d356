import ExPTY.Proofs.SpawnContract

/-! Native messages against the clauses of `handle_info`. The threads of pty.cpp and the
callbacks of conpty.cc build their tuples apart from lib/expty.ex, and the exit
message of Windows is shorter than the only clause for it. -/

namespace ExPTY.Proofs.MessageClauses
open Runs Server SpawnContract

/-- The messages of each platform, by the function that builds them. -/
inductive Sends : OsType → Info → Prop where
  | pty_pipesocket_fn (payload : Binary) : Sends .unix (.data payload)
  | pty_waitpid (exit_code signal_code : Int) : Sends .unix (.exit exit_code (some signal_code))
  | read_data (payload : Binary) : Sends .win32 (.data payload)
  | OnProcessExit (exitCode : Int) : Sends .win32 (.exit exitCode none)

/-- What can reach a server: a message of its platform or a call that the platform offers. -/
def Occurs (os_type : OsType) : Event → Prop
  | .info message => Sends os_type message
  | .call request _ => offered os_type request = true

/-- The documented invocation: the installed callback, once, with what the message carries
and `nil` for a signal that it does not. -/
def invocation (session : T) : Info → Option Invocation
  | .data payload => session.on_data.map fun callback => .on_data callback payload
  | .exit exit_code signal_code => session.on_exit.map fun callback => .on_exit callback exit_code signal_code

/-- The server has a clause for the message: only the invocation is added to what it did. -/
def Delivered (serving : Serving) (message : Info) : Prop :=
  serving.step (.info message) = some { serving with invoked := serving.invoked ++ (invocation serving.session message).toList }

/-- The server takes every event of the run, and delivers each message where it is taken. -/
def Agree (start : Serving) (events : List Event) : Prop :=
  (exec Serving.step start events).isSome ∧
    ∀ taken message rest serving, events = taken ++ .info message :: rest →
      exec Serving.step start taken = some serving → Delivered serving message

private theorem clause_iff {os_type : OsType} {serving : Serving} {event : Event} (occurs : Occurs os_type event) :
    (∀ message, event = .info message → Delivered serving message) ↔
      ∀ exit_code signal_code, event = .info (.exit exit_code signal_code) → os_type = .unix := by
  cases event with
  | call request answer => simp
  | info message =>
    simp only [Event.info.injEq, forall_eq']
    cases occurs with
    | pty_pipesocket_fn payload => exact ⟨fun _ _ _ _ => rfl, fun _ => rfl⟩
    | pty_waitpid exit_code signal_code => exact ⟨fun _ _ _ _ => rfl, fun _ => rfl⟩
    | read_data payload => simp [Delivered, Serving.step, handle_info, invocation]
    | OnProcessExit exitCode => simp [Delivered, Serving.step, handle_info]

private theorem step_os_type {serving next : Serving} {event : Event} (taken : serving.step event = some next) :
    next.session.os_type = serving.session.os_type := by
  cases event with
  | call request answer =>
    obtain ⟨handled, served, rfl⟩ := Option.map_eq_some_iff.mp taken
    exact handle_call_os_type served
  | info message =>
    obtain ⟨_, _, rfl⟩ := Option.map_eq_some_iff.mp taken
    rfl

private theorem step_call {serving : Serving} {request : Request} (answer : Nif.Call → Reply)
    (known : offered serving.session.os_type request = true) : (serving.step (.call request answer)).isSome := by
  have goes : (handle_call answer request serving.session).isSome := handle_call_offered known
  obtain ⟨handled, served⟩ := Option.isSome_iff_exists.mp goes
  simp [Serving.step, served]

private theorem agree_cons {serving next : Serving} {event : Event} {rest : List Event}
    (stepped : serving.step event = some next) :
    Agree serving (event :: rest) ↔ (∀ message, event = .info message → Delivered serving message) ∧ Agree next rest := by
  unfold Agree
  rw [exec_cons Serving.step rest stepped]
  constructor
  · intro ⟨goes, delivered⟩
    refine ⟨?_, goes, ?_⟩
    · intro message same
      exact delivered [] message rest serving (by rw [same]; rfl) rfl
    · intro taken message later reached same run
      exact delivered (event :: taken) message later reached (by rw [same]; rfl) ((exec_cons _ _ stepped).trans run)
  · intro ⟨first, goes, delivered⟩
    refine ⟨goes, ?_⟩
    intro taken message later reached same run
    cases taken with
    | nil =>
      cases run
      exact first message (List.cons.inj same).1
    | cons other taken =>
      obtain ⟨rfl, tail⟩ := List.cons.inj same
      exact delivered taken message later reached tail ((exec_cons _ _ stepped).symm.trans run)

/-- The run from any state that serves a session of the platform. By induction on the run;
a step that is not taken is a message without a clause. -/
private theorem run_agrees_iff {os_type : OsType} {serving : Serving} (same : serving.session.os_type = os_type)
    {events : List Event} (known : ∀ event ∈ events, Occurs os_type event) :
    Agree serving events ↔
      ∀ exit_code signal_code, Event.info (.exit exit_code signal_code) ∈ events → os_type = .unix := by
  induction events generalizing serving with
  | nil =>
    refine ⟨fun _ _ _ member => absurd member List.not_mem_nil, fun _ => ⟨rfl, ?_⟩⟩
    intro taken message rest reached empty
    simp at empty
  | cons event rest ih =>
    obtain ⟨first, later⟩ := List.forall_mem_cons.mp known
    have members : (∀ exit_code signal_code, Event.info (.exit exit_code signal_code) ∈ event :: rest → os_type = .unix) ↔
        (∀ exit_code signal_code, event = .info (.exit exit_code signal_code) → os_type = .unix) ∧
          ∀ exit_code signal_code, Event.info (.exit exit_code signal_code) ∈ rest → os_type = .unix := by
      simp only [List.mem_cons, or_imp, forall_and, eq_comm (b := event)]
    cases stepped : serving.step event with
    | some next => rw [members, agree_cons stepped, clause_iff first, ih ((step_os_type stepped).trans same) later]
    | none =>
      refine ⟨fun agree => absurd agree.1 (by simp [exec, stepped]), fun unix => ?_⟩
      cases event with
      | call request answer =>
        have goes := step_call answer (by rw [same]; exact first)
        simp [stepped] at goes
      | info message =>
        have delivered : Delivered serving message := (clause_iff first).mpr (members.mp unix).1 message rfl
        simp [Delivered, stepped] at delivered

/-- The server and the native layer agree on a run exactly when it runs on Unix or no
program ends in it. -/
theorem messages_agree_iff {os_type : OsType} {session : T} (same : session.os_type = os_type) (events : List Event)
    (known : ∀ event ∈ events, Occurs os_type event) :
    Agree (.spawned session) events ↔
      ∀ exit_code signal_code, Event.info (.exit exit_code signal_code) ∈ events → os_type = .unix :=
  run_agrees_iff same known

def winSession : T := { os_type := .win32, pty := .integer 1, on_exit := some (.func ⟨0, 4⟩) }

/-- A Windows session whose program writes is served and its output is handed on. -/
theorem messages_agree_output :
    (Occurs .win32 (.info (.data [104, 105])) ∧ Occurs .win32 (.call (.write [13]) fun _ => .ok)) ∧
      Agree (.spawned winSession) [.info (.data [104, 105]), .call (.write [13]) fun _ => .ok] := by
  have sent : Occurs .win32 (.info (.data [104, 105])) := .read_data [104, 105]
  have called : Occurs .win32 (.call (.write [13]) fun _ => .ok) := rfl
  refine ⟨⟨sent, called⟩, (messages_agree_iff rfl _ ?_).mpr ?_⟩
  · exact List.forall_mem_cons.mpr ⟨sent, List.forall_mem_cons.mpr ⟨called, by simp⟩⟩
  · simp

/-- The exit message of Windows matches no clause: the server stops and `on_exit` is not invoked. -/
theorem exit_message_stops_server :
    Occurs .win32 (.info (.exit 0 none)) ∧ (Serving.spawned winSession).step (.info (.exit 0 none)) = none ∧
      ¬ Agree (.spawned winSession) [.info (.exit 0 none)] :=
  ⟨.OnProcessExit 0, rfl, fun agree => absurd agree.1 (by decide)⟩

end ExPTY.Proofs.MessageClauses
