import ExPTY.Server

/-! The bytes that reach `ExPTY.Nif.write` over a run of public calls, against the
bytes the callers asked to have written. Only the write clause can lose any: its
filtering path answers `:ok` for every input and forwards none. -/

namespace ExPTY.Proofs.ServerWrites
open Runs Server

def payloads (calls : List Nif.Call) : Binary := (calls.filterMap Nif.Call.payload).flatten

theorem payloads_append (first second : List Nif.Call) :
    payloads (first ++ second) = payloads first ++ payloads second := by
  simp [payloads]

/-- Flow control after a request, as the callers have switched it. -/
def flowAfter (flow : Bool) : Request → Bool
  | .flow_control enable? => enable?
  | _ => flow

/-- What one request asks to have written. Only a control code, and only while flow
control is on, is meant for the server itself. -/
def wanted (pause resume : Binary) (flow : Bool) : Request → Binary
  | .write data => if flow ∧ (data = pause ∨ data = resume) then [] else data
  | _ => []

def requested (pause resume : Binary) : Bool → List Request → Binary
  | _, [] => []
  | flow, request :: rest => wanted pause resume flow request ++ requested pause resume (flowAfter flow request) rest

/-- A Unix session with these control codes and this flow control setting. -/
structure Serves (pause resume : Binary) (flow : Bool) (session : T) : Prop where
  unix : session.os_type = .unix
  flow : session.handle_flow_control = some flow
  pause : session.flow_control_pause = some pause
  resume : session.flow_control_resume = some resume

theorem spawned_serves (pack : UnixPack) (pipesocket : Nat) (pid : Int) (pty : Binary) :
    Serves pack.flow_control_pause pack.flow_control_resume pack.handle_flow_control
      (.of_spawn pack pipesocket pid pty) :=
  ⟨rfl, rfl, rfl, rfl⟩

/-- What one request does put on the wire. -/
def sent (flow : Bool) : Request → Binary
  | .write data => if flow then [] else data
  | _ => []

variable {pause resume : Binary} {flow : Bool} {session : T}

theorem write_sends (answer : Nif.Call → Reply) (data : Binary) (serves : Serves pause resume flow session) :
    payloads (handle_write answer data session).calls = sent flow (.write data) := by
  unfold handle_write
  rw [serves.flow, serves.pause, serves.resume]
  cases flow with
  | false => simp [payloads, Nif.Call.payload, sent]
  | true =>
    simp only [Option.some.injEq, ite_true]
    split
    · simp [payloads, Nif.Call.payload, sent]
    · split <;> simp [payloads, Nif.Call.payload, sent]

/-- Every public call has a clause on Unix. Its effect on the flow control setting
and on the written bytes does not depend on what the native calls answer. -/
theorem handle_call_sends (answer : Nif.Call → Reply) (request : Request) (serves : Serves pause resume flow session) :
    ∃ handled, handle_call answer request session = some handled ∧
      Serves pause resume (flowAfter flow request) handled.state ∧ payloads handled.calls = sent flow request := by
  unfold handle_call
  rw [serves.unix]
  cases request with
  | write data =>
    refine ⟨_, rfl, ?_, write_sends answer data serves⟩
    rw [handle_write_state]
    exact serves
  | flow_control enable? =>
    refine ⟨_, rfl, ⟨serves.unix, rfl, serves.pause, serves.resume⟩, ?_⟩
    simp only [handle_flow_control]
    split <;> rfl
  | kill _ | resize _ _ | get_flow_control | pause | resume => exact ⟨_, rfl, serves, rfl⟩
  | update_on_data _ | update_on_exit _ | set_echo _ =>
    exact ⟨_, rfl, ⟨rfl, serves.flow, serves.pause, serves.resume⟩, rfl⟩

/-- A write that goes through: flow control is off, the data is a control code, or
there is nothing to write. -/
def Forwarded (serving : Serving) : Event → Prop
  | .call (.write data) _ =>
    serving.session.handle_flow_control = some true →
      data = [] ∨ some data = serving.session.flow_control_pause ∨ some data = serving.session.flow_control_resume
  | _ => True

theorem sent_le_wanted (pause resume : Binary) (flow : Bool) (request : Request) :
    (sent flow request).length ≤ (wanted pause resume flow request).length := by
  cases request with
  | write data => cases flow <;> simp [sent, wanted]
  | _ => exact Nat.le_refl _

theorem sent_eq_wanted_iff (request : Request) (answer : Nif.Call → Reply) (serving : Serving)
    (serves : Serves pause resume flow serving.session) :
    sent flow request = wanted pause resume flow request ↔ Forwarded serving (.call request answer) := by
  cases request with
  | write data =>
    simp only [sent, wanted, Forwarded, serves.flow, serves.pause, serves.resume, Option.some.injEq]
    cases flow with
    | false => simp
    | true =>
      by_cases code : data = pause ∨ data = resume
      · simp [code]
      · simp only [code, and_false, or_false, ite_true, ite_false, forall_const]
        exact eq_comm
  | _ => simp [sent, wanted, Forwarded]

private theorem append_eq_iff {first second first' second' : Binary} (shorter : first.length ≤ first'.length)
    (shorter' : second.length ≤ second'.length) :
    first ++ second = first' ++ second' ↔ first = first' ∧ second = second' := by
  constructor
  · intro same
    have lengths := congrArg List.length same
    simp only [List.length_append] at lengths
    exact List.append_inj same (by omega)
  · rintro ⟨rfl, rfl⟩
    rfl

/-- A public call together with the answers its native calls would get. -/
abbrev PublicCall := Request × (Nif.Call → Reply)

def events (calls : List PublicCall) : List Event := calls.map fun call => .call call.1 call.2

private theorem events_cons (request : Request) (answer : Nif.Call → Reply) (rest : List PublicCall) :
    events ((request, answer) :: rest) = .call request answer :: events rest := rfl

private theorem run_sends (calls : List PublicCall) (serving : Serving) (serves : Serves pause resume flow serving.session) :
    ∃ final written, exec Serving.step serving (events calls) = some final ∧
      payloads final.calls = payloads serving.calls ++ written ∧
      written.length ≤ (requested pause resume flow (calls.map Prod.fst)).length ∧
      (written = requested pause resume flow (calls.map Prod.fst) ↔
        Along Serving.step Forwarded serving (events calls)) := by
  induction calls generalizing serving flow with
  | nil => exact ⟨serving, [], rfl, by simp, Nat.le_refl _, fun _ => along_nil, fun _ => rfl⟩
  | cons call rest ih =>
    obtain ⟨request, answer⟩ := call
    obtain ⟨handled, accepted, served, wrote⟩ := handle_call_sends answer request serves
    let next := { serving with
      session := handled.state
      calls := serving.calls ++ handled.calls
      replies := serving.replies ++ [handled.reply] }
    have stepped : serving.step (.call request answer) = some next := by simp [Serving.step, accepted, next]
    obtain ⟨final, written, reached, total, shorter, exact_iff⟩ := ih next served
    refine ⟨final, sent flow request ++ written, ?_, ?_, ?_, ?_⟩
    · rw [events_cons, exec_cons _ _ stepped]
      exact reached
    · rw [total, payloads_append, wrote, List.append_assoc]
    · simp only [List.map_cons, requested, List.length_append]
      exact Nat.add_le_add (sent_le_wanted pause resume flow request) shorter
    · rw [List.map_cons, requested, append_eq_iff (sent_le_wanted pause resume flow request) shorter,
        sent_eq_wanted_iff request answer serving serves, exact_iff, events_cons, along_cons]
      constructor
      · rintro ⟨condition, later⟩ next taken
        cases stepped.symm.trans taken
        exact ⟨condition, later⟩
      · intro along
        exact along _ stepped

/-- Over every run of public calls the bytes given to `ExPTY.Nif.write` are the bytes
asked for, less the control codes, exactly when each write made under flow control
carries a control code or nothing. -/
theorem writes_forwarded_iff (pack : UnixPack) (pipesocket : Nat) (pid : Int) (pty : Binary) (calls : List PublicCall) :
    ∃ final, exec Serving.step (.spawned (.of_spawn pack pipesocket pid pty)) (events calls) = some final ∧
      (payloads final.calls = requested pack.flow_control_pause pack.flow_control_resume
          pack.handle_flow_control (calls.map Prod.fst) ↔
        Along Serving.step Forwarded (.spawned (.of_spawn pack pipesocket pid pty)) (events calls)) := by
  obtain ⟨final, written, reached, total, _, exact_iff⟩ :=
    run_sends calls (.spawned (.of_spawn pack pipesocket pid pty)) (spawned_serves pack pipesocket pid pty)
  refine ⟨final, reached, ?_⟩
  rw [total]
  exact exact_iff

/-- A pack with flow control on and the default XOFF and XON codes. -/
def flowing : UnixPack :=
  { file := [], args := [], env := [], cwd := [], cols := 80, rows := 24, ibaudrate := 38400, obaudrate := 38400
    uid := -2, gid := -2, is_utf8 := true, closeFDs := false, echo? := false, helperPath := []
    handle_flow_control := true, flow_control_pause := [0x13], flow_control_resume := [0x11]
    on_data := none, on_exit := none }

/-- Typing `l` under flow control is answered `:ok`, and the byte goes nowhere. -/
theorem ordinary_write_dropped :
    ∃ final, exec Serving.step (.spawned (.of_spawn flowing 0 1 [])) (events [(.write [108], fun _ => .ok)]) = some final ∧
      final.replies = [.ok] ∧ payloads final.calls ≠
        requested flowing.flow_control_pause flowing.flow_control_resume flowing.handle_flow_control [.write [108]] :=
  ⟨_, rfl, rfl, by decide⟩

end ExPTY.Proofs.ServerWrites
