import ExPTY.Proofs.Shutdown
import ExPTY.SessionQueue

/-! The server that waits for its native calls does what the server does that gets their
answers at once. It handles every message once and in the order in which they came, and
no two of its native calls are ever under way together. -/

namespace ExPTY.Proofs.ServerRefinement
open NativeCalls Runs SessionQueue
open Server (Binary Reply Request Serving T UnixPack handle_call)
open Shutdown (finished moved)
open Termios (Header)

/-- The native calls of the clause for a request. -/
def clause (request : Request) (session : T) : Option (List Server.Nif.Call) :=
  (handle_call (fun _ => .ok) request session).map (·.calls)

def signals : Server.Nif.Call → List Int
  | .kill pipesocket signal => (expty_kill pipesocket signal).2
  | _ => []

/-- What the call of a handled message on the descriptor has returned. -/
def returned (served : Served) : Option Reply :=
  match served.mail with
  | .call (.kill _) => none
  | _ => served.native

/-- The clause of the request that the server waits for, which is no `kill`. -/
structure Issued (session : T) (request : Request) : Prop where
  calls : ∃ call, clause request session = some [call] ∧ signals call = []
  other : ∀ signal, request ≠ .kill signal

/-- The server as the run of the one that never waits, over the mail that has been handled. -/
structure Refined (spawned : T) {header : Header} (world : World header) : Prop where
  ran : exec Serving.step (.spawned spawned) (world.served.map Served.event) = some world.serving
  order : world.posted = world.served.map Served.mail ++ world.waiting.toList.map .call ++ world.mailbox
  natives : ∃ running, world.descriptor.calls = (world.served.filterMap returned).map .returned ++ running ∧
    running.length = world.waiting.toList.length
  kills : world.kills = world.serving.calls.flatMap signals
  issued : ∀ request, world.waiting = some request → Issued world.serving.session request

section Clauses
variable {session : T} {request : Request}

/-- What a clause calls does not depend on the answers. -/
theorem clause_calls {answer : Server.Nif.Call → Reply} {handled : Server.Handled}
    (handles : handle_call answer request session = some handled) : clause request session = some handled.calls := by
  cases request with
  | write data =>
    cases os : session.os_type with
    | unix =>
      simp only [handle_call, os, Option.some.injEq] at handles
      subst handles
      simp only [clause, handle_call, os, Option.map_some, Server.handle_write]
      split
      · split
        · rfl
        · split <;> rfl
      · rfl
    | win32 =>
      simp only [handle_call, os, Option.some.injEq] at handles
      subst handles
      simp only [clause, handle_call, os, Option.map_some, Server.forward]
  | kill | resize | set_echo =>
    cases os : session.os_type with
    | unix | win32 =>
      simp only [handle_call, os, Option.some.injEq, reduceCtorEq] at handles
      try subst handles
      try simp only [clause, handle_call, os, Option.map_some, Server.forward]
  | update_on_data | update_on_exit | get_flow_control | flow_control | pause | resume =>
    simp only [handle_call, Option.some.injEq] at handles
    subst handles
    simp only [clause, handle_call, Option.map_some, Server.forward]

/-- A clause makes one native call at most, and that of `kill` is the one that is no call on the descriptor. -/
theorem clause_cases {call : Server.Nif.Call} {rest : List Server.Nif.Call}
    (calls : clause request session = some (call :: rest)) :
    rest = [] ∧ ((∃ pipesocket signal, call = .kill pipesocket signal ∧ request = .kill signal) ∨
      (∀ pipesocket signal, call ≠ .kill pipesocket signal) ∧ ∀ signal, request ≠ .kill signal) := by
  cases request with
  | write data =>
    cases os : session.os_type with
    | unix =>
      simp only [clause, handle_call, os, Option.map_some, Server.handle_write] at calls
      split at calls
      · split at calls
        · cases calls
          exact ⟨rfl, .inr ⟨by simp, by simp⟩⟩
        · split at calls <;> cases calls
          exact ⟨rfl, .inr ⟨by simp, by simp⟩⟩
      · cases calls
        exact ⟨rfl, .inr ⟨by simp, by simp⟩⟩
    | win32 =>
      simp only [clause, handle_call, os, Option.map_some, Server.forward] at calls
      cases calls
      exact ⟨rfl, .inr ⟨by simp, by simp⟩⟩
  | flow_control enable? =>
    simp only [clause, handle_call, Option.map_some, Server.handle_flow_control] at calls
    split at calls <;> cases calls
    exact ⟨rfl, .inr ⟨by simp, by simp⟩⟩
  | kill signal =>
    cases os : session.os_type with
    | unix =>
      simp only [clause, handle_call, os, Option.map_some, Server.forward] at calls
      cases calls
      exact ⟨rfl, .inl ⟨_, signal, rfl, rfl⟩⟩
    | win32 =>
      simp only [clause, handle_call, os, Option.map_some] at calls
      cases calls
  | resize | set_echo =>
    cases os : session.os_type with
    | unix | win32 =>
      simp only [clause, handle_call, os, Option.map_some, Option.map_none, Server.forward] at calls
      cases calls
      try exact ⟨rfl, .inr ⟨by simp, by simp⟩⟩
  | update_on_data | update_on_exit | get_flow_control | pause | resume =>
    simp only [clause, handle_call, Option.map_some, Server.forward] at calls
    cases calls
    try exact ⟨rfl, .inr ⟨by simp, by simp⟩⟩

end Clauses

section Steps
variable {spawned : T} {header : Header} {world next : World header}

/-- A message that is handled for good, whose call on the descriptor has returned. -/
private theorem refined_serve (world : World header) {served : Served} (idle : world.waiting = none)
    (ran : exec Serving.step (.spawned spawned) (world.served.map Served.event) = some world.serving)
    (order : world.posted = world.served.map Served.mail ++ served.mail :: world.mailbox)
    (natives : world.descriptor.calls =
      (world.served.filterMap returned).map .returned ++ (returned served).toList.map .returned)
    (kills : ∀ serving, world.serving.step served.event = some serving → world.kills = serving.calls.flatMap signals)
    (taken : world.serve served = some next) : Refined spawned next := by
  obtain ⟨serving, stepped, rfl⟩ := Option.map_eq_some_iff.mp taken
  refine ⟨?_, ?_, ⟨[], ?_, ?_⟩, kills serving stepped, ?_⟩
  · rw [List.map_append, exec_append, ran, Option.bind_some]
    exact exec_cons Serving.step [] stepped
  · rw [List.map_append, idle, order]
    simp
  · rw [natives, List.filterMap_append, List.map_append, List.append_nil]
    cases result : returned served with
    | none => simp [result]
    | some reply => simp [result]
  · rw [idle]
    rfl
  · intro request waiting
    cases idle.symm.trans waiting

private theorem returned_none (mail : Mail) : returned { mail } = none := by
  unfold returned
  split <;> rfl

private theorem serving_call {serving next : Serving} {request : Request} {answer : Server.Nif.Call → Reply}
    (stepped : serving.step (.call request answer) = some next) :
    ∃ calls, clause request serving.session = some calls ∧ next.calls = serving.calls ++ calls := by
  obtain ⟨handled, handles, rfl⟩ := Option.map_eq_some_iff.mp stepped
  exact ⟨handled.calls, clause_calls handles, rfl⟩

theorem issue_other {call : Server.Nif.Call} (plain : ∀ pipesocket signal, call ≠ .kill pipesocket signal)
    {request : Request} {rest : List Server.Nif.Call} :
    world.issue request (call :: rest) =
      (world.descriptor.step (.call call)).map fun descriptor => { world with descriptor, waiting := some request } := by
  cases call with
  | kill pipesocket signal => exact absurd rfl (plain pipesocket signal)
  | write | resize | pause | resume | set_echo => rfl

private theorem signals_other {call : Server.Nif.Call} (plain : ∀ pipesocket signal, call ≠ .kill pipesocket signal) :
    signals call = [] := by
  cases call with
  | kill pipesocket signal => exact absurd rfl (plain pipesocket signal)
  | write | resize | pause | resume | set_echo => rfl

/-- A request is handled at once, or its clause has begun a call on the descriptor. -/
theorem handle_cases {request : Request} (taken : world.handle request = some next) :
    (∃ native sent, returned ⟨.call request, native⟩ = none ∧
        World.serve { world with kills := world.kills ++ sent } ⟨.call request, native⟩ = some next ∧
          ∃ calls, clause request world.serving.session = some calls ∧ calls.flatMap signals = sent) ∨
      ∃ call descriptor, Issued world.serving.session request ∧ world.descriptor.step (.call call) = some descriptor ∧
        next = { world with descriptor, waiting := some request } := by
  obtain ⟨handled, handles, taken⟩ := Option.bind_eq_some_iff.mp taken
  have calls := clause_calls handles
  cases made : handled.calls with
  | nil =>
    rw [made] at taken calls
    refine .inl ⟨none, [], returned_none _, ?_, [], calls, rfl⟩
    rw [List.append_nil]
    exact taken
  | cons call more =>
    rw [made] at taken calls
    obtain ⟨rfl, ⟨pipesocket, signal, rfl, rfl⟩ | ⟨plain, other⟩⟩ := clause_cases calls
    · exact .inl ⟨_, (expty_kill pipesocket signal).2, rfl, taken, _, calls, List.append_nil _⟩
    · rw [issue_other plain] at taken
      obtain ⟨descriptor, begins, rfl⟩ := Option.map_eq_some_iff.mp taken
      exact .inr ⟨call, descriptor, ⟨⟨call, calls, signals_other plain⟩, other⟩, begins, rfl⟩

private theorem Refined.idle (refined : Refined spawned world) (idle : world.waiting = none) :
    world.posted = world.served.map Served.mail ++ world.mailbox ∧
      world.descriptor.calls = (world.served.filterMap returned).map .returned := by
  obtain ⟨_, order, ⟨running, natives, none_running⟩, _, _⟩ := refined
  rw [idle, Option.toList_none, List.length_nil, List.length_eq_zero_iff] at none_running
  rw [none_running, List.append_nil] at natives
  rw [idle, Option.toList_none, List.map_nil, List.append_nil] at order
  exact ⟨order, natives⟩

private theorem handle_refined {request : Request} {rest : List Mail} (refined : Refined spawned world)
    (idle : world.waiting = none) (queue : world.mailbox = .call request :: rest)
    (taken : World.handle { world with mailbox := rest } request = some next) : Refined spawned next := by
  obtain ⟨order, natives⟩ := refined.idle idle
  rw [queue] at order
  obtain ⟨native, sent, unreturned, taken, calls, same, signalled⟩ | ⟨call, descriptor, issued, begins, rfl⟩ :=
    handle_cases taken
  · refine refined_serve { world with mailbox := rest, kills := world.kills ++ sent } idle refined.ran order ?_ ?_ taken
    · rw [natives, unreturned]
      exact (List.append_nil _).symm
    · intro serving stepped
      obtain ⟨own, made, more⟩ := serving_call stepped
      cases same.symm.trans made
      rw [more, List.flatMap_append, refined.kills, signalled]
  · obtain ⟨started, _, rfl⟩ := Option.map_eq_some_iff.mp begins
    refine ⟨refined.ran, ?_, ⟨[started], congrArg (· ++ [started]) natives, rfl⟩, refined.kills, ?_⟩
    · rw [order]
      simp
    · intro waits same
      cases same
      exact issued

private theorem take_refined (refined : Refined spawned world) (taken : world.take = some next) :
    Refined spawned next := by
  unfold World.take at taken
  split at taken
  next request rest idle queue => exact handle_refined refined idle queue taken
  next message rest idle queue =>
    obtain ⟨order, natives⟩ := refined.idle idle
    rw [queue] at order
    refine refined_serve { world with mailbox := rest } idle refined.ran order ?_ ?_ taken
    · rw [natives, returned_none]
      exact (List.append_nil _).symm
    · intro serving stepped
      obtain ⟨_, _, rfl⟩ := Option.map_eq_some_iff.mp stepped
      exact refined.kills
  next => cases taken

private theorem answer_refined (refined : Refined spawned world) (taken : world.answer = some next) :
    Refined spawned next := by
  unfold World.answer at taken
  split at taken
  next request reply waits last =>
    obtain ⟨ran, order, ⟨running, natives, one⟩, kills, issued⟩ := refined
    obtain ⟨⟨call, calls, silent⟩, other⟩ := issued request waits
    rw [waits, Option.toList_some, List.length_singleton, List.length_eq_one_iff] at one
    obtain ⟨own, rfl⟩ := one
    have result : own = .returned reply := by
      rw [natives, List.getLast?_append, List.getLast?_singleton, Option.some_or] at last
      exact Option.some.inj last
    have answered : returned ⟨.call request, some reply⟩ = some reply := by
      cases request with
      | kill signal => exact absurd rfl (other signal)
      | _ => rfl
    refine refined_serve { world with waiting := none } rfl ran ?_ ?_ ?_ taken
    · rw [order, waits]
      simp
    · rw [natives, result, answered]
      rfl
    · intro serving stepped
      obtain ⟨own, same, more⟩ := serving_call stepped
      cases calls.symm.trans same
      rw [more, List.flatMap_append, kills, List.flatMap_singleton, silent, List.append_nil]
  next => cases taken

/-- What leaves the calls alone or moves the one that is under way. -/
private theorem refined_descriptor (refined : Refined spawned world) {descriptor : SharedDescriptor.World header}
    (calls : descriptor.calls = world.descriptor.calls ∨
      ∃ earlier before after, world.descriptor.calls = earlier ++ [before] ∧ finished before = false ∧
        descriptor.calls = earlier ++ [after]) : Refined spawned { world with descriptor } := by
  refine ⟨refined.ran, refined.order, ?_, refined.kills, refined.issued⟩
  obtain ⟨running, natives, length⟩ := refined.natives
  rcases calls with same | ⟨earlier, before, after, split, unfinished, moved⟩
  · exact ⟨running, same.trans natives, length⟩
  · cases waits : world.waiting with
    | none =>
      rw [waits, Option.toList_none, List.length_nil, List.length_eq_zero_iff] at length
      rw [length, List.append_nil] at natives
      have member : before ∈ world.descriptor.calls := by simp [split]
      rw [natives] at member
      obtain ⟨reply, _, rfl⟩ := List.mem_map.mp member
      cases unfinished
    | some request =>
      rw [waits, Option.toList_some, List.length_singleton, List.length_eq_one_iff] at length
      obtain ⟨own, rfl⟩ := length
      obtain ⟨same, _⟩ := List.append_inj' (split.symm.trans natives) rfl
      exact ⟨[after], by rw [moved, same], rfl⟩

private theorem advance_refined (refined : Refined spawned world) {kernel : Kernel header}
    (taken : world.step (.advance kernel) = some next) : Refined spawned next := by
  obtain ⟨descriptor, stepped, rfl⟩ := Option.map_eq_some_iff.mp taken
  obtain ⟨before, after, moves⟩ := moved stepped
  have unfinished : finished before = false := by
    cases before with
    | returned reply =>
      rw [SharedDescriptor.World.step, moves.running] at stepped
      cases stepped
    | _ => rfl
  obtain ⟨earlier, split⟩ := List.getLast?_eq_some_iff.mp (List.getLast?_eq_getElem?.trans moves.running)
  refine refined_descriptor refined (.inr ⟨earlier, before, after, split, unfinished, ?_⟩)
  rw [moves.calls, split]
  simp

theorem step_refined (world : World header) (event : SessionQueue.Event header) (next : World header)
    (refined : Refined spawned world) (taken : world.step event = some next) : Refined spawned next := by
  cases event with
  | request request | data data | exit exit_code signal_code =>
    cases taken
    refine ⟨refined.ran, ?_, refined.natives, refined.kills, refined.issued⟩
    simp only [World.post]
    rw [refined.order, List.append_assoc]
  | take => exact take_refined refined taken
  | answer => exact answer_refined refined taken
  | advance kernel => exact advance_refined refined taken
  | end_of_file | close | hangup | reopen | release =>
    obtain ⟨descriptor, stepped, rfl⟩ := Option.map_eq_some_iff.mp taken
    apply refined_descriptor refined
    simp only [SharedDescriptor.World.step] at stepped
    split at stepped <;> cases stepped
    exact .inl rfl

theorem start_refined (header : Header) (pack : UnixPack) (pipesocket : Nat) (pid : Int) (pty : Binary) :
    Refined (.of_spawn pack pipesocket pid pty) (World.start header pack pipesocket pid pty) := by
  refine ⟨rfl, rfl, ⟨[], rfl, rfl⟩, rfl, ?_⟩
  intro request waiting
  cases waiting

end Steps

/-- In every run the server has handled its mail in the order of its coming, each message once,
as the server does whose native calls answer at once with what they have returned here. -/
theorem server_refines (header : Header) (pack : UnixPack) (pipesocket : Nat) (pid : Int) (pty : Binary)
    (events : List (SessionQueue.Event header)) :
    Always World.step (Refined (.of_spawn pack pipesocket pid pty)) (.start header pack pipesocket pid pty) events :=
  Always.of_invariant step_refined events (start_refined header pack pipesocket pid pty)

end ExPTY.Proofs.ServerRefinement
