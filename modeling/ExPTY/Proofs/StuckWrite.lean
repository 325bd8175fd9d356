import ExPTY.Proofs.ServerRefinement
import ExPTY.Proofs.SpawnContract

/-! A write that the kernel does not take holds up all else that is asked of the session,
the signals that could end its program among them. What frees the server is the kernel or
the end of the file, and after the end of the file all the mail can be handled. -/

namespace ExPTY.Proofs.StuckWrite
open NativeCalls Runs SessionQueue ServerRefinement
open ClosedDescriptor (refusing)
open Server (OsType Reply Request Serving T UnixPack handle_call handle_info)
open Shutdown (Held finished inside left)
open SpawnContract (handle_call_offered handle_call_os_type)
open Termios (Header)

variable {header : Header} {world next : World header} {event : SessionQueue.Event header} {asked : Nat}

/-- The server waits for a write that is in its loop and asks for so many bytes, and no end
of the file has been seen. -/
structure Stuck (asked : Nat) (world : World header) : Prop where
  waits : world.waiting ≠ none
  opened : world.descriptor.fd_closed = false
  loop : ∃ loop : Loop, loop.nbytes = asked ∧ (world.descriptor.calls.getLast? = some (.looping loop) ∨
    world.descriptor.calls.getLast? = some (.writing loop))

/-- The kernel takes nothing of a write that has something left, and the file does not end. -/
def Refusing (asked : Nat) : SessionQueue.Event header → Prop
  | .advance kernel => asked ≠ 0 → kernel.write.getD 0 = 0
  | .end_of_file => False
  | _ => True

/-- The server has got no further. -/
structure Unserved (world later : World header) : Prop where
  serving : later.serving = world.serving
  kills : later.kills = world.kills
  waiting : later.waiting = world.waiting

section Blocked

private theorem last_set {calls : List (Call header)} {before after : Call header}
    (last : calls.getLast? = some before) : (calls.set (calls.length - 1) after).getLast? = some after := by
  obtain ⟨earlier, rfl⟩ := List.getLast?_eq_some_iff.mp last
  simp

private theorem refused_write {loop : Loop} {kernel : Kernel header}
    (refuses : loop.nbytes ≠ 0 → kernel.write.getD 0 = 0)
    (bounded : Bounded kernel (.write loop.data loop.bytes_written loop.nbytes : Syscall header)) :
    after_write loop kernel.write = (.looping loop.refuse : Call header) := by
  cases answer : kernel.write with
  | none => rfl
  | some count =>
    cases count with
    | zero => rfl
    | succ count =>
      have within : count + 1 ≤ loop.nbytes := bounded (count + 1) answer
      have nothing := refuses (by omega)
      rw [answer] at nothing
      cases nothing

private theorem advance_stuck (stuck : Stuck asked world) {kernel : Kernel header}
    (refuses : asked ≠ 0 → kernel.write.getD 0 = 0) (taken : world.step (.advance kernel) = some next) :
    Stuck asked next ∧ Unserved world next := by
  obtain ⟨waits, opened, loop, rfl, last⟩ := stuck
  obtain ⟨descriptor, stepped, rfl⟩ := Option.map_eq_some_iff.mp taken
  rcases last with looping | writing
  · have here := List.getLast?_eq_getElem?.symm.trans looping
    rw [SharedDescriptor.World.step, here] at stepped
    cases stepped
    refine ⟨⟨waits, opened, loop, rfl, .inr ?_⟩, rfl, rfl, rfl⟩
    rw [SharedDescriptor.World.setCall, opened]
    exact last_set looping
  · have here := List.getLast?_eq_getElem?.symm.trans writing
    rw [SharedDescriptor.World.step, here] at stepped
    simp only [Option.bind_some, Call.next, SharedDescriptor.World.perform] at stepped
    split at stepped <;> cases stepped
    next bounded =>
      refine ⟨⟨waits, opened, loop.refuse, rfl, .inl ?_⟩, rfl, rfl, rfl⟩
      rw [← refused_write refuses bounded]
      exact last_set writing

theorem stuck_step (stuck : Stuck asked world) (refuses : Refusing asked event) (taken : world.step event = some next) :
    Stuck asked next ∧ Unserved world next := by
  cases event with
  | request | data | exit =>
    cases taken
    exact ⟨⟨stuck.waits, stuck.opened, stuck.loop⟩, rfl, rfl, rfl⟩
  | take =>
    simp only [World.step, World.take] at taken
    split at taken
    next idle _ => exact absurd idle stuck.waits
    next idle _ => exact absurd idle stuck.waits
    next => cases taken
  | advance kernel => exact advance_stuck stuck refuses taken
  | answer =>
    obtain ⟨loop, _, looping | writing⟩ := stuck.loop
    · simp [World.step, World.answer, looping] at taken
    · simp [World.step, World.answer, writing] at taken
  | end_of_file => exact refuses.elim
  | close | hangup | reopen | release =>
    obtain ⟨descriptor, stepped, rfl⟩ := Option.map_eq_some_iff.mp taken
    simp only [SharedDescriptor.World.step] at stepped
    split at stepped <;> cases stepped
    exact ⟨⟨stuck.waits, stuck.opened, stuck.loop⟩, rfl, rfl, rfl⟩

end Blocked

section Drain
variable {spawned : T}

/-- No message of a Unix session lacks its signal code. -/
def accepted : Mail → Bool
  | .info (.exit _ none) => false
  | _ => true

/-- What a step can do to the session, the descriptor and the mail. -/
structure Stepped (world next : World header) : Prop where
  serving : next.serving = world.serving ∨ ∃ event, world.serving.step event = some next.serving
  descriptor : next.descriptor = world.descriptor ∨ ∃ event, world.descriptor.step event = some next.descriptor
  mailbox : ∀ mail ∈ next.mailbox, mail ∈ world.mailbox ∨ accepted mail = true

private theorem stepped_serve (before : World header) {served : Served} (serving : before.serving = world.serving)
    (descriptor : before.descriptor = world.descriptor) (mailbox : ∀ mail ∈ before.mailbox, mail ∈ world.mailbox)
    (taken : before.serve served = some next) : Stepped world next := by
  obtain ⟨after, stepped, rfl⟩ := Option.map_eq_some_iff.mp taken
  rw [serving] at stepped
  exact ⟨.inr ⟨_, stepped⟩, .inl descriptor, fun mail member => .inl (mailbox mail member)⟩

theorem step_stepped (taken : world.step event = some next) : Stepped world next := by
  have all : ∀ mail ∈ world.mailbox, mail ∈ world.mailbox ∨ accepted mail = true := fun _ member => .inl member
  cases event with
  | request | data | exit =>
    cases taken
    refine ⟨.inl rfl, .inl rfl, ?_⟩
    intro mail member
    rcases List.mem_append.mp member with old | new
    · exact .inl old
    · cases List.mem_singleton.mp new
      exact .inr rfl
  | take =>
    simp only [World.step, World.take] at taken
    split at taken
    next request rest _ queue =>
      have later : ∀ mail ∈ rest, mail ∈ world.mailbox := by
        intro mail member
        rw [queue]
        exact .tail _ member
      obtain ⟨native, sent, _, taken, _⟩ | ⟨call, descriptor, _, begins, rfl⟩ := handle_cases taken
      · exact stepped_serve { world with mailbox := rest, kills := world.kills ++ sent } rfl rfl later taken
      · exact ⟨.inl rfl, .inr ⟨_, begins⟩, fun mail member => .inl (later mail member)⟩
    next message rest _ queue =>
      refine stepped_serve { world with mailbox := rest } rfl rfl ?_ taken
      intro mail member
      rw [queue]
      exact .tail _ member
    next => cases taken
  | answer =>
    simp only [World.step, World.answer] at taken
    split at taken
    next request reply _ _ => exact stepped_serve { world with waiting := none } rfl rfl (fun _ member => member) taken
    next => cases taken
  | advance | end_of_file | close | hangup | reopen | release =>
    obtain ⟨descriptor, stepped, rfl⟩ := Option.map_eq_some_iff.mp taken
    exact ⟨.inl rfl, .inr ⟨_, stepped⟩, all⟩

/-- A server on Unix that has a clause for whatever is in its mailbox. -/
structure Able (spawned : T) (world : World header) : Prop where
  refined : Refined spawned world
  held : Held world.descriptor
  unix : world.serving.session.os_type = .unix
  mailbox : ∀ mail ∈ world.mailbox, accepted mail = true

private theorem unix_step {serving after : Serving} {event : Server.Event} (unix : serving.session.os_type = .unix)
    (taken : serving.step event = some after) : after.session.os_type = .unix := by
  cases event with
  | call request answer =>
    obtain ⟨handled, handles, rfl⟩ := Option.map_eq_some_iff.mp taken
    exact (handle_call_os_type handles).trans unix
  | info message =>
    obtain ⟨_, _, rfl⟩ := Option.map_eq_some_iff.mp taken
    exact unix

theorem step_able (world : World header) (event : SessionQueue.Event header) (next : World header)
    (able : Able spawned world) (taken : world.step event = some next) : Able spawned next := by
  obtain ⟨refined, held, unix, mailbox⟩ := able
  have stepped := step_stepped taken
  refine ⟨step_refined world event next refined taken, ?_, ?_, ?_⟩
  · rcases stepped.descriptor with same | ⟨_, moved⟩
    · rw [same]
      exact held
    · exact held.step moved
  · rcases stepped.serving with same | ⟨_, moved⟩
    · rw [same]
      exact unix
    · exact unix_step unix moved
  · intro mail member
    rcases stepped.mailbox mail member with old | good
    · exact mailbox mail old
    · exact good

private theorem able_call (able : Able spawned world) (request : Request) (answer : Server.Nif.Call → Reply) :
    ∃ serving, world.serving.step (.call request answer) = some serving := by
  have offered : SpawnContract.offered world.serving.session.os_type request = true := by
    rw [able.unix]
    rfl
  obtain ⟨handled, handles⟩ := Option.isSome_iff_exists.mp (@handle_call_offered answer request _ offered)
  exact ⟨_, Option.map_eq_some_iff.mpr ⟨handled, handles, rfl⟩⟩

/-- What the server has left to do, given that no call takes more than three steps. -/
def rank (world : World header) : Nat :=
  5 * world.mailbox.length + if world.waiting = none then 0 else 1 + (world.descriptor.calls.getLast?.map left).getD 0

/-- The steps that are left to the server and its native call. -/
def serves : SessionQueue.Event header → Prop
  | .take | .answer => True
  | .advance kernel => kernel = refusing
  | _ => False

private theorem start_other {call : Server.Nif.Call} (plain : ∀ pipesocket signal, call ≠ .kill pipesocket signal) :
    ∃ started : Call header, NativeCalls.start call = some started := by
  cases call with
  | kill pipesocket signal => exact absurd rfl (plain pipesocket signal)
  | write | resize | pause | resume | set_echo => exact ⟨_, rfl⟩

private theorem serve_goes {before : World header} {served : Served}
    (serves : ∃ serving, before.serving.step served.event = some serving) :
    ∃ next, before.serve served = some next ∧ next.mailbox = before.mailbox ∧ next.waiting = before.waiting := by
  obtain ⟨serving, stepped⟩ := serves
  exact ⟨_, Option.map_eq_some_iff.mpr ⟨serving, stepped, rfl⟩, rfl, rfl⟩

private theorem rank_served {rest : List Mail} (idle : world.waiting = none) {mail : Mail}
    (queue : world.mailbox = mail :: rest) (mailbox : next.mailbox = rest) (waiting : next.waiting = none) :
    rank next < rank world := by
  rw [rank, rank, mailbox, waiting, idle, queue, List.length_cons]
  simp only [if_true]
  omega

private theorem take_goes (able : Able spawned world) (idle : world.waiting = none) {mail : Mail} {rest : List Mail}
    (queue : world.mailbox = mail :: rest) : ∃ next, world.step .take = some next ∧ rank next < rank world := by
  cases mail with
  | info message =>
    have clause : ∃ invocation, handle_info message world.serving.session = some invocation := by
      cases message with
      | data data => exact ⟨_, rfl⟩
      | exit exit_code signal_code =>
        cases signal_code with
        | some signal_code => exact ⟨_, rfl⟩
        | none =>
          have good := able.mailbox (.info (.exit exit_code none)) (by rw [queue]; exact .head _)
          cases good
    obtain ⟨invocation, handles⟩ := clause
    have goes : ∃ serving, world.serving.step (.info message) = some serving :=
      ⟨_, Option.map_eq_some_iff.mpr ⟨invocation, handles, rfl⟩⟩
    obtain ⟨next, taken, mailbox, waiting⟩ :=
      @serve_goes _ { world with mailbox := rest } { mail := .info message } goes
    have stepped : world.step .take = World.serve { world with mailbox := rest } { mail := .info message } := by
      rw [World.step, World.take, idle, queue]
    exact ⟨next, stepped.trans taken, rank_served idle queue mailbox (waiting.trans idle)⟩
  | call request =>
    have stepped : world.step .take = World.handle { world with mailbox := rest } request := by
      rw [World.step, World.take, idle, queue]
    rw [stepped, World.handle]
    obtain ⟨handled, handles⟩ : ∃ handled, handle_call (fun _ => .ok) request world.serving.session = some handled := by
      obtain ⟨serving, moved⟩ := able_call able request fun _ => .ok
      obtain ⟨handled, handles, _⟩ := Option.map_eq_some_iff.mp moved
      exact ⟨handled, handles⟩
    rw [handles, Option.bind_some]
    cases handled.calls with
    | nil =>
      obtain ⟨next, taken, mailbox, waiting⟩ :=
        @serve_goes _ { world with mailbox := rest } { mail := .call request } (able_call able request _)
      exact ⟨next, taken, rank_served idle queue mailbox (waiting.trans idle)⟩
    | cons call more =>
      by_cases plain : ∀ pipesocket signal, call ≠ .kill pipesocket signal
      · obtain ⟨started, begins⟩ := @start_other header _ plain
        have calls : ∃ descriptor, world.descriptor.step (.call call) = some descriptor ∧
            descriptor.calls = world.descriptor.calls ++ [started] := by
          exact ⟨_, Option.map_eq_some_iff.mpr ⟨started, begins, rfl⟩, rfl⟩
        obtain ⟨descriptor, moved, same⟩ := calls
        rw [issue_other plain, moved]
        refine ⟨_, rfl, ?_⟩
        have few := Shutdown.left_le started
        simp only [rank, idle, queue, same, List.length_cons, reduceCtorEq, if_false, if_true, List.getLast?_append,
          List.getLast?_singleton, Option.some_or, Option.map_some, Option.getD_some]
        omega
      · simp only [Classical.not_forall, Classical.not_not] at plain
        obtain ⟨pipesocket, signal, rfl⟩ := plain
        obtain ⟨next, taken, mailbox, waiting⟩ :=
          @serve_goes _ { world with mailbox := rest, kills := world.kills ++ (expty_kill pipesocket signal).2 }
            { mail := .call request, native := some (expty_kill pipesocket signal).1 } (able_call able request _)
        exact ⟨next, taken, rank_served idle queue mailbox (waiting.trans idle)⟩

/-- The one call that is under way can go on, as nobody else is in the mutex. -/
private theorem advance_goes {descriptor : SharedDescriptor.World header} (held : Held descriptor)
    {earlier : List (Call header)} {call : Call header} (calls : descriptor.calls = earlier ++ [call])
    (returned : ∀ other ∈ earlier, finished other = true) (running : finished call = false) :
    ∃ after, descriptor.step (.advance (descriptor.calls.length - 1) refusing) = some after := by
  have found : descriptor.calls[descriptor.calls.length - 1]? = some call := by
    rw [calls]
    simp
  by_cases waits : ∃ data, call = .locking data
  · obtain ⟨data, rfl⟩ := waits
    have free : descriptor.mutex = none := by
      cases mutex : descriptor.mutex with
      | none => rfl
      | some holder =>
        obtain ⟨holding, there, within⟩ := held holder mutex
        have member := List.mem_of_getElem? there
        rw [calls] at member
        rcases List.mem_append.mp member with before | last
        · have ended := returned holding before
          cases holding <;> cases ended
          cases within
        · cases List.mem_singleton.mp last
          cases within
    rw [SharedDescriptor.World.step, found]
    exact ⟨_, if_pos free⟩
  · exact Shutdown.goes_on found running fun data same => waits ⟨data, same⟩

private theorem waiting_goes (able : Able spawned world) (closed : world.descriptor.fd_closed = true) {request : Request}
    (waits : world.waiting = some request) :
    ∃ event next, serves event ∧ world.step event = some next ∧ rank next < rank world := by
  obtain ⟨running, natives, one⟩ := able.refined.natives
  rw [waits, Option.toList_some, List.length_singleton, List.length_eq_one_iff] at one
  obtain ⟨call, rfl⟩ := one
  have last : world.descriptor.calls.getLast? = some call := by
    rw [natives]
    simp
  by_cases running : finished call = false
  · have returned : ∀ other ∈ (world.served.filterMap returned).map (Call.returned : Reply → Call header),
        finished other = true := by
      intro other member
      obtain ⟨reply, _, rfl⟩ := List.mem_map.mp member
      rfl
    obtain ⟨descriptor, moved⟩ := advance_goes able.held natives returned running
    refine ⟨.advance refusing, { world with descriptor }, rfl, Option.map_eq_some_iff.mpr ⟨descriptor, moved, rfl⟩, ?_⟩
    obtain ⟨before, after, moves⟩ := Shutdown.moved moved
    cases (List.getLast?_eq_getElem?.symm.trans last).symm.trans moves.running
    have fewer := moves.left closed
    have ends : descriptor.calls.getLast? = some after := by
      rw [moves.calls]
      exact last_set last
    simp only [rank, waits, ends, last, reduceCtorEq, if_false, Option.map_some, Option.getD_some]
    omega
  · cases call with
    | returned reply =>
      obtain ⟨next, taken, mailbox, waiting⟩ := @serve_goes _ { world with waiting := none }
        { mail := .call request, native := some reply } (able_call able request _)
      refine ⟨.answer, next, trivial, ?_, ?_⟩
      · rw [World.step, World.answer, waits, last]
        exact taken
      · rw [rank, rank, mailbox, waiting, waits]
        simp only [if_true, reduceCtorEq, if_false]
        omega
    | _ => exact absurd rfl running

private theorem progress (world : World header) (able : Able spawned world ∧ world.descriptor.fd_closed = true)
    (busy : ¬ (world.mailbox = [] ∧ world.waiting = none)) :
    ∃ event next, serves event ∧ world.step event = some next ∧
      (Able spawned next ∧ next.descriptor.fd_closed = true) ∧ rank next < rank world := by
  obtain ⟨able, closed⟩ := able
  have goes : ∃ event next, serves event ∧ world.step event = some next ∧ rank next < rank world := by
    cases waits : world.waiting with
    | some request => exact waiting_goes able closed waits
    | none =>
      cases queue : world.mailbox with
      | nil => exact absurd ⟨queue, waits⟩ busy
      | cons mail rest =>
        obtain ⟨next, taken, less⟩ := take_goes able waits queue
        exact ⟨.take, next, trivial, taken, less⟩
  obtain ⟨event, next, fits, taken, less⟩ := goes
  refine ⟨event, next, fits, taken, ⟨step_able world event next able taken, ?_⟩, less⟩
  rcases (step_stepped taken).descriptor with same | ⟨_, moved⟩
  · rw [same]
    exact closed
  · exact Shutdown.closed_step closed moved

end Drain

/-- While the kernel takes nothing of a write that is under way, no message is handled, no
answer given and no signal sent, whatever else happens. After the end of the file the server
can come to the end of its mail, and a write with nothing left has nothing else to wait for. -/
theorem write_holds_server (header : Header) (pack : UnixPack) (pipesocket : Nat) (pid : Int) (pty : Server.Binary)
    (events : List (SessionQueue.Event header)) (world : World header)
    (ran : exec World.step (.start header pack pipesocket pid pty) events = some world) :
    (∀ asked more, Stuck asked world → (∀ event ∈ more, Refusing asked event) →
      Always World.step (fun later => Stuck asked later ∧ Unserved world later) world more) ∧
    (world.descriptor.fd_closed = true → ∃ more final, exec World.step world more = some final ∧
      (final.mailbox = [] ∧ final.waiting = none) ∧ ∀ event ∈ more, serves event) := by
  constructor
  · intro asked more stuck refuses
    have along : Along World.step (fun _ event => Refusing asked event) world more := by
      intro taken event rest state next same _ _
      apply refuses event
      rw [same]
      exact List.mem_append_right _ (.head _)
    refine Always.of_along ?_ ⟨stuck, rfl, rfl, rfl⟩ along
    intro later event next kept refuses taken
    obtain ⟨stuck, serving, kills, waiting⟩ := kept
    obtain ⟨still, same⟩ := stuck_step stuck refuses taken
    exact ⟨still, same.serving.trans serving, same.kills.trans kills, same.waiting.trans waiting⟩
  · intro closed
    have able : Able (.of_spawn pack pipesocket pid pty) world := by
      apply (Always.of_invariant step_able events _).final ran
      exact ⟨start_refined header pack pipesocket pid pty, by rintro _ ⟨⟩, rfl, by rintro _ ⟨⟩⟩
    exact reaches_of_rank rank
      (fun world => Able (.of_spawn pack pipesocket pid pty) world ∧ world.descriptor.fd_closed = true) progress world
      ⟨able, closed⟩

/-- An empty write, and behind it the signal that is to end the program. -/
def emptyWrite : List (SessionQueue.Event Header.linux) :=
  [.request (.write []), .request (.kill 9), .take, .advance refusing, .advance refusing]

def shell : UnixPack :=
  { file := [], args := [], env := [], cwd := [], cols := 80, rows := 24, ibaudrate := 38400, obaudrate := 38400, uid := -2
    gid := -2, is_utf8 := true, closeFDs := false, echo? := false, helperPath := [], handle_flow_control := false
    flow_control_pause := [0x13], flow_control_resume := [0x11], on_data := none, on_exit := none }

/-- No kernel frees the server of an empty write, so that the signal is never sent. -/
theorem empty_write_unkillable :
    ∃ world, exec World.step (.start Header.linux shell 0 1 []) emptyWrite = some world ∧
      world.mailbox = [.call (.kill 9)] ∧
        ∀ more, SessionQueue.Event.end_of_file ∉ more → Always World.step (fun later => later.kills = []) world more := by
  refine ⟨_, rfl, rfl, ?_⟩
  intro more endless
  have stuck := (write_holds_server Header.linux shell 0 1 [] emptyWrite _ rfl).1 0 more
    ⟨by simp, rfl, Loop.start [], rfl, .inl rfl⟩ ?_
  · exact stuck.mono fun later kept => kept.2.kills
  · intro event member
    cases event with
    | end_of_file => exact endless member
    | advance kernel => exact absurd rfl
    | _ => trivial

end ExPTY.Proofs.StuckWrite
