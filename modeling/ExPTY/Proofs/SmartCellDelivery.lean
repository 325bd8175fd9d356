import ExPTY.SmartCellStart

/-! What becomes of a session's output and of its exit while the smart cell is still
registering its callbacks. The server keeps the order of its mailbox and loses nothing
itself, but a message it takes too early finds no callback and is gone. -/

namespace ExPTY.Proofs.SmartCellDelivery
open Runs SmartCellStart
open Server (Binary Request UnixPack)
open SmartCell (Assigns Pid handle_start)

def dataOf : Mail → Option Binary
  | .info (.data data) => some data
  | _ => none

def exitOf : Mail → Option Int
  | .info (.exit exit_code _) => some exit_code
  | _ => none

def callOf : Mail → Option Request
  | .call request => some request
  | _ => none

def outstanding : Cell → List Request
  | .setting_on_data => [.update_on_data on_data]
  | .setting_on_exit => [.update_on_exit on_exit]
  | _ => []

/-- All output posted is broadcast in order or still in the mailbox, the exit is on its
way to the cell or handled, and a cell that shows its session as started will hear of
the exit. -/
structure Delivered (world : World) : Prop where
  data : world.posted = world.broadcasts ++ world.mailbox.filterMap dataOf
  exit : world.exits = world.handled ++ world.notices ++ world.mailbox.filterMap exitOf
  running : world.assigns.started? = true → world.exits ≠ [] → world.mailbox.filterMap exitOf = [] → world.notices ≠ []

def Heard (session : Server.T) : Server.Info → Prop
  | .data _ => session.on_data ≠ none
  | .exit _ _ => session.on_exit ≠ none

/-- The server takes no message before the callback for it is registered. -/
def Registered (world : World) : Event → Prop
  | .take => ∀ session message rest, world.server = some session → world.mailbox = .info message :: rest →
      Heard session message
  | _ => True

structure Coherent (world : World) : Prop where
  plain : world.pack.on_data = none ∧ world.pack.on_exit = none
  on_data : ∀ session callback, world.server = some session → session.on_data = some callback →
    callback = SmartCellStart.on_data
  on_exit : ∀ session callback, world.server = some session → session.on_exit = some callback →
    callback = SmartCellStart.on_exit
  calls : world.mailbox.filterMap callOf = outstanding world.cell
  starting : world.cell ≠ .idle → world.handled = [] ∧ world.assigns.started? = false
  ended : world.handled ≠ [] → world.assigns.started? = false

/-- The cell makes its three calls in this order, and ends with these assigns. -/
theorem start_calls (darwin : Bool) (executable : Option String) (pty : Pid) {assigns : Assigns}
    (stopped : assigns.started? = false) :
    handle_start darwin executable (fun _ => some pty) assigns =
      some (started pty assigns, [.on_data pty, .on_exit pty]) := by
  simp [handle_start, stopped, started]

variable {world next : World} {event : Event}

/-- While a cell shows a session as started it has handled no notice, so that the whole
of the exit is still on its way. -/
theorem Coherent.delivered (coherent : Coherent world)
    (data : world.posted = world.broadcasts ++ world.mailbox.filterMap dataOf)
    (exit : world.exits = world.handled ++ world.notices ++ world.mailbox.filterMap exitOf) : Delivered world := by
  refine ⟨data, exit, ?_⟩
  intro shown exited taken empty
  have unhandled : world.handled = [] := by
    by_cases unhandled : world.handled = []
    · exact unhandled
    · rw [coherent.ended unhandled] at shown
      cases shown
  rw [unhandled, empty, taken] at exit
  exact exited exit

inductive Taken (world next : World) : Prop where
  | on_data (session : Server.T) (rest : List Mail) (server : world.server = some session)
      (mailbox : world.mailbox = .call (.update_on_data SmartCellStart.on_data) :: rest)
      (waiting : world.cell = .setting_on_data)
      (same : next = { world with
        mailbox := rest, server := some { session with on_data := some SmartCellStart.on_data }, cell := .on_data_set })
  | on_exit (session : Server.T) (rest : List Mail) (server : world.server = some session)
      (mailbox : world.mailbox = .call (.update_on_exit SmartCellStart.on_exit) :: rest)
      (waiting : world.cell = .setting_on_exit)
      (same : next = { world with
        mailbox := rest, server := some { session with on_exit := some SmartCellStart.on_exit }, cell := .on_exit_set })
  | data (session : Server.T) (rest : List Mail) (data : Binary) (server : world.server = some session)
      (mailbox : world.mailbox = .info (.data data) :: rest)
      (same : next = { world with
        mailbox := rest, broadcasts := if session.on_data = none then world.broadcasts else world.broadcasts ++ [data] })
  | exit (session : Server.T) (rest : List Mail) (exit_code : Int) (signal_code : Option Int)
      (server : world.server = some session) (mailbox : world.mailbox = .info (.exit exit_code signal_code) :: rest)
      (same : next = { world with
        mailbox := rest, notices := if session.on_exit = none then world.notices else world.notices ++ [exit_code] })

theorem take_taken (coherent : Coherent world) (taken : world.step .take = some next) : Taken world next := by
  simp only [World.step] at taken
  split at taken <;> try contradiction
  next session mail rest server mailbox =>
    cases mail with
    | call request =>
      have calls := coherent.calls
      rw [mailbox] at calls
      cases waiting : world.cell with
      | setting_on_data =>
        rw [waiting] at calls
        cases (List.cons.inj calls).1
        cases taken
        exact .on_data session rest server mailbox waiting rfl
      | setting_on_exit =>
        rw [waiting] at calls
        cases (List.cons.inj calls).1
        cases taken
        exact .on_exit session rest server mailbox waiting rfl
      | spawning | spawned | on_data_set | on_exit_set | idle =>
        rw [waiting] at calls
        cases calls
    | info message =>
      cases message with
      | data data =>
        refine .data session rest data server mailbox ?_
        cases taken
        cases set : session.on_data with
        | none => simp [World.invoke]
        | some callback =>
          cases coherent.on_data session callback server set
          simp [World.invoke]
      | exit exit_code signal_code =>
        refine .exit session rest exit_code signal_code server mailbox ?_
        cases signal_code with
        | none => cases taken
        | some signal_code =>
          cases taken
          cases set : session.on_exit with
          | none => simp [World.invoke]
          | some callback =>
            cases coherent.on_exit session callback server set
            simp [World.invoke]

theorem step_coherent (coherent : Coherent world) (taken : world.step event = some next) : Coherent next := by
  obtain ⟨plain, on_data, on_exit, calls, starting, ended⟩ := coherent
  cases event with
  | spawn_unix =>
    simp only [World.step] at taken
    split at taken <;> cases taken
    exact ⟨plain, on_data, on_exit, calls, starting, ended⟩
  | do_spawn pipesocket pid pty =>
    simp only [World.step] at taken
    split at taken <;> try contradiction
    next here =>
      cases taken
      rw [here.1] at calls
      refine ⟨plain, ?_, ?_, calls, fun _ => starting (by rw [here.1]; nofun), ended⟩
      · intro session callback same set
        cases same
        cases plain.1.symm.trans set
      · intro session callback same set
        cases same
        cases plain.2.symm.trans set
  | post_data data | post_exit exit_code signal_code =>
    simp only [World.step] at taken
    split at taken <;> cases taken
    refine ⟨plain, on_data, on_exit, ?_, starting, ended⟩
    rw [List.filterMap_append, calls]
    exact List.append_nil _
  | call_on_data | call_on_exit =>
    simp only [World.step] at taken
    split at taken <;> cases taken
    next here =>
      refine ⟨plain, on_data, on_exit, ?_, fun _ => starting (by rw [here]; nofun), ended⟩
      rw [List.filterMap_append, calls, here]
      rfl
  | take =>
    cases take_taken ⟨plain, on_data, on_exit, calls, starting, ended⟩ taken with
    | on_data session rest server mailbox waiting same =>
      subst same
      rw [mailbox, waiting] at calls
      refine ⟨plain, ?_, ?_, (List.cons.inj calls).2, fun _ => starting (by rw [waiting]; nofun), ended⟩
      · intro current callback same set
        cases same
        cases set
        rfl
      · intro current callback same set
        cases same
        exact on_exit session callback server set
    | on_exit session rest server mailbox waiting same =>
      subst same
      rw [mailbox, waiting] at calls
      refine ⟨plain, ?_, ?_, (List.cons.inj calls).2, fun _ => starting (by rw [waiting]; nofun), ended⟩
      · intro current callback same set
        cases same
        exact on_data session callback server set
      · intro current callback same set
        cases same
        cases set
        rfl
    | data session rest data server mailbox same =>
      subst same
      rw [mailbox] at calls
      exact ⟨plain, on_data, on_exit, calls, starting, ended⟩
    | exit session rest exit_code signal_code server mailbox same =>
      subst same
      rw [mailbox] at calls
      exact ⟨plain, on_data, on_exit, calls, starting, ended⟩
  | assign =>
    simp only [World.step] at taken
    split at taken <;> cases taken
    next here =>
      have fresh := starting (by rw [here]; nofun)
      rw [here] at calls
      exact ⟨plain, on_data, on_exit, calls, fun busy => absurd rfl busy, fun handled => absurd fresh.1 handled⟩
  | executable_exited =>
    simp only [World.step] at taken
    split at taken <;> cases taken
    next idle _ =>
      exact ⟨plain, on_data, on_exit, calls, fun busy => absurd idle busy, fun _ => rfl⟩

private theorem filterMap_post {α : Type} (view : Mail → Option α) (mailbox : List Mail) (mail : Mail) :
    (mailbox ++ [mail]).filterMap view = mailbox.filterMap view ++ (view mail).toList := by
  rw [List.filterMap_append]
  cases found : view mail <;> simp [found]

/-- Taking a message keeps the account exactly when it is passed on. -/
private theorem passed_iff {α : Type} {all front back : List α} {first : α} {dropped : Prop} [Decidable dropped]
    (total : all = front ++ first :: back) : all = (if dropped then front else front ++ [first]) ++ back ↔ ¬ dropped := by
  by_cases drop : dropped
  · rw [if_pos drop, total]
    refine iff_of_false ?_ (not_not_intro drop)
    intro same
    have lengths := congrArg List.length same
    simp at lengths
  · rw [if_neg drop, total, List.append_assoc, List.singleton_append]
    exact iff_of_true rfl drop

private theorem registered_take {session : Server.T} {message : Server.Info} {rest : List Mail}
    (server : world.server = some session) (mailbox : world.mailbox = .info message :: rest) :
    Registered world .take ↔ Heard session message := by
  simp only [Registered, server, mailbox]
  constructor
  · intro registered
    exact registered session message rest rfl rfl
  · intro registered current other tail same same'
    cases same
    cases same'
    exact registered

theorem delivered_iff_registered (coherent : Coherent world) (delivered : Delivered world)
    (taken : world.step event = some next) : Delivered next ↔ Registered world event := by
  have after := step_coherent coherent taken
  obtain ⟨data, exit, _⟩ := delivered
  cases event with
  | post_data payload =>
    simp only [World.step] at taken
    split at taken <;> cases taken
    refine iff_of_true (after.delivered ?_ ?_) trivial
    · rw [filterMap_post, data, List.append_assoc]
      rfl
    · rw [filterMap_post, exit]
      exact congrArg _ (List.append_nil _).symm
  | post_exit exit_code signal_code =>
    simp only [World.step] at taken
    split at taken <;> cases taken
    next here =>
      refine iff_of_true (after.delivered ?_ ?_) trivial
      · rw [filterMap_post, data]
        exact congrArg _ (List.append_nil _).symm
      · rw [here.2] at exit
        rw [filterMap_post, ← List.append_assoc, ← exit]
        rfl
  | call_on_data | call_on_exit =>
    simp only [World.step] at taken
    split at taken <;> cases taken
    refine iff_of_true (after.delivered ?_ ?_) trivial
    · rw [filterMap_post, data]
      exact congrArg _ (List.append_nil _).symm
    · rw [filterMap_post, exit]
      exact congrArg _ (List.append_nil _).symm
  | take =>
    cases take_taken coherent taken with
    | on_data session rest server mailbox waiting same | on_exit session rest server mailbox waiting same =>
      subst same
      rw [mailbox] at data exit
      refine iff_of_true (after.delivered data exit) ?_
      intro current message tail _ other
      cases mailbox.symm.trans other
    | data session rest payload server mailbox same =>
      subst same
      rw [mailbox] at data exit
      rw [registered_take server mailbox]
      refine Iff.trans ?_ (passed_iff data)
      exact ⟨fun delivered => delivered.data, fun data => after.delivered data exit⟩
    | exit session rest exit_code signal_code server mailbox same =>
      subst same
      rw [mailbox] at data exit
      rw [registered_take server mailbox]
      have passed : world.exits =
          world.handled ++ (if session.on_exit = none then world.notices else world.notices ++ [exit_code]) ++
            rest.filterMap exitOf ↔ session.on_exit ≠ none := by
        refine Iff.trans ?_ (passed_iff exit)
        split
        · rfl
        · rw [← List.append_assoc world.handled]
      refine Iff.trans ?_ passed
      exact ⟨fun delivered => delivered.exit, fun exit => after.delivered data exit⟩
  | executable_exited =>
    simp only [World.step] at taken
    split at taken <;> cases taken
    next idle notices =>
      refine iff_of_true (after.delivered data ?_) trivial
      rw [exit, notices]
      simp
  | _ =>
    simp only [World.step] at taken
    split at taken <;> cases taken
    exact iff_of_true (after.delivered data exit) trivial

theorem start_coherent (pack : UnixPack) (pty : Pid) (executable : String) :
    Coherent (.start pack pty executable) := by
  refine ⟨⟨rfl, rfl⟩, ?_, ?_, rfl, fun _ => ⟨rfl, rfl⟩, fun _ => rfl⟩
  · intro session callback server
    cases server
  · intro session callback server
    cases server

/-- In every run all output is broadcast once and in order, and the exit reaches the
cell, exactly when the server takes no output before `on_data` is registered and no exit
before `on_exit` is. -/
theorem delivered_iff (pack : UnixPack) (pty : Pid) (executable : String) (events : List Event) :
    Always World.step Delivered (.start pack pty executable) events ↔
      Along World.step Registered (.start pack pty executable) events := by
  apply always_iff_along Coherent
  · intro world event next coherent taken
    exact step_coherent coherent taken
  · intro world event next coherent delivered taken
    exact delivered_iff_registered coherent delivered taken
  · exact start_coherent pack pty executable
  · exact (start_coherent pack pty executable).delivered rfl rfl

/-- What `ExPTY.spawn("bash", [])` leaves for `:do_spawn`. -/
def bash : UnixPack :=
  { file := [98, 97, 115, 104], args := [], env := [], cwd := [47], cols := 80, rows := 24, ibaudrate := 38400
    obaudrate := 38400, uid := -2, gid := -2, is_utf8 := true, closeFDs := false, echo? := false, helperPath := []
    handle_flow_control := false, flow_control_pause := [0x13], flow_control_resume := [0x11]
    on_data := none, on_exit := none }

/-- A child that prints and exits before the cell makes its first call. -/
def hasty : List Event :=
  [.spawn_unix, .do_spawn 0 1 [], .post_data [97], .post_exit 0 0, .take, .take, .call_on_data, .take, .call_on_exit, .take,
    .assign]

/-- Its output is gone, and the cell shows it as started although nothing will tell
it of the exit. -/
theorem early_messages_lost :
    ∃ final, exec World.step (.start bash 0 "bash") hasty = some final ∧
      final.posted = [[97]] ∧ final.broadcasts = [] ∧
      final.assigns.started? = true ∧ final.exits = [0] ∧ final.mailbox = [] ∧ final.notices = [] ∧
      ¬ Always World.step Delivered (.start bash 0 "bash") hasty := by
  refine ⟨_, rfl, rfl, rfl, rfl, rfl, rfl, rfl, ?_⟩
  intro always
  have delivered := always.final rfl
  cases delivered.data

end ExPTY.Proofs.SmartCellDelivery
