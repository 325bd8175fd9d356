import ExPTY.OutputPath
import ExPTY.Proofs.KeyboardPath
import ExPTY.Proofs.SmartCellDelivery

/-! What the page's terminal shows of what a session has printed. The stages are queues
one behind the other, so the page gets the bytes once and in order, and the only ones
missing are those that the server took while it had no callback. -/

namespace ExPTY.Proofs.ScreenOutput
open Runs OutputPath SmartCellDelivery SmartCellStart
open ReaderThread (Allocator Thread Turn bytes_read buffer buf_size)
open Server (Binary UnixPack)

/-- All that the reads of the thread have returned. -/
def received (thread : Thread) : Binary := (thread.reads.filterMap id).flatten

def underway (path : Path) : Binary := (path.channel.map fun data => (Base64.decode data).getD []).flatten

def waiting (cell : SmartCellStart.World) : Binary := (cell.mailbox.filterMap dataOf).flatten

/-- Every byte is dropped, on the screen, on its way to the page or in the mailbox, in this order. -/
def Accounted (path : Path) (dropped : Binary) : Prop :=
  received path.thread = dropped ++ path.screen ++ underway path ++ waiting path.cell

/-- The server has been given the callback for output. -/
def Listening (cell : SmartCellStart.World) : Prop := ∃ session, cell.server = some session ∧ session.on_data ≠ none

structure Sound (path : Path) : Prop where
  coherent : Coherent path.cell
  fresh : path.cell.cell = .spawning → path.cell.server = none
  silent : ¬ Listening path.cell → path.screen = [] ∧ path.channel = []
  channel : ∀ data ∈ path.channel, ∃ bytes, data = Base64.encode bytes

/-- What a step does to the account. After the registration it drops nothing. -/
structure Keeps (before after : Path) : Prop where
  sound : Sound after
  accounted : ∀ dropped, Accounted before dropped →
    ∃ dropped', Accounted after dropped' ∧ (Listening before.cell → dropped' = dropped)
  listening : Listening before.cell → Listening after.cell

section Reader
variable {vm : Allocator} {thread next : Thread}

private theorem take_sends (read : Option Binary) (bounded : ∀ bytes, read = some bytes → bytes.length ≤ buf_size) :
    ∃ messages, (thread.take vm read).sent = thread.sent ++ messages ∧
      received (thread.take vm read) = received thread ++ messages.flatten := by
  cases read with
  | none =>
    have beyond : ¬ bytes_read none ≤ buf_size := by decide
    have same : ∀ control indices sizes sent, received ⟨control, indices, thread.reads ++ [none], sizes, sent⟩ =
        received thread ++ [] := by
      intro control indices sizes sent
      simp [received]
    simp only [Thread.take, if_neg beyond]
    split
    · exact ⟨[], (List.append_nil _).symm, same _ _ _ _⟩
    · split
      · exact ⟨[], (List.append_nil _).symm, same _ _ _ _⟩
      · exact ⟨[], (List.append_nil _).symm, same _ _ _ _⟩
  | some bytes =>
    by_cases empty : bytes.length = 0
    · obtain rfl := List.length_eq_zero_iff.mp empty
      exact ⟨[], (List.append_nil _).symm, by simp [received, Thread.take, bytes_read]⟩
    · have allocated := vm.small bytes.length (Nat.pos_of_ne_zero empty) (bounded bytes rfl)
      have filled : (buffer (some bytes)).take bytes.length = bytes := List.take_left
      refine ⟨[bytes], ?_, ?_⟩
      · simp only [Thread.take, bytes_read, if_neg empty, allocated, if_true, if_pos (bounded bytes rfl), filled]
      · simp only [Thread.take, bytes_read, if_neg empty, allocated, if_true, if_pos (bounded bytes rfl), filled, received]
        simp

theorem step_sends {fd : Nat} {turn : Turn} (taken : thread.step vm fd turn = some next) :
    ∃ messages, next.sent = thread.sent ++ messages ∧ received next = received thread ++ messages.flatten := by
  unfold Thread.step at taken
  split at taken
  case isFalse => cases taken
  simp only [] at taken
  split at taken
  · split at taken
    · cases taken
      exact take_sends turn.read turn.bounded
    · cases taken
      exact take_sends turn.read turn.bounded
    · cases taken
      exact ⟨[], (List.append_nil _).symm, (List.append_nil _).symm⟩
    · cases taken
      exact ⟨[], (List.append_nil _).symm, (List.append_nil _).symm⟩
  · cases taken
    exact ⟨[], (List.append_nil _).symm, (List.append_nil _).symm⟩

end Reader

section Cell
variable {cell next : SmartCellStart.World}

private theorem post_all {messages : List Binary} (coherent : Coherent cell)
    (posted : Path.post cell messages = some next) :
    Coherent next ∧
      ∃ posted', next =
        { cell with mailbox := cell.mailbox ++ messages.map (fun data => .info (.data data)), posted := posted' } := by
  induction messages generalizing cell with
  | nil =>
    obtain rfl : cell = next := Option.some.inj posted
    exact ⟨coherent, cell.posted, by rw [List.map_nil, List.append_nil]⟩
  | cons data rest ih =>
    rw [Path.post, List.foldlM_cons] at posted
    obtain ⟨middle, taken, posted⟩ := Option.bind_eq_some_iff.mp posted
    have later := ih (step_coherent coherent taken) posted
    simp only [World.step] at taken
    split at taken <;> cases taken
    obtain ⟨coherent, posted', same⟩ := later
    exact ⟨coherent, posted', by simp [same]⟩

private theorem waiting_post (cell : SmartCellStart.World) (messages : List Binary) :
    ((cell.mailbox ++ messages.map fun data => Mail.info (.data data)).filterMap dataOf).flatten =
      waiting cell ++ messages.flatten := by
  have each : (messages.map fun data => Mail.info (.data data)).filterMap dataOf = messages := by
    rw [List.filterMap_map]
    exact List.filterMap_some
  rw [List.filterMap_append, List.flatten_append, each]
  rfl

/-- What a step of the cell or the server has broadcast, and what it has dropped instead. -/
structure Passed (cell next : SmartCellStart.World) (sent dropped : List Binary) : Prop where
  broadcasts : next.broadcasts = cell.broadcasts ++ sent
  waiting : waiting cell = sent.flatten ++ dropped.flatten ++ waiting next
  speaks : sent ≠ [] → Listening cell
  listening : Listening cell → dropped = [] ∧ Listening next
  fresh : next.cell = .spawning → next.server = none

private theorem quiet (broadcasts : next.broadcasts = cell.broadcasts) (waits : waiting next = waiting cell)
    (server : next.server = cell.server) (fresh : next.cell = .spawning → next.server = none) :
    Passed cell next [] [] := by
  refine ⟨broadcasts.trans (List.append_nil _).symm, waits.symm, absurd rfl, ?_, fresh⟩
  intro listening
  rw [Listening, server]
  exact ⟨rfl, listening⟩

theorem step_passed (coherent : Coherent cell) (fresh : cell.cell = .spawning → cell.server = none)
    {event : SmartCellStart.Event} (other : ∀ data, event ≠ .post_data data) (taken : cell.step event = some next) :
    ∃ sent dropped, Passed cell next sent dropped := by
  cases event with
  | post_data data => exact absurd rfl (other data)
  | spawn_unix =>
    simp only [World.step] at taken
    split at taken <;> cases taken
    exact ⟨[], [], quiet rfl rfl rfl fresh⟩
  | do_spawn pipesocket pid pty =>
    simp only [World.step] at taken
    split at taken <;> try contradiction
    next here =>
      cases taken
      refine ⟨[], [], (List.append_nil _).symm, rfl, absurd rfl, ?_, fun same => by cases same⟩
      rintro ⟨session, server, set⟩
      cases (fresh here.1).symm.trans server
  | post_exit exit_code signal_code =>
    simp only [World.step] at taken
    split at taken <;> cases taken
    refine ⟨[], [], quiet rfl ?_ rfl fresh⟩
    simp [waiting, dataOf]
  | call_on_data | call_on_exit =>
    simp only [World.step] at taken
    split at taken <;> cases taken
    refine ⟨[], [], quiet rfl ?_ rfl fun same => by cases same⟩
    simp [waiting, dataOf]
  | take =>
    cases take_taken coherent taken with
    | on_data session rest server mailbox waits same =>
      subst same
      refine ⟨[], [], (List.append_nil _).symm, ?_, absurd rfl, ?_, fun same => by cases same⟩
      · rw [waiting, mailbox]
        rfl
      · exact fun _ => ⟨rfl, _, rfl, Option.some_ne_none _⟩
    | on_exit session rest server mailbox waits same =>
      subst same
      refine ⟨[], [], (List.append_nil _).symm, ?_, absurd rfl, ?_, fun same => by cases same⟩
      · rw [waiting, mailbox]
        rfl
      · rintro ⟨current, held, set⟩
        cases server.symm.trans held
        exact ⟨rfl, _, rfl, set⟩
    | data session rest data server mailbox same =>
      subst same
      cases set : session.on_data with
      | none =>
        refine ⟨[], [data], by simp, ?_, absurd rfl, ?_, fresh⟩
        · rw [waiting, mailbox]
          simp [waiting, dataOf]
        · rintro ⟨current, held, listens⟩
          cases server.symm.trans held
          exact absurd set listens
      | some callback =>
        refine ⟨[data], [], by simp, ?_, fun _ => ⟨session, server, by rw [set]; exact Option.some_ne_none _⟩, ?_, fresh⟩
        · rw [waiting, mailbox]
          simp [waiting, dataOf]
        · exact fun listening => ⟨rfl, listening⟩
    | exit session rest exit_code signal_code server mailbox same =>
      subst same
      refine ⟨[], [], quiet rfl ?_ rfl fresh⟩
      rw [waiting, waiting, mailbox]
      rfl
  | assign =>
    simp only [World.step] at taken
    split at taken <;> cases taken
    exact ⟨[], [], quiet rfl rfl rfl fun same => by cases same⟩
  | executable_exited =>
    simp only [World.step] at taken
    split at taken <;> cases taken
    exact ⟨[], [], quiet rfl rfl rfl fresh⟩

end Cell

section Steps
variable {vm : Allocator} {fd : Nat} {path next : Path}

private theorem turn_keeps (sound : Sound path) {turn : Turn} (taken : path.step vm fd (.turn turn) = some next) :
    Keeps path next := by
  simp only [Path.step, Option.ite_none_right_eq_some] at taken
  obtain ⟨_, taken⟩ := taken
  obtain ⟨thread, turned, taken⟩ := Option.bind_eq_some_iff.mp taken
  obtain ⟨cell, posted, rfl⟩ := Option.map_eq_some_iff.mp taken
  obtain ⟨messages, sent, reads⟩ := step_sends turned
  rw [sent, List.drop_left] at posted
  obtain ⟨coherent, posted', rfl⟩ := post_all sound.coherent posted
  refine ⟨⟨coherent, sound.fresh, sound.silent, sound.channel⟩, ?_, id⟩
  intro dropped accounted
  refine ⟨dropped, ?_, fun _ => rfl⟩
  have waits := waiting_post path.cell messages
  rw [Accounted] at accounted ⊢
  rw [waiting, waits, ← List.append_assoc, reads, accounted]
  rfl

private theorem underway_broadcast (path : Path) (sent : List Binary) :
    ((path.channel ++ sent.map Base64.encode).map fun data => (Base64.decode data).getD []).flatten =
      underway path ++ sent.flatten := by
  have each : (sent.map Base64.encode).map (fun data => (Base64.decode data).getD []) = sent := by
    simp [Base64.decode_encode, Function.comp_def]
  rw [List.map_append, List.flatten_append, each]
  rfl

private theorem cell_keeps (sound : Sound path) {event : SmartCellStart.Event} (other : ∀ data, event ≠ .post_data data)
    {cell : SmartCellStart.World} (taken : path.cell.step event = some cell) : Keeps path (path.broadcast cell) := by
  obtain ⟨sent, dropped, passed⟩ := step_passed sound.coherent sound.fresh other taken
  have fresh : cell.broadcasts.drop path.cell.broadcasts.length = sent := by rw [passed.broadcasts, List.drop_left]
  refine ⟨⟨step_coherent sound.coherent taken, passed.fresh, ?_, ?_⟩, ?_, fun listening => (passed.listening listening).2⟩
  · intro deaf
    have before : ¬ Listening path.cell := fun listening => deaf (passed.listening listening).2
    have nothing : sent = [] := Decidable.of_not_not fun speaks => before (passed.speaks speaks)
    obtain ⟨screen, channel⟩ := sound.silent before
    refine ⟨screen, ?_⟩
    simp only [Path.broadcast, fresh, nothing, channel, List.map_nil, List.append_nil]
  · intro data member
    simp only [Path.broadcast, fresh] at member
    rcases List.mem_append.mp member with member | member
    · exact sound.channel data member
    · obtain ⟨bytes, _, same⟩ := List.mem_map.mp member
      exact ⟨bytes, same.symm⟩
  · intro before accounted
    rw [Accounted, passed.waiting] at accounted
    refine ⟨before ++ dropped.flatten, ?_, ?_⟩
    · rw [Accounted, underway]
      simp only [Path.broadcast, fresh]
      rw [underway_broadcast, accounted]
      by_cases listening : Listening path.cell
      · rw [(passed.listening listening).1]
        simp only [List.flatten_nil, List.append_nil, List.append_assoc]
      · obtain ⟨screen, channel⟩ := sound.silent listening
        have nothing : sent = [] := Decidable.of_not_not fun speaks => listening (passed.speaks speaks)
        rw [nothing, screen, underway, channel]
        simp only [List.map_nil, List.flatten_nil, List.append_nil, List.nil_append, List.append_assoc]
    · intro listening
      rw [(passed.listening listening).1, List.flatten_nil, List.append_nil]

private theorem page_keeps (sound : Sound path) (taken : path.step vm fd .page = some next) : Keeps path next := by
  simp only [Path.step] at taken
  split at taken <;> cases taken
  next data rest channel =>
    obtain ⟨bytes, rfl⟩ := sound.channel data (by rw [channel]; exact .head _)
    obtain ⟨units, decoded, same⟩ := Option.map_eq_some_iff.mp (KeyboardPath.shown_exact bytes)
    have listening : Listening path.cell := by
      apply Classical.byContradiction
      intro deaf
      cases channel.symm.trans (sound.silent deaf).2
    have shown : path.show_data (Base64.encode bytes) = { path with screen := path.screen ++ bytes } := by
      rw [Path.show_data, decoded, ← same]
    rw [shown]
    refine ⟨⟨sound.coherent, sound.fresh, absurd listening, ?_⟩, ?_, id⟩
    · intro data member
      exact sound.channel data (by rw [channel]; exact .tail _ member)
    · intro dropped accounted
      refine ⟨dropped, ?_, fun _ => rfl⟩
      rw [Accounted, underway, channel, List.map_cons, List.flatten_cons, Base64.decode_encode, Option.getD_some] at accounted
      rw [Accounted, underway, accounted]
      simp only [List.append_assoc]

theorem step_keeps (sound : Sound path) {event : OutputPath.Event} (taken : path.step vm fd event = some next) :
    Keeps path next := by
  cases event with
  | turn turn => exact turn_keeps sound taken
  | page => exact page_keeps sound taken
  | cell event =>
    by_cases posts : ∃ data, event = .post_data data
    · obtain ⟨data, rfl⟩ := posts
      cases taken
    · have other : ∀ data, event ≠ .post_data data := fun data same => posts ⟨data, same⟩
      have stepped : path.step vm fd (.cell event) = (path.cell.step event).map path.broadcast := by
        cases event with
        | post_data data => exact absurd rfl (other data)
        | _ => rfl
      obtain ⟨cell, moved, rfl⟩ := Option.map_eq_some_iff.mp (stepped.symm.trans taken)
      exact cell_keeps sound other moved

theorem run_keeps {events : List OutputPath.Event} (sound : Sound path)
    (ran : exec (Path.step vm fd) path events = some next) : Keeps path next := by
  induction events generalizing path with
  | nil =>
    cases ran
    exact ⟨sound, fun dropped accounted => ⟨dropped, accounted, fun _ => rfl⟩, id⟩
  | cons event rest ih =>
    obtain ⟨middle, taken, ran⟩ := Option.bind_eq_some_iff.mp ran
    have first := step_keeps sound taken
    have later := ih first.sound ran
    refine ⟨later.sound, ?_, fun listening => later.listening (first.listening listening)⟩
    intro dropped accounted
    obtain ⟨between, accounted, same⟩ := first.accounted dropped accounted
    obtain ⟨final, accounted, same'⟩ := later.accounted between accounted
    exact ⟨final, accounted, fun listening => (same' (first.listening listening)).trans (same listening)⟩

end Steps

theorem start_sound (pack : UnixPack) (pty : SmartCell.Pid) (executable : String) : Sound (.start pack pty executable) :=
  ⟨start_coherent pack pty executable, fun _ => rfl, fun _ => ⟨rfl, rfl⟩, nofun⟩

/-- In every run the bytes that the reads returned are those that were dropped, those on
the screen, those on their way to the page and those in the mailbox, in this order. What
is dropped stays the same from any state on in which the callback is registered. -/
theorem output_in_order (vm : Allocator) (fd : Nat) (pack : UnixPack) (pty : SmartCell.Pid) (executable : String)
    (events : List OutputPath.Event) (final : Path)
    (ran : exec (Path.step vm fd) (.start pack pty executable) events = some final) :
    (∃ dropped, Accounted final dropped) ∧
      ∀ taken rest middle, events = taken ++ rest → exec (Path.step vm fd) (.start pack pty executable) taken = some middle →
        Listening middle.cell → ∃ dropped, Accounted middle dropped ∧ Accounted final dropped := by
  have sound := start_sound pack pty executable
  have empty : Accounted (.start pack pty executable) [] := rfl
  constructor
  · obtain ⟨dropped, accounted, _⟩ := (run_keeps sound ran).accounted [] empty
    exact ⟨dropped, accounted⟩
  · intro taken rest middle split arrived listening
    have before := run_keeps sound arrived
    obtain ⟨dropped, accounted, _⟩ := before.accounted [] empty
    rw [split, exec_append, arrived] at ran
    obtain ⟨later, accounted', same⟩ := (run_keeps before.sound ran).accounted dropped accounted
    rw [same listening] at accounted'
    exact ⟨dropped, accounted, accounted'⟩

def roomy : Allocator := ⟨fun _ => true, fun _ _ _ => rfl⟩

def reading (byte : UInt8) : Turn := { select := .ready, read := some [byte], bounded := by simp [buf_size] }

/-- One byte that comes too early, one that is shown, and one that is still in the mailbox. -/
def threeBytes : List OutputPath.Event :=
  [.cell .spawn_unix, .turn (reading 97), .cell (.do_spawn 0 1 []), .cell .take, .cell .call_on_data, .cell .take,
    .turn (reading 98), .turn (reading 99), .cell .take, .page]

theorem three_bytes_accounted :
    ∃ final, exec (Path.step roomy 5) (.start bash 0 "bash") threeBytes = some final ∧ final.screen = [98] ∧
      received final.thread = [97, 98, 99] ∧ ∃ dropped, Accounted final dropped := by
  refine ⟨_, rfl, rfl, rfl, ?_⟩
  exact (output_in_order roomy 5 bash 0 "bash" threeBytes _ rfl).1

end ExPTY.Proofs.ScreenOutput
