import ExPTY.Proofs.ClosedDescriptor
import ExPTY.WriteHistory
import Mathlib.Data.List.Basic

/-! Writes of several callers to one session. Each holds the mutex for the whole of its
loop, so that what the descriptor gets is one call's data after the other's, in the order
in which they took it. Only the bytes of pause and resume come without the mutex. -/

namespace ExPTY.Proofs.WriteOrder
open ClosedDescriptor (terminal)
open NativeCalls Runs SharedDescriptor
open Termios (Header)
open Server (Binary Reply)

variable {header : Header} {history next : History header} {count : Nat → Nat} {index : Nat} {call : Call header}

/-- Where a call is, against the record and what was accepted from it. -/
def Stands (history : History header) (count : Nat → Nat) (index : Nat) : Call header → Prop
  | .entered data | .locking data => history.source index = some data ∧ index ∉ history.order
  | .looping loop | .writing loop | .unlocking loop =>
    history.source index = some loop.data ∧ loop.bytes_written + loop.bytes_to_write = loop.data.length ∧
      count index = loop.bytes_written ∧ history.world.mutex = some index ∧ history.order.getLast? = some index
  | .returned reply => ∀ data, history.source index = some data →
      count index ≤ data.length ∧ reply = if count index = data.length then .ok else .accepted (count index)
  | .ioctl _ | .tcgetattr _ | .tcsetattr _ _ | .control _ => history.source index = none

structure Serial (history : History header) (count : Nat → Nat) : Prop where
  requests : history.requests.length = history.world.calls.length
  entries : history.users.length = history.world.uses.length
  users : ∀ user ∈ history.users, user < history.requests.length
  places : ∀ index ∈ history.order, index < history.requests.length
  outside : ∀ index, index ∉ history.order → count index = 0
  nodup : history.order.Nodup
  written : history.written = history.order.flatMap (history.share count)
  calls : ∀ index call, history.world.calls[index]? = some call → Stands history count index call

/-- What another call's step leaves of the place of this one. -/
theorem Stands.keep {other : History header} {count' : Nat → Nat} (stands : Stands history count index call)
    (source : other.source index = history.source index) (counted : count' index = count index)
    (outside : index ∉ history.order → index ∉ other.order)
    (held : history.world.mutex = some index →
      other.world.mutex = some index ∧ other.order.getLast? = history.order.getLast?) :
    Stands other count' index call := by
  cases call with
  | entered data | locking data => exact ⟨source.trans stands.1, outside stands.2⟩
  | looping loop | writing loop | unlocking loop =>
    obtain ⟨same, balanced, accepted, mutex, last⟩ := stands
    obtain ⟨still, order⟩ := held mutex
    exact ⟨source.trans same, balanced, counted.trans accepted, still, order.trans last⟩
  | returned reply =>
    intro data same
    rw [counted]
    exact stands data (source.symm.trans same)
  | ioctl | tcgetattr | tcsetattr | control => exact source.trans stands

section Steps

theorem source_append {request : Server.Nif.Call} {world : World header} (bound : index < history.requests.length) :
    History.source { history with requests := history.requests ++ [request], world } index = history.source index := by
  simp only [History.source, List.getElem?_append_left bound]

/-- Only the last entry's part grows. -/
private theorem flatMap_extend {entries : List Nat} {f g : Nat → Binary} {more : Binary}
    (last : entries.getLast? = some index) (distinct : entries.Nodup) (others : ∀ other, index ≠ other → g other = f other)
    (own : g index = f index ++ more) : entries.flatMap g = entries.flatMap f ++ more := by
  obtain ⟨earlier, rfl⟩ := List.getLast?_eq_some_iff.mp last
  have once : ∀ other ∈ earlier, index ≠ other := fun other before same =>
    (List.nodup_append.mp distinct).2.2 other before index (.head _) same.symm
  have kept : earlier.flatMap g = earlier.flatMap f :=
    List.flatMap_congr fun other before => others other (once other before)
  rw [List.flatMap_append, List.flatMap_append, List.flatMap_singleton, List.flatMap_singleton, kept, own, List.append_assoc]

/-- A step of a call that writes nothing and takes no place in the order. -/
private theorem Serial.move (serial : Serial history count) (running : history.world.calls[index]? = some call)
    {after : Call header} {mutex : Option Nat}
    (held : ∀ other, index ≠ other → history.world.mutex = some other → mutex = some other)
    (stands : Stands { history with world := { history.world.setCall index after with mutex } } count index after) :
    Serial { history with world := { history.world.setCall index after with mutex } } count := by
  refine ⟨?_, serial.entries, serial.users, serial.places, serial.outside, serial.nodup, serial.written, ?_⟩
  · rw [serial.requests]
    exact (List.length_set ..).symm
  · refine Slots.forall_set running stands ?_
    intro other current different found
    exact (serial.calls other current found).keep rfl rfl id fun holds => ⟨held other different holds, rfl⟩

private theorem Serial.lock (serial : Serial history count) {data : Binary}
    (running : history.world.calls[index]? = some (.locking data)) (free : history.world.mutex = none) :
    Serial
      { history with
        order := history.order ++ [index]
        world := { history.world.setCall index (.looping (.start data)) with mutex := some index } } count := by
  obtain ⟨source, new⟩ := serial.calls index _ running
  have bound := (List.getElem?_eq_some_iff.mp running).1
  refine ⟨?_, serial.entries, serial.users, ?_, ?_, ?_, ?_, ?_⟩
  · rw [serial.requests]
    exact (List.length_set ..).symm
  · intro other member
    rcases List.mem_append.mp member with member | member
    · exact serial.places other member
    · rw [List.mem_singleton.mp member, serial.requests]
      exact bound
  · exact fun other absent => serial.outside other fun member => absent (List.mem_append_left _ member)
  · refine List.nodup_append.mpr ⟨serial.nodup, List.pairwise_singleton _ index, ?_⟩
    intro first member second last same
    rw [same, List.mem_singleton.mp last] at member
    exact new member
  · have empty : history.share count index = [] := by rw [History.share, serial.outside index new, List.take_zero]
    rw [List.flatMap_append, List.flatMap_singleton]
    refine serial.written.trans ?_
    exact ((congrArg _ empty).trans (List.append_nil _)).symm
  · refine Slots.forall_set running ?_ ?_
    · exact ⟨source, Nat.zero_add _, serial.outside index new, rfl, List.getLast?_concat⟩
    · intro other current different found
      refine (serial.calls other current found).keep rfl rfl ?_ ?_
      · intro absent member
        rcases List.mem_append.mp member with member | member
        · exact absent member
        · exact different (List.mem_singleton.mp member).symm
      · exact fun holds => nomatch free.symm.trans holds

private theorem written_append (serial : Serial history count) (after : Call header) (use : Use header) :
    History.written
      { history with
        users := history.users ++ [index]
        world := { history.world.setCall index after with uses := history.world.uses ++ [use] } } =
      history.written ++ if (history.source index).isSome then use.accepted else [] := by
  rw [History.written, List.zip_append serial.entries, List.flatMap_append]
  exact congrArg _ (List.append_nil _)

/-- A system call of the others adds nothing to what the writes have written. -/
private theorem Serial.use (serial : Serial history count) (running : history.world.calls[index]? = some call)
    {after : Call header} (use : Use header) (source : history.source index = none)
    (stands : Stands history count index after) :
    Serial
      { history with
        users := history.users ++ [index]
        world := { history.world.setCall index after with uses := history.world.uses ++ [use] } } count := by
  have bound := (List.getElem?_eq_some_iff.mp running).1
  refine ⟨?_, ?_, ?_, serial.places, serial.outside, serial.nodup, ?_, ?_⟩
  · rw [serial.requests]
    exact (List.length_set ..).symm
  · simp only [List.length_append, List.length_singleton, serial.entries]
  · intro user member
    rcases List.mem_append.mp member with member | member
    · exact serial.users user member
    · rw [List.mem_singleton.mp member, serial.requests]
      exact bound
  · rw [written_append serial, source, Option.isSome_none, if_neg Bool.false_ne_true, List.append_nil]
    exact serial.written
  · refine Slots.forall_set running (stands.keep rfl rfl id fun holds => ⟨holds, rfl⟩) ?_
    intro other current _ found
    exact (serial.calls other current found).keep rfl rfl id fun holds => ⟨holds, rfl⟩

/-- What the loop takes off the data after `::write`, whether it goes on or not. -/
private theorem after_write_stands {loop : Loop} {result : Option Nat} (within : ∀ taken ∈ result, taken ≤ loop.nbytes)
    (source : history.source index = some loop.data)
    (balanced : loop.bytes_written + loop.bytes_to_write = loop.data.length)
    (counted : count index = loop.bytes_written + result.getD 0) (mutex : history.world.mutex = some index)
    (last : history.order.getLast? = some index) : Stands history count index (after_write loop result : Call header) := by
  match result with
  | none | some 0 => exact ⟨source, balanced, counted, mutex, last⟩
  | some (taken + 1) =>
    have bound := within (taken + 1) rfl
    have asked := loop.nbytes_le.1
    have left : loop.bytes_written + (taken + 1) + (loop.bytes_to_write - (taken + 1)) = loop.data.length := by omega
    simp only [after_write]
    split
    · exact ⟨source, left, counted, mutex, last⟩
    · exact ⟨source, left, counted, mutex, last⟩

private theorem Serial.write (serial : Serial history count) {loop : Loop} {result : Option Nat}
    (running : history.world.calls[index]? = some (.writing loop)) (within : ∀ taken ∈ result, taken ≤ loop.nbytes)
    (use : Use header) (accepted : use.accepted = (loop.data.drop loop.bytes_written).take (result.getD 0)) :
    Serial
      { history with
        users := history.users ++ [index]
        world :=
          { history.world.setCall index (after_write loop result) with uses := history.world.uses ++ [use] } }
      fun other => if index = other then count index + result.getD 0 else count other := by
  obtain ⟨source, balanced, counted, mutex, last⟩ := serial.calls index _ running
  have bound := (List.getElem?_eq_some_iff.mp running).1
  have own : (loop.data.take (loop.bytes_written + result.getD 0)) =
      history.share count index ++ (loop.data.drop loop.bytes_written).take (result.getD 0) := by
    rw [History.share, source, counted]
    exact List.take_add
  refine ⟨?_, ?_, ?_, serial.places, ?_, serial.nodup, ?_, ?_⟩
  · rw [serial.requests]
    exact (List.length_set ..).symm
  · simp only [List.length_append, List.length_singleton, serial.entries]
  · intro user found
    rcases List.mem_append.mp found with found | found
    · exact serial.users user found
    · rw [List.mem_singleton.mp found, serial.requests]
      exact bound
  · intro other absent
    rw [if_neg]
    · exact serial.outside other absent
    · rintro rfl
      exact absent (List.mem_of_getLast? last)
  · rw [written_append serial, source, Option.isSome_some, if_pos rfl, serial.written, accepted]
    refine (flatMap_extend last serial.nodup ?_ ?_).symm
    · intro other different
      rw [History.share, if_neg different]
      rfl
    · rw [← own, History.share, if_pos rfl, counted]
      exact congrArg (fun held : Option Binary => (held.getD []).take _) source
  · refine Slots.forall_set running ?_ ?_
    · refine after_write_stands within source balanced ?_ mutex last
      rw [if_pos rfl, counted]
    · intro other current different found
      exact (serial.calls other current found).keep rfl (if_neg different) id fun holds => ⟨holds, rfl⟩

private theorem start_stands {request : Server.Nif.Call} {started : Call header}
    (begins : NativeCalls.start request = some started) (asked : history.requests[index]? = some request)
    (new : index ∉ history.order) : Stands history count index started := by
  cases request with
  | write pipesocket data =>
    cases begins
    unfold expty_write with_resource
    split
    · exact ⟨by rw [History.source, asked], new⟩
    next absent =>
      intro source found
      rw [History.source, asked] at found
      split at found <;> cases found
      next same => cases same; exact absurd rfl (absent _)
  | kill pipesocket signal => cases begins
  | resize pipesocket cols rows =>
    have other : history.source index = none := by rw [History.source, asked]
    cases begins
    unfold expty_resize with_resource
    split
    · split
      · exact other
      · exact fun source found => nomatch other.symm.trans found
    · exact fun source found => nomatch other.symm.trans found
  | pause pipesocket | resume pipesocket | set_echo pipesocket echo =>
    have other : history.source index = none := by rw [History.source, asked]
    cases begins
    first | unfold expty_pause | unfold expty_resume | unfold expty_set_echo
    unfold with_resource
    split
    · exact other
    · exact fun source found => nomatch other.symm.trans found

private theorem Serial.begin (serial : Serial history count) {request : Server.Nif.Call} {started : Call header}
    (begins : NativeCalls.start request = some started) :
    Serial
      { history with
        requests := history.requests ++ [request]
        world := { history.world with calls := history.world.calls ++ [started] } } count := by
  have new : history.requests.length ∉ history.order := fun member => Nat.lt_irrefl _ (serial.places _ member)
  refine ⟨?_, serial.entries, ?_, ?_, serial.outside, serial.nodup, ?_, ?_⟩
  · simp only [List.length_append, serial.requests, List.length_singleton]
  · intro user member
    exact Nat.lt_of_lt_of_le (serial.users user member) (List.length_append ▸ Nat.le_add_right ..)
  · intro other member
    exact Nat.lt_of_lt_of_le (serial.places other member) (List.length_append ▸ Nat.le_add_right ..)
  · refine Eq.trans ?_ (serial.written.trans ?_)
    · apply List.flatMap_congr
      rintro ⟨user, use⟩ member
      have bound := serial.users user (List.of_mem_zip member).1
      simp only [source_append bound]
    · apply List.flatMap_congr
      intro other member
      rw [History.share, History.share, source_append (serial.places other member)]
  · refine Slots.forall_append ?_ ?_
    · intro other current bound found
      rw [← serial.requests] at bound
      exact (serial.calls other current found).keep (source_append bound) rfl id fun holds => ⟨holds, rfl⟩
    · refine start_stands begins ?_ ?_
      · rw [← serial.requests]
        exact List.getElem?_concat_length
      · rw [← serial.requests]
        exact new

theorem Serial.step (serial : Serial history count) {event : Event header} (taken : history.step event = some next) :
    ∃ count', Serial next count' := by
  obtain ⟨world, moved, rfl⟩ := Option.map_eq_some_iff.mp taken
  cases event with
  | end_of_file | close | hangup | reopen file | release =>
    simp only [World.step] at moved
    split at moved <;> cases moved
    exact ⟨count, serial.requests, serial.entries, serial.users, serial.places, serial.outside, serial.nodup,
      serial.written, serial.calls⟩
  | call request =>
    obtain ⟨started, begins, rfl⟩ := Option.map_eq_some_iff.mp moved
    exact ⟨count, serial.begin begins⟩
  | advance index kernel =>
    obtain ⟨call, running, moved⟩ := Option.bind_eq_some_iff.mp moved
    have stands := serial.calls index call running
    simp only [History.record, running, Option.bind_some]
    cases call with
    | entered data =>
      cases moved
      refine ⟨count, serial.move running (fun _ _ holds => holds) ?_⟩
      cases history.world.fd_closed with
      | true =>
        intro source found
        have same := Option.some.inj (stands.1.symm.trans found)
        subst same
        rw [serial.outside index stands.2]
        exact ⟨Nat.zero_le _, rfl⟩
      | false => exact stands
    | locking data =>
      simp only [Call.next, Option.bind_some, World.perform] at moved
      split at moved <;> cases moved
      next free => exact ⟨count, serial.lock running free⟩
    | looping loop =>
      cases moved
      refine ⟨count, serial.move running (fun _ _ holds => holds) ?_⟩
      cases history.world.fd_closed with
      | true => exact stands
      | false => exact stands
    | writing loop =>
      simp only [Call.next, Option.bind_some, World.perform] at moved
      split at moved <;> cases moved
      next within => exact ⟨_, serial.write running within _ rfl⟩
    | unlocking loop =>
      cases moved
      obtain ⟨source, balanced, counted, mutex, last⟩ := stands
      refine ⟨count, serial.move running ?_ ?_⟩
      · intro other different holds
        exact absurd (Option.some.inj (mutex.symm.trans holds)) different
      · intro data found
        have same := Option.some.inj (source.symm.trans found)
        subst same
        rw [counted]
        exact ⟨by omega, rfl⟩
    | ioctl winp | control byte =>
      simp only [Call.next, Option.bind_some, World.perform] at moved
      split at moved <;> cases moved
      exact ⟨count, serial.use running _ stands fun data found => absurd (found.symm.trans stands) (Option.some_ne_none data)⟩
    | tcgetattr change =>
      simp only [Call.next, Option.bind_some, World.perform] at moved
      split at moved <;> cases moved
      refine ⟨count, serial.use running _ stands ?_⟩
      cases kernel.tcgetattr with
      | none => exact fun data found => absurd (found.symm.trans stands) (Option.some_ne_none data)
      | some settings => exact stands
    | tcsetattr change settings =>
      simp only [Call.next, Option.bind_some, World.perform] at moved
      split at moved <;> cases moved
      refine ⟨count, serial.use running _ stands ?_⟩
      split
      · cases change.control with
        | none => exact fun data found => absurd (found.symm.trans stands) (Option.some_ne_none data)
        | some byte => exact stands
      · exact fun data found => absurd (found.symm.trans stands) (Option.some_ne_none data)
    | returned reply => cases moved

end Steps

section Controls

/-- The byte that a request writes without the mutex. -/
def control? : Server.Nif.Call → Option UInt8
  | .pause _ => some Termios.XOFF
  | .resume _ => some Termios.XON
  | _ => none

/-- What is written is a write's data in the mutex, or the control byte of the request. -/
def Guarded (history : History header) : Event header → Prop
  | .advance index kernel => ∀ call system after, history.world.calls[index]? = some call →
      call.next = some (.system system after) →
        ((history.source index).isSome ∧ history.world.mutex = some index) ∨ accepted kernel system = [] ∨
          ∃ request byte, history.requests[index]? = some request ∧ control? request = some byte ∧
            accepted kernel system = [byte]
  | _ => True

/-- A call that has still to write a control byte will write that of its request. -/
def Asked (request : Server.Nif.Call) : Call header → Prop
  | .tcgetattr change | .tcsetattr change _ => change.control = control? request
  | .control byte => control? request = some byte
  | _ => True

def Asking (history : History header) : Prop :=
  ∀ (index : Nat) call, history.world.calls[index]? = some call → ∀ request, history.requests[index]? = some request →
    Asked request call

/-- Where an action leads to. -/
def Leads : Action header → Call header → Prop
  | .check after, call => ∃ fd_closed, call = after fd_closed
  | .lock after, call | .unlock after, call => call = after
  | .system _ after, call => ∃ kernel, call = after kernel

private theorem perform_calls {world after : World header} {kernel : Kernel header} {action : Action header}
    (taken : world.perform index kernel action = some after) :
    ∃ call, Leads action call ∧ after.calls = world.calls.set index call := by
  cases action with
  | check next =>
    cases taken
    exact ⟨_, ⟨_, rfl⟩, rfl⟩
  | unlock next =>
    cases taken
    exact ⟨_, rfl, rfl⟩
  | lock next =>
    simp only [World.perform] at taken
    split at taken <;> cases taken
    exact ⟨_, rfl, rfl⟩
  | system system next =>
    simp only [World.perform] at taken
    split at taken <;> cases taken
    exact ⟨_, ⟨_, rfl⟩, rfl⟩

private theorem asked_start {request : Server.Nif.Call} {started : Call header}
    (begins : NativeCalls.start request = some started) : Asked request started := by
  have resource (pipesocket : Server.Term) {call : Call header} (asked : Asked request call) :
      Asked request (with_resource pipesocket call) := by
    unfold with_resource
    split
    · exact asked
    · trivial
  cases request with
  | write | pause | resume | set_echo =>
    cases begins
    exact resource _ (by first | rfl | trivial)
  | kill => cases begins
  | resize pipesocket cols rows =>
    cases begins
    refine resource _ ?_
    split <;> trivial

private theorem asked_next {request : Server.Nif.Call} {after : Call header} {action : Action header}
    (asked : Asked request call) (acts : call.next = some action) (leads : Leads action after) : Asked request after := by
  cases call with
  | entered data | looping loop =>
    cases acts
    obtain ⟨fd_closed, rfl⟩ := leads
    cases fd_closed <;> trivial
  | locking data | unlocking loop =>
    cases acts
    cases leads
    trivial
  | writing loop =>
    cases acts
    obtain ⟨kernel, rfl⟩ := leads
    dsimp only [after_write]
    split
    · trivial
    · trivial
    · split <;> trivial
  | ioctl winp | control byte =>
    cases acts
    obtain ⟨kernel, rfl⟩ := leads
    trivial
  | tcgetattr change =>
    cases acts
    obtain ⟨kernel, rfl⟩ := leads
    dsimp only
    split
    · exact asked
    · trivial
  | tcsetattr change settings =>
    cases acts
    obtain ⟨kernel, rfl⟩ := leads
    dsimp only
    split
    · split
      next byte same => exact asked.symm.trans same
      next => trivial
    · trivial
  | returned reply => cases acts

theorem Asking.step (asking : Asking history) (requests : history.requests.length = history.world.calls.length)
    {event : Event header} (taken : history.step event = some next) : Asking next := by
  obtain ⟨world, moved, rfl⟩ := Option.map_eq_some_iff.mp taken
  cases event with
  | end_of_file | close | hangup | reopen file | release =>
    simp only [World.step] at moved
    split at moved <;> cases moved
    exact asking
  | call request =>
    obtain ⟨started, begins, rfl⟩ := Option.map_eq_some_iff.mp moved
    refine Slots.forall_append ?_ ?_
    · intro index call bound found other asked
      exact asking index call found other ((List.getElem?_append_left (requests ▸ bound)).symm.trans asked)
    · intro other asked
      rw [← requests] at asked
      cases List.getElem?_concat_length.symm.trans asked
      exact asked_start begins
  | advance index kernel =>
    obtain ⟨call, running, moved⟩ := Option.bind_eq_some_iff.mp moved
    obtain ⟨action, acts, moved⟩ := Option.bind_eq_some_iff.mp moved
    obtain ⟨after, leads, calls⟩ := perform_calls moved
    have recorded : (history.record (.advance index kernel)).requests = history.requests := by
      simp only [History.record]
      split <;> rfl
    simp only [Asking, calls, recorded]
    refine Slots.forall_set running ?_ fun other current _ found => asking other current found
    exact fun request asked => asked_next (asking index call running request asked) acts leads

theorem Serial.guarded (serial : Serial history count) (asking : Asking history) (event : Event header) :
    Guarded history event := by
  cases event with
  | end_of_file | close | hangup | reopen file | release | call request => trivial
  | advance index kernel =>
    intro call system after running acts
    cases call with
    | writing loop =>
      obtain ⟨source, -, -, mutex, -⟩ := serial.calls index _ running
      exact .inl ⟨by rw [source]; rfl, mutex⟩
    | ioctl winp | tcgetattr change | tcsetattr change settings =>
      cases acts
      exact .inr (.inl rfl)
    | control byte =>
      cases acts
      have bound := (List.getElem?_eq_some_iff.mp running).1
      rw [← serial.requests] at bound
      have request := List.getElem?_eq_getElem bound
      cases taken : kernel.write.getD 0 with
      | zero => exact .inr (.inl (by rw [accepted, taken]; rfl))
      | succ more =>
        refine .inr (.inr ⟨_, byte, request, asking index _ running _ request, ?_⟩)
        simp only [accepted, taken, List.drop_zero, List.take_succ_cons, List.take_nil]
    | entered data | locking data | looping loop | unlocking loop | returned reply => cases acts

end Controls

/-- The bytes that each call's answer names are the ones counted for it. -/
def Answers (history : History header) (count : Nat → Nat) : Prop :=
  ∀ index data reply, history.source index = some data → history.world.calls[index]? = some (.returned reply) →
    count index ≤ data.length ∧ reply = if count index = data.length then .ok else .accepted (count index)

/-- Nothing that has returned by now takes a later place. -/
def Precedes (now later : History header) : Prop :=
  ∃ places, later.order = now.order ++ places ∧
    ∀ index ∈ places, ∀ reply, now.world.calls[index]? ≠ some (.returned reply)

private theorem Serial.answers (serial : Serial history count) : Answers history count :=
  fun index data reply source returned => serial.calls index (.returned reply) returned data source

private theorem perform_returned {world after : World header} {kernel : Kernel header} {action : Action header}
    (running : world.calls[index]? = some call) (acts : call.next = some action)
    (taken : world.perform index kernel action = some after) {other : Nat} {reply : Reply}
    (returned : world.calls[other]? = some (.returned reply)) : after.calls[other]? = some (.returned reply) := by
  have different : index ≠ other := by
    rintro rfl
    cases running.symm.trans returned
    cases acts
  obtain ⟨_, _, calls⟩ := perform_calls taken
  rw [calls]
  exact (List.getElem?_set_ne different).trans returned

private theorem step_returned {event : Event header} (taken : history.step event = some next) {other : Nat} {reply : Reply}
    (returned : history.world.calls[other]? = some (.returned reply)) :
    next.world.calls[other]? = some (.returned reply) := by
  obtain ⟨world, moved, rfl⟩ := Option.map_eq_some_iff.mp taken
  cases event with
  | end_of_file | close | hangup | reopen file | release =>
    simp only [World.step] at moved
    split at moved <;> cases moved
    exact returned
  | call request =>
    obtain ⟨started, begins, rfl⟩ := Option.map_eq_some_iff.mp moved
    exact (List.getElem?_append_left (List.getElem?_eq_some_iff.mp returned).1).trans returned
  | advance index kernel =>
    obtain ⟨call, running, moved⟩ := Option.bind_eq_some_iff.mp moved
    obtain ⟨action, acts, moved⟩ := Option.bind_eq_some_iff.mp moved
    exact perform_returned running acts moved returned

private theorem step_precedes {event : Event header} (taken : history.step event = some next) : Precedes history next := by
  have none_new : Precedes history history := ⟨[], (List.append_nil _).symm, nofun⟩
  obtain ⟨world, moved, rfl⟩ := Option.map_eq_some_iff.mp taken
  cases event with
  | end_of_file | close | hangup | reopen file | release | call request => exact none_new
  | advance index kernel =>
    obtain ⟨call, running, moved⟩ := Option.bind_eq_some_iff.mp moved
    obtain ⟨action, acts, moved⟩ := Option.bind_eq_some_iff.mp moved
    simp only [History.record, running, Option.bind_some, acts]
    cases action with
    | check | unlock | system => exact none_new
    | lock =>
      refine ⟨[index], rfl, ?_⟩
      intro other member reply returned
      cases List.mem_singleton.mp member
      cases running.symm.trans returned
      cases acts

private theorem run_precedes (events : List (Event header)) {final : History header}
    (ran : exec History.step history events = some final) : Precedes history final := by
  induction events generalizing history with
  | nil =>
    cases ran
    exact ⟨[], (List.append_nil _).symm, nofun⟩
  | cons event rest ih =>
    obtain ⟨next, taken, ran⟩ := Option.bind_eq_some_iff.mp ran
    obtain ⟨first, order, unfinished⟩ := step_precedes taken
    obtain ⟨places, later, remaining⟩ := ih ran
    refine ⟨first ++ places, by rw [later, order, List.append_assoc], ?_⟩
    intro index member reply returned
    rcases List.mem_append.mp member with member | member
    · exact unfinished index member reply returned
    · exact remaining index member reply (step_returned taken returned)

/-- Every run of the descriptor has a record. -/
private theorem recorded (history : History header) {events : List (Event header)} {world : World header}
    (ran : exec World.step history.world events = some world) :
    ∃ final, exec History.step history events = some final ∧ final.world = world := by
  induction events generalizing history with
  | nil =>
    cases ran
    exact ⟨history, rfl, rfl⟩
  | cons event rest ih =>
    obtain ⟨moved, taken, ran⟩ := Option.bind_eq_some_iff.mp ran
    have stepped : history.step event = some { history.record event with world := moved } := by
      rw [History.step, taken, Option.map_some]
    obtain ⟨final, reached, same⟩ := ih { history.record event with world := moved } ran
    exact ⟨final, (exec_cons _ rest stepped).trans reached, same⟩

/-- In every run the bytes that the writes got accepted are a part of each call's data,
from its beginning, one call after the other. The answers say how long each part is, a
call that returned before another began is in front of it, and no bytes come without the
mutex but the control bytes of pause and resume. -/
theorem writes_serial (events : List (Event header)) (world : World header)
    (ran : exec World.step {} events = some world) :
    ∃ (history : History header) (count : Nat → Nat),
      exec History.step {} events = some history ∧ history.world = world ∧ history.order.Nodup ∧
        history.written = history.order.flatMap (history.share count) ∧
        (∀ index, index ∉ history.order → count index = 0) ∧ Answers history count ∧
        (∀ taken rest middle, events = taken ++ rest → exec History.step {} taken = some middle →
          Precedes middle history) ∧
        Along History.step Guarded {} events := by
  obtain ⟨history, reached, same⟩ := recorded {} ran
  have start : ∃ count, Serial ({} : History header) count :=
    ⟨fun _ => 0, rfl, rfl, nofun, nofun, fun _ _ => rfl, List.Pairwise.nil, rfl, nofun⟩
  have always : Always History.step (fun history => (∃ count, Serial history count) ∧ Asking history) {} events := by
    refine Always.of_invariant ?_ events ⟨start, nofun⟩
    exact fun history event next ⟨⟨count, serial⟩, asking⟩ taken => ⟨serial.step taken, asking.step serial.requests taken⟩
  obtain ⟨⟨count, serial⟩, -⟩ := always.final reached
  refine ⟨history, count, reached, same, serial.nodup, serial.written, serial.outside, serial.answers, ?_, ?_⟩
  · intro taken rest middle split arrived
    apply run_precedes rest
    rw [split, exec_append, arrived] at reached
    exact reached
  · intro taken event rest state next split arrived _
    obtain ⟨⟨count, serial⟩, asking⟩ := always taken (event :: rest) state split arrived
    exact serial.guarded asking event

/-- Two writes and a pause, of which the second write waits and the pause does not. -/
def threeCallers : List (Event Header.linux) :=
  [.call (.write (.reference 0) [97, 98]), .call (.write (.reference 0) [99]), .call (.pause (.reference 0)),
    .advance 0 terminal, .advance 0 terminal, .advance 0 terminal, .advance 0 terminal, .advance 1 terminal,
    .advance 2 terminal, .advance 2 terminal, .advance 2 terminal, .advance 0 terminal, .advance 0 terminal,
    .advance 0 terminal, .advance 1 terminal, .advance 1 terminal, .advance 1 terminal, .advance 1 terminal]

theorem three_callers_serial :
    ∃ (history : History Header.linux) (count : Nat → Nat), exec History.step {} threeCallers = some history ∧
      history.order = [0, 1] ∧ history.users = [0, 2, 2, 2, 0, 1] ∧
      history.written = history.order.flatMap (history.share count) ∧ history.written = [97, 98, 99] := by
  obtain ⟨history, count, reached, _, _, written, _⟩ := writes_serial threeCallers _ rfl
  cases reached
  exact ⟨_, count, rfl, rfl, rfl, written, rfl⟩

end ExPTY.Proofs.WriteOrder
