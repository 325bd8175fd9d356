import ExPTY.SharedDescriptor
import ExPTY.Slots

/-! Which file the native calls use. A write that finds the descriptor open may still
come late, and the other calls do not look at all. The reader sets `fd_closed` before
it closes, which is what makes the check of a later write good. -/

namespace ExPTY.Proofs.ClosedDescriptor
open Runs NativeCalls SharedDescriptor
open Termios (Header)

variable {header : Header}

/-- Every system call on the session's descriptor number reached the session's master. -/
def Own (world : World header) : Prop := ∀ use ∈ world.uses, use.file = .master

/-- The next thing the call does is a system call, whatever the reader does before. -/
def committed : Call header → Bool
  | .writing _ | .ioctl _ | .tcgetattr _ | .tcsetattr _ _ | .control _ => true
  | _ => false

/-- The reader closes the descriptor while no call is committed, and a call that starts
after that begins by looking at `fd_closed`. -/
def InTime (world : World header) : Event header → Prop
  | .close => ∀ call ∈ world.calls, committed call = false
  | .call call => world.file ≠ .master → ∀ started : Call header, NativeCalls.start call = some started →
      committed started = false
  | _ => True

structure Sound (world : World header) : Prop where
  own : Own world
  closing : world.reader = .fd_closed → world.fd_closed = true
  flagged : world.file ≠ .master → world.fd_closed = true
  idle : world.file ≠ .master → ∀ call ∈ world.calls, committed call = false

/-- Where `fd_closed` is set, a call that is not committed never becomes so. -/
def Harmless : Action header → Prop
  | .check after => committed (after true) = false
  | .lock after | .unlock after => committed after = false
  | .system _ _ => False

theorem harmless_next {call : Call header} {action : Action header} (idle : committed call = false)
    (next : call.next = some action) : Harmless action := by
  cases call with
  | entered | looping => cases next; rfl
  | locking | unlocking => cases next; rfl
  | returned => cases next
  | writing | ioctl | tcgetattr | tcsetattr | control => cases idle

theorem committed_next {call : Call header} (busy : committed call = true) :
    ∃ system after, call.next = some (.system system after) := by
  cases call with
  | entered | locking | looping | unlocking | returned => cases busy
  | writing | ioctl | tcgetattr | tcsetattr | control => exact ⟨_, _, rfl⟩

section Steps
variable {world next : World header} {index : Nat}

private theorem idle_set {calls : List (Call header)} (idle : ∀ call ∈ calls, committed call = false) {after : Call header}
    (quiet : committed after = false) : ∀ call ∈ calls.set index after, committed call = false := by
  intro call member
  rcases List.mem_or_eq_of_mem_set member with member | rfl
  · exact idle call member
  · exact quiet

theorem Sound.perform (sound : Sound world) {call : Call header} (running : world.calls[index]? = some call)
    {action : Action header} (acts : call.next = some action) {kernel : Kernel header}
    (taken : world.perform index kernel action = some next) : Sound next := by
  have harmless : world.file ≠ .master → Harmless action := fun foreign =>
    harmless_next (sound.idle foreign call (List.mem_of_getElem? running)) acts
  cases action with
  | check after =>
    cases taken
    refine ⟨sound.own, sound.closing, sound.flagged, fun foreign => idle_set (sound.idle foreign) ?_⟩
    rw [sound.flagged foreign]
    exact harmless foreign
  | lock after =>
    simp only [World.perform] at taken
    split at taken <;> cases taken
    exact ⟨sound.own, sound.closing, sound.flagged, fun foreign => idle_set (sound.idle foreign) (harmless foreign)⟩
  | unlock after =>
    cases taken
    exact ⟨sound.own, sound.closing, sound.flagged, fun foreign => idle_set (sound.idle foreign) (harmless foreign)⟩
  | system system after =>
    simp only [World.perform] at taken
    split at taken <;> cases taken
    refine ⟨?_, sound.closing, sound.flagged, fun foreign => (harmless foreign).elim⟩
    intro use member
    rcases List.mem_append.mp member with member | member
    · exact sound.own use member
    · cases List.mem_singleton.mp member
      exact Decidable.of_not_not fun foreign => (harmless foreign).elim

theorem Sound.step (sound : Sound world) {event : Event header} (inTime : InTime world event)
    (taken : world.step event = some next) : Sound next := by
  cases event with
  | end_of_file =>
    simp only [World.step] at taken
    split at taken <;> cases taken
    exact ⟨sound.own, fun _ => rfl, fun _ => rfl, sound.idle⟩
  | close =>
    simp only [World.step] at taken
    split at taken <;> cases taken
    next closing => exact ⟨sound.own, (nomatch ·), fun _ => sound.closing closing, fun _ => inTime⟩
  | hangup =>
    simp only [World.step] at taken
    split at taken <;> cases taken
    exact ⟨sound.own, (nomatch ·), sound.flagged, sound.idle⟩
  | reopen file =>
    simp only [World.step] at taken
    split at taken <;> cases taken
    next closed =>
    have foreign : world.file ≠ .master := by rw [closed]; nofun
    exact ⟨sound.own, sound.closing, fun _ => sound.flagged foreign, fun _ => sound.idle foreign⟩
  | release =>
    simp only [World.step] at taken
    split at taken <;> cases taken
    next file reopened =>
    have foreign : world.file ≠ .master := by rw [reopened]; nofun
    exact ⟨sound.own, sound.closing, fun _ => sound.flagged foreign, fun _ => sound.idle foreign⟩
  | call call =>
    obtain ⟨started, begins, rfl⟩ := Option.map_eq_some_iff.mp taken
    refine ⟨sound.own, sound.closing, sound.flagged, ?_⟩
    intro foreign other member
    rcases List.mem_append.mp member with member | member
    · exact sound.idle foreign other member
    · rw [List.mem_singleton.mp member]
      exact inTime foreign started begins
  | advance index kernel =>
    obtain ⟨call, running, taken⟩ := Option.bind_eq_some_iff.mp taken
    obtain ⟨action, acts, taken⟩ := Option.bind_eq_some_iff.mp taken
    exact sound.perform running acts taken

end Steps

def refusing : Kernel header := { write := none, ioctl := none, tcgetattr := none, tcsetattr := false }

theorem bounded_refusing (call : Syscall header) : Bounded refusing call := by
  cases call with
  | write data offset nbytes => exact nofun
  | ioctl | tcgetattr | tcsetattr => trivial

/-- A committed call that comes after the close uses the number all the same. -/
theorem strays {world : World header} {index : Nat} {call : Call header} (running : world.calls[index]? = some call)
    (busy : committed call = true) (foreign : world.file ≠ .master) :
    ∃ next, world.step (.advance index refusing) = some next ∧ ¬ Own next := by
  obtain ⟨system, after, acts⟩ := committed_next busy
  have stepped : world.step (.advance index refusing) = world.perform index refusing (.system system after) := by
    simp only [World.step, running, Option.bind_some, acts]
  refine ⟨_, stepped.trans (if_pos (bounded_refusing system)), ?_⟩
  exact fun own => foreign (own _ (List.mem_append_right _ (.head _)))

theorem late_strays {world next : World header} {event : Event header} (taken : world.step event = some next)
    (late : ¬ InTime world event) :
    ∃ index after, next.step (.advance index refusing) = some after ∧ ¬ Own after := by
  cases event with
  | close =>
    simp only [World.step] at taken
    split at taken <;> cases taken
    simp only [InTime, Classical.not_forall, Bool.not_eq_false] at late
    obtain ⟨call, member, busy⟩ := late
    obtain ⟨index, running⟩ := List.mem_iff_getElem?.mp member
    exact ⟨index, strays running busy nofun⟩
  | call call =>
    obtain ⟨started, begins, rfl⟩ := Option.map_eq_some_iff.mp taken
    simp only [InTime, begins, Option.some.injEq, forall_eq', Classical.not_forall, Bool.not_eq_false] at late
    obtain ⟨foreign, busy⟩ := late
    exact ⟨world.calls.length, strays (List.getElem?_concat_length) busy foreign⟩
  | end_of_file | hangup | reopen | release | advance => exact absurd trivial late

/-- In every run whose close and whose late starts are in time, no call uses the number
once it is not the master's; and each step that is not in time can lead to such a use. -/
theorem own_if_inTime :
    (∀ events : List (Event header), Along World.step InTime {} events → Always World.step Own {} events) ∧
      ∀ (events : List (Event header)) (event : Event header) (state next : World header),
        exec World.step {} events = some state → state.step event = some next → ¬ InTime state event →
          ∃ index, ¬ Always World.step Own {} (events ++ [event, .advance index refusing]) := by
  constructor
  · intro events inTime
    have start : Sound ({} : World header) := ⟨nofun, nofun, fun foreign => absurd rfl foreign, nofun⟩
    have sound : Always World.step Sound {} events := by
      refine Always.of_along ?_ start inTime
      exact fun world event next sound inTime taken => sound.step inTime taken
    exact sound.mono fun _ => Sound.own
  · intro events event state next reached taken late
    obtain ⟨index, after, strayed, foreign⟩ := late_strays taken late
    refine ⟨index, fun always => foreign (always.final ?_)⟩
    rw [exec_append, reached, Option.bind_some, exec_cons World.step _ taken, exec_cons World.step _ strayed]
    rfl

open Termios in
def terminal : Kernel Header.linux :=
  { write := some 1, ioctl := none, tcgetattr := some (Header.linux.spawned true false 38400 38400), tcsetattr := true }

def endDuringWrite : List (Event Header.linux) :=
  [.call (.write (.reference 0) [97]), .advance 0 terminal, .end_of_file, .advance 0 terminal, .advance 0 terminal,
    .close, .advance 0 terminal, .hangup, .reopen 1, .call (.write (.reference 0) [98]), .advance 1 terminal]

theorem end_during_write_own : Always World.step Own {} endDuringWrite := by
  apply own_if_inTime.1
  refine .cons rfl (fun own => absurd rfl own) <| .cons rfl trivial <| .cons rfl trivial <| .cons rfl trivial <|
    .cons rfl trivial <| .cons rfl ?_ <| .cons rfl trivial <| .cons rfl trivial <| .cons rfl trivial <|
    .cons rfl ?_ <| .cons rfl trivial along_nil
  · intro call member
    cases List.mem_singleton.mp member
    rfl
  · intro _ started begins
    cases begins
    rfl

/-- `ExPTY.pause` after the end of the session, when another terminal has its number. -/
def latePause : List (Event Header.linux) :=
  [.end_of_file, .close, .hangup, .reopen 1, .call (.pause (.reference 0)), .advance 0 terminal, .advance 0 terminal,
    .advance 0 terminal]

theorem late_pause_reaches_stranger :
    ∃ final, exec World.step {} latePause = some final ∧ final.uses.map Use.file = [.other 1, .other 1, .other 1] ∧
      ¬ Always World.step Own {} latePause := by
  refine ⟨_, rfl, rfl, ?_⟩
  intro always
  exact nomatch always.final rfl _ (.head _)

end ExPTY.Proofs.ClosedDescriptor
