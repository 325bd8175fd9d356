import ExPTY.Proofs.ClosedDescriptor

/-! The native calls of a Unix session never wait for each other for good, and the end of
the session ends them all: once `fd_closed` is set no call has more than three steps left. -/

namespace ExPTY.Proofs.Shutdown
open Runs NativeCalls SharedDescriptor ClosedDescriptor
open Termios (Header)

variable {header : Header} {world next : World header} {index : Nat} {call : Call header}

def finished : Call header → Bool
  | .returned _ => true
  | _ => false

/-- Between the lock and the unlock. -/
def inside : Call header → Bool
  | .looping _ | .writing _ | .unlocking _ => true
  | _ => false

/-- The steps that a call has left once the session has ended. -/
def left : Call header → Nat
  | .returned _ => 0
  | .entered _ | .unlocking _ | .ioctl _ | .control _ => 1
  | .looping _ | .tcsetattr _ _ => 2
  | .locking _ | .writing _ | .tcgetattr _ => 3

/-- The mutex is held by a call that is going to unlock it. -/
def Held (world : World header) : Prop :=
  ∀ index, world.mutex = some index → ∃ call, world.calls[index]? = some call ∧ inside call = true

def advances (index : Nat) : Event header → Bool
  | .advance other _ => other == index
  | _ => false

/-- What is left of one call, also of one that has not begun. -/
def leftOf (index : Nat) (world : World header) : Nat := (world.calls[index]?.map left).getD 3

theorem left_le (call : Call header) : left call ≤ 3 := by
  cases call with
  | returned => exact Nat.zero_le 3
  | locking | writing | tcgetattr => exact Nat.le_refl 3
  | _ => exact Nat.le_of_ble_eq_true rfl

theorem leftOf_le (index : Nat) (world : World header) : leftOf index world ≤ 3 := by
  unfold leftOf
  cases world.calls[index]? with
  | none => exact Nat.le_refl 3
  | some call => exact left_le call

section Steps

/-- What one step of a call does to the world, beside what it adds to `uses`. -/
structure Moved (world next : World header) (index : Nat) (call after : Call header) : Prop where
  running : world.calls[index]? = some call
  calls : next.calls = world.calls.set index after
  flag : next.fd_closed = world.fd_closed
  held : next.mutex = world.mutex ∧ (inside call = true → inside after = true) ∨
    next.mutex = some index ∧ inside after = true ∨ next.mutex = none
  left : world.fd_closed = true → left after < left call

private theorem after_write_inside (header : Header) (loop : Loop) (result : Option Nat) :
    inside (after_write loop result : Call header) = true ∧ left (after_write loop result : Call header) < 3 := by
  match result with
  | none | some 0 => exact ⟨rfl, Nat.le_refl 3⟩
  | some (count + 1) =>
    simp only [after_write]
    split
    · exact ⟨rfl, Nat.le_of_ble_eq_true rfl⟩
    · exact ⟨rfl, Nat.le_refl 3⟩

theorem moved {kernel : Kernel header} (taken : world.step (.advance index kernel) = some next) :
    ∃ call after, Moved world next index call after := by
  obtain ⟨call, running, taken⟩ := Option.bind_eq_some_iff.mp taken
  cases call with
  | entered data =>
    cases taken
    refine ⟨_, _, running, rfl, rfl, .inl ⟨rfl, (absurd · Bool.false_ne_true)⟩, ?_⟩
    intro closed
    rw [closed]
    exact Nat.le_refl 1
  | locking data =>
    simp only [Call.next, Option.bind_some, World.perform] at taken
    split at taken <;> cases taken
    exact ⟨_, _, running, rfl, rfl, .inr (.inl ⟨rfl, rfl⟩), fun _ => Nat.le_refl 3⟩
  | looping loop =>
    cases taken
    refine ⟨_, _, running, rfl, rfl, .inl ⟨rfl, ?_⟩, ?_⟩
    · intro _
      cases world.fd_closed with
      | true => rfl
      | false => rfl
    · intro closed
      rw [closed]
      exact Nat.le_refl 2
  | writing loop =>
    simp only [Call.next, Option.bind_some, World.perform] at taken
    split at taken <;> cases taken
    obtain ⟨within, fewer⟩ := after_write_inside header loop kernel.write
    exact ⟨_, _, running, rfl, rfl, .inl ⟨rfl, fun _ => within⟩, fun _ => fewer⟩
  | unlocking loop =>
    cases taken
    exact ⟨_, _, running, rfl, rfl, .inr (.inr rfl), fun _ => Nat.le_refl 1⟩
  | ioctl winp | control byte =>
    simp only [Call.next, Option.bind_some, World.perform] at taken
    split at taken <;> cases taken
    exact ⟨_, _, running, rfl, rfl, .inl ⟨rfl, (absurd · Bool.false_ne_true)⟩, fun _ => Nat.le_refl 1⟩
  | tcgetattr change =>
    simp only [Call.next, Option.bind_some, World.perform] at taken
    split at taken <;> cases taken
    refine ⟨_, _, running, rfl, rfl, .inl ⟨rfl, (absurd · Bool.false_ne_true)⟩, fun _ => ?_⟩
    cases kernel.tcgetattr with
    | none => exact Nat.le_of_ble_eq_true rfl
    | some settings => exact Nat.le_refl 3
  | tcsetattr change settings =>
    simp only [Call.next, Option.bind_some, World.perform] at taken
    split at taken <;> cases taken
    refine ⟨_, _, running, rfl, rfl, .inl ⟨rfl, (absurd · Bool.false_ne_true)⟩, fun _ => ?_⟩
    split
    · cases change.control with
      | none => exact Nat.le_of_ble_eq_true rfl
      | some byte => exact Nat.le_refl 2
    · exact Nat.le_of_ble_eq_true rfl
  | returned reply => cases taken

private theorem Held.advance (held : Held world) {after : Call header} (moved : Moved world next index call after) :
    Held next := by
  intro holder holds
  rw [moved.calls]
  rcases moved.held with ⟨same, stays⟩ | ⟨took, entered⟩ | freed
  · obtain ⟨current, found, within⟩ := held holder (same.symm.trans holds)
    rw [Slots.getElem?_set_found moved.running]
    split
    next own =>
      subst own
      cases moved.running.symm.trans found
      exact ⟨after, rfl, stays within⟩
    next => exact ⟨current, found, within⟩
  · cases took.symm.trans holds
    exact ⟨after, by rw [Slots.getElem?_set_found moved.running, if_pos rfl], entered⟩
  · cases freed.symm.trans holds

theorem Held.step (held : Held world) {event : Event header} (taken : world.step event = some next) :
    Held next := by
  cases event with
  | end_of_file | close | hangup | reopen file | release =>
    simp only [World.step] at taken
    split at taken <;> cases taken
    exact held
  | call request =>
    obtain ⟨started, begins, rfl⟩ := Option.map_eq_some_iff.mp taken
    intro holder holds
    obtain ⟨call, found, within⟩ := held holder holds
    exact ⟨call, (List.getElem?_append_left (List.getElem?_eq_some_iff.mp found).1).trans found, within⟩
  | advance index kernel =>
    obtain ⟨call, after, moved⟩ := moved taken
    exact held.advance moved

theorem closed_step (closed : world.fd_closed = true) {event : Event header}
    (taken : world.step event = some next) : next.fd_closed = true := by
  cases event with
  | end_of_file | close | hangup | reopen file | release =>
    simp only [World.step] at taken
    split at taken <;> cases taken
    first | exact closed | rfl
  | call request =>
    obtain ⟨started, begins, rfl⟩ := Option.map_eq_some_iff.mp taken
    exact closed
  | advance index kernel =>
    obtain ⟨call, after, moved⟩ := moved taken
    exact moved.flag.trans closed

/-- The steps of a call come off what it has left, and no other step adds to that. -/
private theorem leftOf_falls (index : Nat) (closed : world.fd_closed = true) {event : Event header}
    (taken : world.step event = some next) :
    leftOf index next + (if advances index event then 1 else 0) ≤ leftOf index world := by
  cases event with
  | end_of_file | close | hangup | reopen file | release =>
    simp only [World.step] at taken
    split at taken <;> cases taken
    exact Nat.le_refl _
  | call request =>
    obtain ⟨started, begins, rfl⟩ := Option.map_eq_some_iff.mp taken
    cases found : world.calls[index]? with
    | some call =>
      unfold leftOf
      rw [List.getElem?_append_left (List.getElem?_eq_some_iff.mp found).1]
      exact Nat.le_refl _
    | none =>
      have all : leftOf index world = 3 := by rw [leftOf, found, Option.map_none, Option.getD_none]
      rw [all]
      apply leftOf_le
  | advance other kernel =>
    obtain ⟨call, after, moved⟩ := moved taken
    have fewer := moved.left closed
    unfold leftOf
    rw [moved.calls, Slots.getElem?_set_found moved.running]
    by_cases own : other = index
    · subst own
      simp only [if_true, moved.running, Option.map_some, Option.getD_some, advances, beq_self_eq_true]
      exact fewer
    · simp only [if_neg own, advances, beq_eq_false_iff_ne.mpr own, Bool.false_eq_true, if_false, Nat.add_zero]
      exact Nat.le_refl _

theorem goes_on (found : world.calls[index]? = some call) (running : finished call = false)
    (awake : ∀ data, call ≠ .locking data) : ∃ next, world.step (.advance index refusing) = some next := by
  by_cases busy : committed call = true
  · obtain ⟨system, after, acts⟩ := committed_next busy
    have stepped : world.step (.advance index refusing) = world.perform index refusing (.system system after) := by
      rw [World.step, found, Option.bind_some, acts, Option.bind_some]
    exact ⟨_, stepped.trans (if_pos (bounded_refusing system))⟩
  · cases call with
    | entered | looping | unlocking =>
      rw [World.step, found]
      exact ⟨_, rfl⟩
    | writing | ioctl | tcgetattr | tcsetattr | control => exact absurd rfl busy
    | locking data => exact absurd rfl (awake data)
    | returned => cases running

/-- A call that has not returned can go on, or the one that holds the mutex can. -/
private theorem can_advance (held : Held world) (found : world.calls[index]? = some call) (running : finished call = false) :
    ∃ other next, world.step (.advance other refusing) = some next := by
  by_cases waiting : ∃ data, call = .locking data
  · obtain ⟨data, rfl⟩ := waiting
    cases mutex : world.mutex with
    | none =>
      refine ⟨index, { world.setCall index (.looping (.start data)) with mutex := some index }, ?_⟩
      rw [World.step, found]
      exact if_pos mutex
    | some holder =>
      obtain ⟨current, held, within⟩ := held holder mutex
      refine ⟨holder, goes_on held ?_ ?_⟩
      · cases current with
        | returned => cases within
        | _ => rfl
      · rintro data rfl
        cases within
  · exact ⟨index, goes_on found running fun data same => waiting ⟨data, same⟩⟩

private theorem total_falls (world : World header) (invariant : Held world ∧ world.fd_closed = true)
    (unfinished : ¬ ∀ call ∈ world.calls, finished call = true) :
    ∃ event next, (∃ index, event = .advance index refusing) ∧ world.step event = some next ∧
      (Held next ∧ next.fd_closed = true) ∧ Slots.total left next.calls < Slots.total left world.calls := by
  obtain ⟨held, closed⟩ := invariant
  simp only [Classical.not_forall, Bool.not_eq_true] at unfinished
  obtain ⟨call, member, running⟩ := unfinished
  obtain ⟨index, found⟩ := List.mem_iff_getElem?.mp member
  obtain ⟨other, next, taken⟩ := can_advance held found running
  refine ⟨_, next, ⟨other, rfl⟩, taken, ⟨held.step taken, closed_step closed taken⟩, ?_⟩
  obtain ⟨call, after, moved⟩ := moved taken
  rw [moved.calls]
  exact Slots.total_set_lt moved.running (moved.left closed)

end Steps

/-- In every run some call can go on until all have returned. After the end of the file
no call, whenever it begins, takes more than three steps, and all of them can return. -/
theorem shutdown_drains (events : List (Event header)) (world : World header)
    (ran : exec World.step {} events = some world) :
    (∀ call ∈ world.calls, finished call = false → ∃ index next, world.step (.advance index refusing) = some next) ∧
      (world.fd_closed = true →
        (∀ more final index, exec World.step world more = some final → more.countP (advances index) ≤ 3) ∧
          ∃ more final, exec World.step world more = some final ∧ (∀ call ∈ final.calls, finished call = true) ∧
            ∀ event ∈ more, ∃ index, event = .advance index refusing) := by
  have held : Held world := by
    apply (Always.of_invariant _ events _).final ran
    · exact fun world event next held taken => held.step taken
    · exact nofun
  refine ⟨?_, fun closed => ⟨?_, ?_⟩⟩
  · intro call member running
    obtain ⟨index, found⟩ := List.mem_iff_getElem?.mp member
    exact can_advance held found running
  · intro more final index reached
    have bounded := countP_le_rank (leftOf index) (fun world => world.fd_closed = true) (advances index)
      (fun _ _ _ closed taken => closed_step closed taken) (fun _ _ _ closed taken => leftOf_falls index closed taken)
      closed reached
    have few := leftOf_le index world
    omega
  · obtain ⟨more, final, reached, done, only⟩ := reaches_of_rank (fun world => Slots.total left world.calls)
      (fun world => Held world ∧ world.fd_closed = true) total_falls world ⟨held, closed⟩
    exact ⟨more, final, reached, done, only⟩

/-- The end of the file while one write is in its loop, one waits and a third one comes. -/
def endOfSession : List (Event Header.linux) :=
  [.call (.write (.reference 0) [97, 98]), .call (.write (.reference 0) [99]), .call (.resume (.reference 0)),
    .advance 0 terminal, .advance 0 terminal, .advance 1 terminal, .end_of_file, .close]

theorem end_of_session_drains :
    ∃ world, exec World.step {} endOfSession = some world ∧ world.fd_closed = true ∧ world.calls.map finished = [false, false, false] ∧
      ∃ more final, exec World.step world more = some final ∧ ∀ call ∈ final.calls, finished call = true := by
  refine ⟨_, rfl, rfl, rfl, ?_⟩
  obtain ⟨more, final, reached, done, _⟩ := ((shutdown_drains endOfSession _ rfl).2 rfl).2
  exact ⟨more, final, reached, done⟩

end ExPTY.Proofs.Shutdown
