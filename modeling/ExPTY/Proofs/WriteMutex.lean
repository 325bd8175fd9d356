import ExPTY.ConptyWrite
import ExPTY.Slots

/-! Who waits for whom in the writes to Windows consoles. A call in `WriteFile` has the mutex
of its handle, and leaves it unless `WriteFile` fails. What a failure leaves behind is
never undone, since the thread that has the mutex can only enter it again. -/

namespace ExPTY.Proofs.WriteMutex
open ConptyWrite Runs
open NativeCalls (is_int)
open Server (Binary Nif.Call Reply T Term handle_call)

def mutex (world : World) (handle : Nat) : Option Mutex := world.ptyHandles[handle]?.map Baton.mutex

/-- The mutex of a handle is free, or had once by a call inside `WriteFile` on it. -/
def Released (world : World) : Prop :=
  ∀ handle thread again, mutex world handle = some (.held thread again) →
    again = 0 ∧ ∃ call ∈ world.calls, call.thread = thread ∧ call.phase = .writing handle

/-- A call that is kept out of a mutex waits for a call of another thread inside `WriteFile`. -/
def Waits (world : World) : Prop :=
  ∀ index call handle, world.calls[index]? = some call → call.phase = .locking handle →
    world.step (.advance index) = none →
      ∃ other ∈ world.calls, other.thread ≠ call.thread ∧ other.phase = .writing handle

def Answers (world : World) : Prop :=
  ∀ call ∈ world.calls, ∀ reply accepted, call.phase = .returned reply accepted →
    (reply = .ok ↔ accepted = call.data.length) ∧ (accepted ≠ call.data.length → reply = .accepted accepted)

/-- No call that has returned has a mutex, a call only waits for one inside `WriteFile`, and
the answers tell what was accepted. -/
structure Sound (world : World) : Prop where
  released : Released world
  waits : Waits world
  answers : Answers world

def Succeeds (_ : World) : Event → Prop
  | .WriteFile _ (.failed _) => False
  | _ => True

/-- What a step changes, by the statement that it is. -/
inductive Changed (world : World) : Event → World → Prop
  | spawned (id : Int) :
      Changed world (.expty_spawn id) { world with ptyHandles := world.ptyHandles ++ [{ id := id }] }
  | connected {handle : Nat} {baton : Baton} (found : world.ptyHandles[handle]? = some baton) :
      Changed world (.create_write_pipe handle) (world.setBaton handle { baton with write_ready := true })
  | began {thread : Nat} {pty : Term} {data : Option Binary} (idle : world.idle thread) :
      Changed world (.expty_write thread pty data)
        { world with calls := world.calls ++ [world.expty_write thread pty data] }
  | checked {index handle : Nat} {call : Call} {baton : Baton} (running : world.calls[index]? = some call)
      (entered : call.phase = .entered handle) (found : world.ptyHandles[handle]? = some baton) :
      Changed world (.advance index)
        (world.setCall index (call.move (if baton.write_ready then .locking handle else .returned (call.reply 0) 0)))
  | locked {index handle : Nat} {call : Call} {baton : Baton} {mutex : Mutex} (running : world.calls[index]? = some call)
      (locking : call.phase = .locking handle) (found : world.ptyHandles[handle]? = some baton)
      (locks : baton.mutex.lock call.thread = some mutex) :
      Changed world (.advance index)
        ((world.setBaton handle { baton with mutex }).setCall index (call.move (.writing handle)))
  | wrote {index handle dwWritten : Nat} {call : Call} {baton : Baton} {mutex : Mutex}
      (running : world.calls[index]? = some call) (writing : call.phase = .writing handle)
      (found : world.ptyHandles[handle]? = some baton) (unlocks : baton.mutex.unlock call.thread = some mutex) :
      Changed world (.WriteFile index (.succeeded dwWritten))
        ((world.setBaton handle { baton with mutex }).setCall index
          (call.move (.returned (call.reply dwWritten) dwWritten)))
  | failed {index handle taken : Nat} {call : Call} (running : world.calls[index]? = some call)
      (writing : call.phase = .writing handle) :
      Changed world (.WriteFile index (.failed taken)) (world.setCall index (call.move (.returned (call.reply 0) taken)))

section Steps
variable {world next : World}

private theorem advance_changed {index : Nat} {call : Call} (running : world.calls[index]? = some call)
    (taken : world.advance index call = some next) : Changed world (.advance index) next := by
  unfold World.advance at taken
  split at taken
  next handle entered =>
    obtain ⟨baton, found, same⟩ := Option.bind_eq_some_iff.mp taken
    cases same
    exact .checked running entered found
  next handle locking =>
    obtain ⟨baton, found, taken⟩ := Option.bind_eq_some_iff.mp taken
    obtain ⟨mutex, locks, same⟩ := Option.bind_eq_some_iff.mp taken
    cases same
    exact .locked running locking found locks
  all_goals cases taken

private theorem write_file_changed {index handle : Nat} {call : Call} {result : WriteFile}
    (running : world.calls[index]? = some call) (writing : call.phase = .writing handle)
    (taken : world.write_file index call handle result = some next) : Changed world (.WriteFile index result) next := by
  cases result with
  | succeeded dwWritten =>
    obtain ⟨baton, found, taken⟩ := Option.bind_eq_some_iff.mp taken
    obtain ⟨mutex, unlocks, same⟩ := Option.bind_eq_some_iff.mp taken
    cases same
    exact .wrote running writing found unlocks
  | failed accepted =>
    cases taken
    exact .failed running writing

theorem step_changed {event : Event} (taken : world.step event = some next) : Changed world event next := by
  cases event with
  | expty_spawn id =>
    cases taken
    exact .spawned id
  | create_write_pipe handle =>
    obtain ⟨baton, found, rfl⟩ := Option.map_eq_some_iff.mp taken
    exact .connected found
  | expty_write thread pty data =>
    simp only [World.step] at taken
    split at taken
    next idle =>
      cases taken
      exact .began idle
    next => cases taken
  | advance index =>
    obtain ⟨call, running, taken⟩ := Option.bind_eq_some_iff.mp taken
    exact advance_changed running taken
  | WriteFile index result =>
    obtain ⟨call, running, taken⟩ := Option.bind_eq_some_iff.mp taken
    split at taken
    next handle writing =>
      split at taken
      · exact write_file_changed running writing taken
      · cases taken
    next => cases taken

end Steps

section Mutexes
variable {world : World}

private theorem lock_cases {thread : Nat} {before after : Mutex} (locks : before.lock thread = some after) :
    (before = .free ∧ after = .held thread 0) ∨ ∃ again, before = .held thread again ∧ after = .held thread (again + 1) := by
  cases before with
  | free =>
    cases locks
    exact .inl ⟨rfl, rfl⟩
  | held owner again =>
    simp only [Mutex.lock] at locks
    split at locks <;> cases locks
    next same => exact .inr ⟨again, same ▸ rfl, same ▸ rfl⟩

private theorem unlock_held {thread again : Nat} {after : Mutex} (unlocks : (Mutex.held thread again).unlock thread = some after) :
    after = if again = 0 then .free else .held thread (again - 1) := by
  rw [Mutex.unlock, if_pos rfl] at unlocks
  cases unlocks
  rfl

private theorem mutex_found {handle : Nat} {baton : Baton} (found : world.ptyHandles[handle]? = some baton) :
    mutex world handle = some baton.mutex := by
  rw [mutex, found, Option.map_some]

private theorem mutex_setBaton {handle : Nat} {baton baton' : Baton} (found : world.ptyHandles[handle]? = some baton)
    (other : Nat) : mutex (world.setBaton handle baton') other = if handle = other then some baton'.mutex else mutex world other := by
  rw [mutex, World.setBaton, Slots.getElem?_set_found found]
  split <;> rfl

private theorem mutex_moved {handle index : Nat} {baton : Baton} {call : Call} (after : Mutex)
    (found : world.ptyHandles[handle]? = some baton) (other : Nat) :
    mutex ((world.setBaton handle { baton with mutex := after }).setCall index call) other =
      if handle = other then some after else mutex world other :=
  mutex_setBaton found other

private theorem mutex_connected {handle : Nat} {baton : Baton} (found : world.ptyHandles[handle]? = some baton) (other : Nat) :
    mutex (world.setBaton handle { baton with write_ready := true }) other = mutex world other := by
  rw [mutex_setBaton found]
  split
  next same =>
    subst same
    exact (mutex_found found).symm
  next => rfl

private theorem mutex_spawned (id : Int) {handle thread again : Nat} :
    mutex { world with ptyHandles := world.ptyHandles ++ [{ id := id }] } handle = some (.held thread again) ↔
      mutex world handle = some (.held thread again) := by
  unfold mutex
  rcases Nat.lt_trichotomy handle world.ptyHandles.length with below | same | above
  · rw [List.getElem?_append_left below]
  · subst same
    simp
  · rw [List.getElem?_eq_none (by simp; omega), List.getElem?_eq_none (by omega)]

end Mutexes

def Single (calls : List Call) : Prop :=
  ∀ (first second : Nat) (one other : Call), calls[first]? = some one → calls[second]? = some other →
    one.phase.finished = false → other.phase.finished = false → one.thread = other.thread → first = second

def handle? : Phase → Option Nat
  | .entered handle | .locking handle | .writing handle => some handle
  | .returned _ _ | .refused _ => none

structure Disciplined (world : World) : Prop where
  single : Single world.calls
  known : ∀ (index : Nat) (call : Call), world.calls[index]? = some call → ∀ handle, handle? call.phase = some handle →
    handle < world.ptyHandles.length
  holds : ∀ (index : Nat) (call : Call), world.calls[index]? = some call → ∀ handle, call.phase = .writing handle →
    ∃ again, mutex world handle = some (.held call.thread again)

section Discipline
variable {world next : World}

/-- Two calls inside `WriteFile` on one handle are one. -/
private theorem Disciplined.exclusive (disciplined : Disciplined world) {first second handle : Nat} {one other : Call}
    (present : world.calls[first]? = some one) (also : world.calls[second]? = some other) (inside : one.phase = .writing handle)
    (within : other.phase = .writing handle) : first = second := by
  obtain ⟨again, mine⟩ := disciplined.holds first one present handle inside
  obtain ⟨more, theirs⟩ := disciplined.holds second other also handle within
  rw [mine, Option.some.injEq, Mutex.held.injEq] at theirs
  exact disciplined.single first second one other present also (congrArg Phase.finished inside)
    (congrArg Phase.finished within) theirs.1

private theorem single_set {calls : List Call} (single : Single calls) {index : Nat} {call : Call}
    (running : calls[index]? = some call) (unfinished : call.phase.finished = false) (phase : Phase) :
    Single (calls.set index (call.move phase)) := by
  intro first second one other present also
  rw [Slots.getElem?_set_found running] at present also
  split at present
  next same =>
    subst same
    cases present
    split at also
    next same => exact fun _ _ _ => same
    next =>
      intro _ busy thread
      exact single index second call other running also unfinished busy thread
  next =>
    split at also
    next same =>
      subst same
      cases also
      intro busy _ thread
      exact single first index one call present running busy unfinished thread
    next => exact single first second one other present also

private theorem single_append {calls : List Call} (single : Single calls) {fresh : Call}
    (idle : ∀ call ∈ calls, call.thread = fresh.thread → call.phase.finished = true) : Single (calls ++ [fresh]) := by
  have busy {index : Nat} {call : Call} (present : calls[index]? = some call) (unfinished : call.phase.finished = false) :
      call.thread ≠ fresh.thread := by
    intro same
    rw [idle call (List.mem_of_getElem? present) same] at unfinished
    cases unfinished
  intro first second one other present also oneBusy otherBusy thread
  obtain ⟨below, within⟩ : first < calls.length + 1 ∧ second < calls.length + 1 := by
    obtain ⟨below, -⟩ := List.getElem?_eq_some_iff.mp present
    obtain ⟨within, -⟩ := List.getElem?_eq_some_iff.mp also
    simp only [List.length_append, List.length_singleton] at below within
    exact ⟨below, within⟩
  rcases Nat.lt_succ_iff_lt_or_eq.mp below with below | rfl <;> rcases Nat.lt_succ_iff_lt_or_eq.mp within with within | rfl
  · rw [List.getElem?_append_left below] at present
    rw [List.getElem?_append_left within] at also
    exact single first second one other present also oneBusy otherBusy thread
  · rw [List.getElem?_append_left below] at present
    rw [List.getElem?_concat_length] at also
    cases also
    exact absurd thread (busy present oneBusy)
  · rw [List.getElem?_concat_length] at present
    rw [List.getElem?_append_left within] at also
    cases present
    exact absurd thread.symm (busy also otherBusy)
  · rfl

/-- A new call knows its handle and is not in `WriteFile`. -/
private theorem expty_write_phase (world : World) (thread : Nat) (pty : Term) (data : Option Binary) :
    (∃ reason, (world.expty_write thread pty data).phase = .refused reason) ∨
      ∃ handle, (world.expty_write thread pty data).phase = .entered handle ∧ handle < world.ptyHandles.length := by
  unfold World.expty_write
  split
  next id =>
    split
    next =>
      split
      next => exact .inl ⟨_, rfl⟩
      next => exact .inl ⟨_, rfl⟩
      next handle _ found =>
        obtain ⟨bound, -⟩ := List.findIdx?_eq_some_iff_getElem.mp found
        exact .inr ⟨handle, rfl, bound⟩
    next => exact .inl ⟨_, rfl⟩
  next => exact .inl ⟨_, rfl⟩

private theorem expty_write_idle (world : World) (thread : Nat) (pty : Term) (data : Option Binary) :
    (∀ handle, (world.expty_write thread pty data).phase ≠ .writing handle) ∧
      ∀ reply accepted, (world.expty_write thread pty data).phase ≠ .returned reply accepted := by
  rcases expty_write_phase world thread pty data with ⟨reason, refused⟩ | ⟨handle, entered, -⟩
  · rw [refused]
    exact ⟨nofun, nofun⟩
  · rw [entered]
    exact ⟨nofun, nofun⟩

private theorem expty_write_thread (world : World) (thread : Nat) (pty : Term) (data : Option Binary) :
    (world.expty_write thread pty data).thread = thread := by
  unfold World.expty_write
  split
  · split
    · split <;> rfl
    · rfl
  · rfl

/-- A step of a call that keeps the handles and gives no call a mutex it has not got. -/
private theorem Disciplined.moved (disciplined : Disciplined world) {index : Nat} {call : Call} {phase : Phase}
    (running : world.calls[index]? = some call) (unfinished : call.phase.finished = false)
    (calls : next.calls = world.calls.set index (call.move phase)) (handles : next.ptyHandles.length = world.ptyHandles.length)
    (known : ∀ handle, handle? phase = some handle → handle? call.phase = some handle)
    (own : ∀ handle, phase = .writing handle → ∃ again, mutex next handle = some (.held call.thread again))
    (others : ∀ other (current : Call) handle, index ≠ other → world.calls[other]? = some current →
      current.phase = .writing handle → mutex next handle = mutex world handle) : Disciplined next := by
  refine ⟨?_, ?_, ?_⟩
  · rw [calls]
    exact single_set disciplined.single running unfinished phase
  · rw [calls, handles]
    refine Slots.forall_set running ?_ ?_
    · exact fun handle at_handle => disciplined.known index call running handle (known handle at_handle)
    · exact fun other current _ present => disciplined.known other current present
  · rw [calls]
    refine Slots.forall_set running ?_ ?_
    · exact own
    · intro other current different present handle writing
      rw [others other current handle different present writing]
      exact disciplined.holds other current present handle writing

theorem Disciplined.step (disciplined : Disciplined world) {event : Event} (changed : Changed world event next) :
    Disciplined next := by
  cases changed with
  | spawned id =>
    refine ⟨disciplined.single, ?_, ?_⟩
    · intro index call present handle at_handle
      have below := disciplined.known index call present handle at_handle
      simp only [List.length_append, List.length_singleton]
      omega
    · intro index call present handle writing
      obtain ⟨again, held⟩ := disciplined.holds index call present handle writing
      exact ⟨again, (mutex_spawned id).mpr held⟩
  | connected found =>
    refine ⟨disciplined.single, ?_, ?_⟩
    · simpa only [World.setBaton, List.length_set] using disciplined.known
    · intro index call present handle writing
      rw [mutex_connected found]
      exact disciplined.holds index call present handle writing
  | @began thread pty data idle =>
    refine ⟨?_, ?_, ?_⟩
    · apply single_append disciplined.single
      rw [expty_write_thread]
      exact idle
    · refine Slots.forall_append ?_ ?_
      · exact fun index call _ present => disciplined.known index call present
      · intro handle at_handle
        rcases expty_write_phase world thread pty data with ⟨reason, refused⟩ | ⟨own, entered, bound⟩
        · rw [refused] at at_handle
          cases at_handle
        · rw [entered] at at_handle
          cases at_handle
          exact bound
    · refine Slots.forall_append ?_ ?_
      · exact fun index call _ present => disciplined.holds index call present
      · exact fun handle writing => absurd writing ((expty_write_idle world thread pty data).1 handle)
  | @checked index handle call baton running entered found =>
    refine disciplined.moved running (congrArg Phase.finished entered) rfl rfl ?_ ?_ (fun _ _ _ _ _ _ => rfl)
    · intro other at_other
      split at at_other
      · rw [entered]
        exact at_other
      · cases at_other
    · intro other writing
      split at writing <;> cases writing
  | @locked index handle call baton after running locking found locks =>
    refine disciplined.moved running (congrArg Phase.finished locking) rfl (List.length_set ..) ?_ ?_ ?_
    · intro other at_other
      rw [locking]
      exact at_other
    · intro other writing
      cases writing
      obtain ⟨-, rfl⟩ | ⟨again, -, rfl⟩ := lock_cases locks
      all_goals exact ⟨_, (mutex_moved _ found handle).trans (if_pos rfl)⟩
    · intro other current within different present writing
      refine (mutex_moved after found within).trans (if_neg ?_)
      rintro rfl
      obtain ⟨again, held⟩ := disciplined.holds other current present handle writing
      rw [mutex_found found, Option.some.injEq] at held
      obtain ⟨free, -⟩ | ⟨more, owned, -⟩ := lock_cases locks
      · rw [free] at held
        cases held
      · rw [owned, Mutex.held.injEq] at held
        exact different (disciplined.single index other call current running present (congrArg Phase.finished locking)
          (congrArg Phase.finished writing) held.1)
  | @wrote index handle dwWritten call baton after running writing found unlocks =>
    refine disciplined.moved running (congrArg Phase.finished writing) rfl (List.length_set ..) nofun nofun ?_
    intro other current within different present inside
    refine (mutex_moved after found within).trans (if_neg ?_)
    rintro rfl
    exact different (disciplined.exclusive running present writing inside)
  | @failed index handle taken call running writing =>
    exact disciplined.moved running (congrArg Phase.finished writing) rfl rfl nofun nofun (fun _ _ _ _ _ _ => rfl)

theorem disciplined_initial : Disciplined {} := ⟨nofun, nofun, nofun⟩

theorem disciplined_run (events : List Event) : Always World.step Disciplined {} events := by
  refine Always.of_invariant ?_ events disciplined_initial
  intro world event next disciplined taken
  exact disciplined.step (step_changed taken)

end Discipline

section Sound
variable {world next : World}

/-- A call inside `WriteFile` stays there while another call moves. -/
private theorem inside_set {index handle : Nat} {call current : Call} {phase : Phase} (running : world.calls[index]? = some call)
    (elsewhere : call.phase ≠ .writing handle) (member : current ∈ world.calls) (writing : current.phase = .writing handle) :
    current ∈ world.calls.set index (call.move phase) := by
  obtain ⟨other, present⟩ := List.mem_iff_getElem?.mp member
  have different : index ≠ other := by
    rintro rfl
    rw [present, Option.some.injEq] at running
    exact elsewhere (running ▸ writing)
  refine List.mem_of_getElem? (i := other) ?_
  rw [Slots.getElem?_set_found running, if_neg different]
  exact present

private theorem released_kept (released : Released world) {handle thread again : Nat}
    (same : mutex next handle = some (.held thread again) → mutex world handle = some (.held thread again))
    (kept : ∀ call ∈ world.calls, call.phase = .writing handle → call ∈ next.calls)
    (held : mutex next handle = some (.held thread again)) :
    again = 0 ∧ ∃ call ∈ next.calls, call.thread = thread ∧ call.phase = .writing handle := by
  obtain ⟨once, call, member, own, writing⟩ := released handle thread again (same held)
  exact ⟨once, call, kept call member writing, own, writing⟩

private theorem Released.step (released : Released world) (disciplined : Disciplined world) {event : Event}
    (changed : Changed world event next) (succeeds : Succeeds world event) : Released next := by
  intro handle thread again held
  cases changed with
  | spawned id => exact released_kept released (mutex_spawned id).mp (fun _ member _ => member) held
  | connected found =>
    refine released_kept released ?_ (fun _ member _ => member) held
    rw [mutex_connected found]
    exact id
  | began idle => exact released_kept released id (fun _ member _ => List.mem_append_left _ member) held
  | checked running entered found =>
    refine released_kept released id ?_ held
    intro current member writing
    exact inside_set running (by rw [entered]; nofun) member writing
  | @locked index own call baton after running locking found locks =>
    have elsewhere : call.phase ≠ .writing handle := by
      rw [locking]
      nofun
    by_cases same : own = handle
    · subst same
      rw [mutex_moved after found, if_pos rfl, Option.some.injEq] at held
      obtain ⟨-, rfl⟩ | ⟨more, owned, -⟩ := lock_cases locks
      · cases held
        refine ⟨rfl, call.move (.writing own), ?_, rfl, rfl⟩
        obtain ⟨bound, -⟩ := List.getElem?_eq_some_iff.mp running
        exact List.mem_set bound _
      -- the thread that enters again would be in a second call
      · obtain ⟨-, current, member, thread, writing⟩ := released own call.thread more ((mutex_found found).trans (owned ▸ rfl))
        obtain ⟨other, present⟩ := List.mem_iff_getElem?.mp member
        obtain rfl : index = other :=
          disciplined.single index other call current running present (congrArg Phase.finished locking)
            (congrArg Phase.finished writing) thread.symm
        rw [present, Option.some.injEq] at running
        exact absurd (running ▸ writing) elsewhere
    · refine released_kept released ?_ (fun current member writing => inside_set running elsewhere member writing) held
      rw [mutex_moved after found, if_neg same]
      exact id
  | @wrote index own dwWritten call baton after running writing found unlocks =>
    obtain ⟨more, mine⟩ := disciplined.holds index call running own writing
    obtain ⟨rfl, -⟩ := released own call.thread more mine
    rw [mutex_found found, Option.some.injEq] at mine
    rw [mine] at unlocks
    have free : after = .free := unlock_held unlocks
    by_cases same : own = handle
    · subst same
      rw [mutex_moved after found, if_pos rfl, free] at held
      cases held
    · refine released_kept released ?_ ?_ held
      · rw [mutex_moved after found, if_neg same]
        exact id
      · intro current member inside
        refine inside_set running ?_ member inside
        rw [writing]
        exact fun at_handle => same (Phase.writing.inj at_handle)
  | failed running writing => exact succeeds.elim

private theorem blocked_iff {index handle : Nat} {call : Call} {baton : Baton} (running : world.calls[index]? = some call)
    (locking : call.phase = .locking handle) (found : world.ptyHandles[handle]? = some baton) :
    world.step (.advance index) = none ↔ baton.mutex.lock call.thread = none := by
  simp only [World.step, running, Option.bind_some, World.advance, locking, found, Option.bind_eq_bind]
  cases baton.mutex.lock call.thread <;> simp

private theorem Released.waits (released : Released world) (disciplined : Disciplined world) : Waits world := by
  intro index call handle running locking blocked
  have bound := disciplined.known index call running handle (congrArg handle? locking)
  have found : world.ptyHandles[handle]? = some world.ptyHandles[handle] := List.getElem?_eq_getElem bound
  have kept_out := (blocked_iff running locking found).mp blocked
  cases state : world.ptyHandles[handle].mutex with
  | free =>
    rw [state] at kept_out
    cases kept_out
  | held owner again =>
    obtain ⟨-, other, member, thread, writing⟩ := released handle owner again ((mutex_found found).trans (congrArg some state))
    refine ⟨other, member, ?_, writing⟩
    intro same
    rw [state, Mutex.lock, if_pos (thread.symm.trans same)] at kept_out
    cases kept_out

private theorem reply_answers (call : Call) (nbytes : Nat) :
    (call.reply nbytes = .ok ↔ nbytes = call.data.length) ∧
      (nbytes ≠ call.data.length → call.reply nbytes = .accepted nbytes) := by
  unfold Call.reply
  split
  next all => exact ⟨iff_of_true rfl all, fun some_left => absurd all some_left⟩
  next some_left => exact ⟨iff_of_false nofun some_left, fun _ => rfl⟩

private theorem answers_set (answers : Answers world) {index : Nat} {call : Call} {phase : Phase}
    (answered : ∀ reply accepted, phase = .returned reply accepted → reply = call.reply accepted) :
    Answers (world.setCall index (call.move phase)) := by
  intro current member reply accepted returned
  rcases List.mem_or_eq_of_mem_set member with member | rfl
  · exact answers current member reply accepted returned
  · obtain rfl := answered reply accepted returned
    exact reply_answers call accepted

private theorem Answers.step (answers : Answers world) {event : Event} (changed : Changed world event next)
    (succeeds : Succeeds world event) : Answers next := by
  cases changed with
  | spawned id => exact answers
  | connected found => exact answers
  | @began thread pty data idle =>
    intro call member reply accepted returned
    rcases List.mem_append.mp member with member | member
    · exact answers call member reply accepted returned
    · cases List.mem_singleton.mp member
      exact absurd returned ((expty_write_idle world thread pty data).2 reply accepted)
  | checked running entered found =>
    apply answers_set answers
    intro reply accepted returned
    split at returned <;> cases returned
    rfl
  | @locked index handle call baton after running locking found locks =>
    have unchanged : Answers (world.setBaton handle { baton with mutex := after }) := answers
    exact answers_set unchanged nofun
  | @wrote index handle dwWritten call baton after running writing found unlocks =>
    have unchanged : Answers (world.setBaton handle { baton with mutex := after }) := answers
    apply answers_set unchanged
    intro reply accepted returned
    cases returned
    rfl
  | failed running writing => exact succeeds.elim

end Sound

/-- The thread has the mutex of the handle once more than it will leave it. -/
def Leaked (world : World) (handle thread : Nat) : Prop :=
  ∃ again, mutex world handle = some (.held thread again) ∧
    (again = 0 → ∀ call ∈ world.calls, call.phase ≠ .writing handle)

section Leaks
variable {world next : World} {handle thread : Nat}

private theorem Leaked.not_released (leaked : Leaked world handle thread) : ¬ Released world := by
  obtain ⟨again, held, nobody⟩ := leaked
  intro released
  obtain ⟨once, call, member, -, writing⟩ := released handle thread again held
  exact nobody once call member writing

private theorem nobody_left (disciplined : Disciplined world) {index : Nat} {call : Call} (running : world.calls[index]? = some call)
    (writing : call.phase = .writing handle) {phase : Phase} (away : phase ≠ .writing handle) :
    ∀ current ∈ world.calls.set index (call.move phase), current.phase ≠ .writing handle := by
  intro current member inside
  obtain ⟨other, present⟩ := List.mem_iff_getElem?.mp member
  rw [Slots.getElem?_set_found running] at present
  split at present
  next =>
    cases present
    exact away inside
  next different => exact different (disciplined.exclusive running present writing inside)

private theorem nobody_set {calls : List Call} (nobody : ∀ call ∈ calls, call.phase ≠ .writing handle) {index : Nat} {call : Call}
    {phase : Phase} (away : phase ≠ .writing handle) :
    ∀ current ∈ calls.set index (call.move phase), current.phase ≠ .writing handle := by
  intro current member inside
  rcases List.mem_or_eq_of_mem_set member with member | rfl
  · exact nobody current member inside
  · exact away inside

/-- Every `WriteFile` that fails leaves the mutex with the thread. -/
theorem failed_leaks (disciplined : Disciplined world) {index taken : Nat}
    (changed : Changed world (.WriteFile index (.failed taken)) next) : ∃ handle thread, Leaked next handle thread := by
  cases changed with
  | @failed _ handle _ call running writing =>
    obtain ⟨again, held⟩ := disciplined.holds index call running handle writing
    exact ⟨handle, call.thread, again, held, fun _ => nobody_left disciplined running writing nofun⟩

/-- A call that gets into `WriteFile` leaves as often as it came, and nobody else gets in. -/
theorem Leaked.step (leaked : Leaked world handle thread) (disciplined : Disciplined world) {event : Event}
    (changed : Changed world event next) : Leaked next handle thread := by
  obtain ⟨again, held, nobody⟩ := leaked
  cases changed with
  | spawned id => exact ⟨again, (mutex_spawned id).mpr held, nobody⟩
  | connected found => exact ⟨again, (mutex_connected found handle).trans held, nobody⟩
  | @began caller pty data idle =>
    refine ⟨again, held, ?_⟩
    intro once call member writing
    rcases List.mem_append.mp member with member | member
    · exact nobody once call member writing
    · cases List.mem_singleton.mp member
      exact absurd writing ((expty_write_idle world caller pty data).1 handle)
  | checked running entered found =>
    refine ⟨again, held, fun once => nobody_set (nobody once) ?_⟩
    split <;> nofun
  | @locked index own call baton after running locking found locks =>
    by_cases same : own = handle
    · subst same
      rw [mutex_found found, Option.some.injEq] at held
      rw [held] at locks
      obtain ⟨free, -⟩ | ⟨more, owned, rfl⟩ := lock_cases locks
      · cases free
      · cases owned
        exact ⟨again + 1, (mutex_moved _ found own).trans (if_pos rfl), nofun⟩
    · refine ⟨again, (mutex_moved _ found handle).trans ((if_neg same).trans held), fun once => nobody_set (nobody once) ?_⟩
      exact fun writing => same (Phase.writing.inj writing)
  | @wrote index own dwWritten call baton after running writing found unlocks =>
    by_cases same : own = handle
    · subst same
      obtain ⟨more, mine⟩ := disciplined.holds index call running own writing
      rw [held, Option.some.injEq, Mutex.held.injEq] at mine
      obtain ⟨rfl, rfl⟩ := mine
      have positive : again ≠ 0 := fun once => nobody once call (List.mem_of_getElem? running) writing
      rw [mutex_found found, Option.some.injEq] at held
      rw [held] at unlocks
      refine ⟨again - 1, (mutex_moved _ found own).trans ?_, fun _ => nobody_left disciplined running writing nofun⟩
      rw [if_pos rfl, unlock_held unlocks, if_neg positive]
    · exact ⟨again, (mutex_moved _ found handle).trans ((if_neg same).trans held), fun once => nobody_set (nobody once) nofun⟩
  | failed running writing => exact ⟨again, held, fun once => nobody_set (nobody once) nofun⟩

private theorem waiting_set {index other : Nat} {call current : Call} {phase : Phase} (waiting : world.calls[index]? = some call)
    (running : world.calls[other]? = some current) (elsewhere : current.phase ≠ call.phase) :
    (world.calls.set other (current.move phase))[index]? = some call := by
  rw [Slots.getElem?_set_found running, if_neg ?_]
  · exact waiting
  · rintro rfl
    rw [running, Option.some.injEq] at waiting
    exact elsewhere (congrArg Call.phase waiting)

private theorem Leaked.waiting_step (leaked : Leaked world handle thread) {index : Nat} {call : Call}
    (waiting : world.calls[index]? = some call) (locking : call.phase = .locking handle) (foreign : call.thread ≠ thread)
    {event : Event} (changed : Changed world event next) : next.calls[index]? = some call := by
  obtain ⟨again, held, -⟩ := leaked
  cases changed with
  | spawned id => exact waiting
  | connected found => exact waiting
  | began idle =>
    obtain ⟨bound, -⟩ := List.getElem?_eq_some_iff.mp waiting
    exact (List.getElem?_append_left bound).trans waiting
  | checked running entered found =>
    refine waiting_set waiting running ?_
    rw [entered, locking]
    nofun
  | @locked other own current baton after running at_lock found locks =>
    by_cases same : other = index
    · subst same
      rw [running, Option.some.injEq] at waiting
      subst waiting
      obtain rfl := Phase.locking.inj (at_lock.symm.trans locking)
      rw [mutex_found found, Option.some.injEq] at held
      rw [held, Mutex.lock, if_neg foreign.symm] at locks
      cases locks
    · exact (Slots.getElem?_set_found running index).trans ((if_neg same).trans waiting)
  | wrote running writing found unlocks =>
    refine waiting_set waiting running ?_
    rw [writing, locking]
    nofun
  | failed running writing =>
    refine waiting_set waiting running ?_
    rw [writing, locking]
    nofun

/-- A call of another thread that has come to a leaked mutex stays there in every run. -/
theorem leaked_forever (disciplined : Disciplined world) (leaked : Leaked world handle thread) {index : Nat} {call : Call}
    (waiting : world.calls[index]? = some call) (locking : call.phase = .locking handle) (foreign : call.thread ≠ thread)
    (events : List Event) : Always World.step (fun later => later.calls[index]? = some call) world events := by
  have kept : ∀ world event next,
      Disciplined world ∧ Leaked world handle thread ∧ world.calls[index]? = some call → World.step world event = some next →
        Disciplined next ∧ Leaked next handle thread ∧ next.calls[index]? = some call := by
    rintro world event next ⟨disciplined, leaked, waiting⟩ taken
    have changed := step_changed taken
    exact ⟨disciplined.step changed, leaked.step disciplined changed, leaked.waiting_step waiting locking foreign changed⟩
  exact (Always.of_invariant kept events ⟨disciplined, leaked, waiting⟩).mono fun _ held => held.2.2

end Leaks

/-- The clause of the server starts a call on the session's handle. -/
theorem write_starts {answer : Nif.Call → Reply} {session : T} (windows : session.os_type = .win32) {id : Int}
    (pty : session.pty = .integer id) (int : is_int id) {world : World} {handle : Nat}
    (found : world.get_pty_baton id = some handle) (thread : Nat) (data : Binary) :
    ∃ call, handle_call answer (.write data) session = some { reply := answer call, state := session, calls := [call] } ∧
      start world thread call = some { thread, data, phase := .entered handle } := by
  refine ⟨.write session.pty data, ?_, ?_⟩
  · simp only [handle_call, windows]
    rfl
  · simp only [start, pty, World.expty_write, if_pos int, found]

/-- In every run from the first spawn on, the mutexes are released, the waits are for calls
inside `WriteFile` and the answers tell what was accepted exactly when no `WriteFile` fails. -/
theorem writes_sound_iff (events : List Event) :
    Always World.step Sound {} events ↔ Along World.step Succeeds {} events := by
  have initial : Sound {} := ⟨nofun, nofun, nofun⟩
  refine always_iff_along Disciplined ?_ ?_ disciplined_initial initial
  · intro world event next disciplined taken
    exact disciplined.step (step_changed taken)
  · intro world event next disciplined sound taken
    have changed := step_changed taken
    constructor
    · intro after
      cases event with
      | WriteFile index result =>
        cases result with
        | succeeded dwWritten => trivial
        | failed accepted =>
          obtain ⟨handle, thread, leaked⟩ := failed_leaks disciplined changed
          exact leaked.not_released after.released
      | expty_spawn | create_write_pipe | expty_write | advance => trivial
    · intro succeeds
      have released := sound.released.step disciplined changed succeeds
      exact ⟨released, released.waits (disciplined.step changed), sound.answers.step changed succeeds⟩

/-- A `WriteFile` fails on one thread, and then another thread writes to the same console. -/
def brokenPipe : List Event :=
  [.expty_spawn 1, .create_write_pipe 0, .expty_write 0 (.integer 1) (some [97]), .advance 0, .advance 0,
    .WriteFile 0 (.failed 0), .expty_write 1 (.integer 1) (some [98]), .advance 1]

def blocked : World :=
  { ptyHandles := [{ id := 1, write_ready := true, mutex := .held 0 0 }]
    calls := [⟨0, [97], .returned (.accepted 0) 0⟩, ⟨1, [98], .locking 0⟩] }

private theorem blocked_leaked : Leaked blocked 0 0 := by
  refine ⟨0, rfl, ?_⟩
  intro _ call member
  simp only [blocked, List.mem_cons, List.not_mem_nil, or_false] at member
  rcases member with rfl | rfl <;> nofun

/-- The second write waits for a call that has returned, whatever comes after. -/
theorem broken_pipe_blocks :
    exec World.step {} brokenPipe = some blocked ∧ ¬ Always World.step Sound {} brokenPipe ∧
      ∀ events, Always World.step (fun later => later.calls[1]? = some ⟨1, [98], .locking 0⟩) blocked events := by
  have reached : exec World.step {} brokenPipe = some blocked := rfl
  refine ⟨reached, ?_, ?_⟩
  · intro always
    exact blocked_leaked.not_released (always.final reached).released
  · have disciplined := (disciplined_run brokenPipe).final reached
    exact leaked_forever disciplined blocked_leaked rfl rfl (by decide)

section Wedges
variable {world next : World} {handle : Nat}

/-- `failed_leaks` with the handle and the thread of the call that failed. -/
private theorem failure_leaks (disciplined : Disciplined world) {index taken : Nat} {call : Call}
    (running : world.calls[index]? = some call) (writing : call.phase = .writing handle)
    (failed : world.step (.WriteFile index (.failed taken)) = some next) : Leaked next handle call.thread := by
  obtain ⟨again, held⟩ := disciplined.holds index call running handle writing
  cases step_changed failed with
  | @failed _ own _ current present inside =>
    cases running.symm.trans present
    exact ⟨again, held, fun _ => nobody_left disciplined running writing nofun⟩

private theorem run_leaked (events : List Event) (disciplined : Disciplined world) {thread : Nat} (leaked : Leaked world handle thread) :
    Always World.step (fun later => Disciplined later ∧ Leaked later handle thread) world events := by
  apply Always.of_invariant
  · rintro world event next ⟨disciplined, leaked⟩ taken
    have changed := step_changed taken
    exact ⟨disciplined.step changed, leaked.step disciplined changed⟩
  · exact ⟨disciplined, leaked⟩

end Wedges

/-- In every run at most one call is inside `WriteFile` on a console, also after failures.
From the first failure on only the thread that failed gets there, and whoever else is at
the mutex or comes to it later stays. -/
theorem failure_wedges (events : List Event) (world : World) (reached : exec World.step {} events = some world) :
    (∀ (first second handle : Nat) (one other : Call), world.calls[first]? = some one → world.calls[second]? = some other →
      one.phase = .writing handle → other.phase = .writing handle → first = second) ∧
    ∀ (index taken handle : Nat) (call : Call) (next : World), world.calls[index]? = some call → call.phase = .writing handle →
      world.step (.WriteFile index (.failed taken)) = some next →
        ∀ (more : List Event) (later : World), exec World.step next more = some later →
          (∀ current ∈ later.calls, current.phase = .writing handle → current.thread = call.thread) ∧
            ∀ (position : Nat) (waiting : Call), later.calls[position]? = some waiting → waiting.phase = .locking handle →
              waiting.thread ≠ call.thread → ∀ (rest : List Event) (final : World), exec World.step later rest = some final →
                final.calls[position]? = some waiting := by
  have disciplined := (disciplined_run events).final reached
  constructor
  · intro first second handle one other present also inside within
    exact disciplined.exclusive present also inside within
  · intro index taken handle call next running writing failed more later ran
    have kept := disciplined.step (step_changed failed)
    obtain ⟨disciplined, leaked⟩ := (run_leaked more kept (failure_leaks disciplined running writing failed)).final ran
    constructor
    · intro current member inside
      obtain ⟨again, held, -⟩ := leaked
      obtain ⟨position, found⟩ := List.mem_iff_getElem?.mp member
      obtain ⟨more, mine⟩ := disciplined.holds position current found handle inside
      rw [held, Option.some.injEq, Mutex.held.injEq] at mine
      exact mine.1.symm
    · intro position waiting found locking foreign rest final ran'
      exact (leaked_forever disciplined leaked found locking foreign rest).final ran'

/-- A write of thread 0 that has come to `WriteFile`, and one of thread 1 that waits for it. -/
def waitingWriter : List Event :=
  [.expty_spawn 1, .create_write_pipe 0, .expty_write 0 (.integer 1) (some [97]), .advance 0, .advance 0,
    .expty_write 1 (.integer 1) (some [98]), .advance 1]

/-- Thread 0 writes again. -/
def anotherWrite : List Event := [.expty_write 0 (.integer 1) (some [99]), .advance 2, .advance 2]

theorem failed_thread_goes_on :
    ∃ world next later, exec World.step {} waitingWriter = some world ∧ world.step (.WriteFile 0 (.failed 0)) = some next ∧
      exec World.step next anotherWrite = some later ∧ later.calls[2]?.map Call.phase = some (.writing 0) ∧
        later.calls[1]? = some ⟨1, [98], .locking 0⟩ := by
  refine ⟨_, _, _, rfl, rfl, rfl, rfl, ?_⟩
  have wedged := (failure_wedges waitingWriter _ rfl).2 0 0 0 _ _ rfl rfl rfl [] _ rfl
  exact wedged.2 1 ⟨1, [98], .locking 0⟩ rfl rfl nofun anotherWrite _ rfl

end ExPTY.Proofs.WriteMutex
