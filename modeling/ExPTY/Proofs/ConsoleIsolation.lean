import ExPTY.ConptySessions
import ExPTY.Slots
import Mathlib.Data.List.Nodup

/-! Sessions on Windows keep to themselves. A number from the counter finds the handle it was
given for, and a name finds the pipe that was made with it, so what is written under an id
ends in that session's pipe, and what a console prints goes to the process that spawned it. -/

namespace ExPTY.Proofs.ConsoleIsolation
open ConptySessions Runs
open Server (Binary)

/-- What a spawn lays down for good. -/
structure Made where
  id : BitVec 32
  process : Pid
  hIn : Nat
  hOut : Nat
  inName : Name
  outName : Name

def made (baton : Baton) : Made :=
  ⟨baton.id, baton.process, baton.hIn, baton.hOut, baton.inName, baton.outName⟩

def registry (world : World) : List Made := world.ptyHandles.map made

/-- The bytes that were accepted under an id, and those sent on from a pipe. -/
def input (accepted : List (BitVec 32 × Binary)) (id : BitVec 32) : Binary := (accepted.filter (·.1 = id)).flatMap (·.2)

def output (messages : List Message) (place : Nat) : Binary := (messages.filter (·.pipe = place)).flatMap (·.data)

/-- How the sessions, their pipes and what went through them hang together. -/
structure Wiring (fold : Name → Name) (counter : BitVec 32) (sessions : List Made) (pipes : List Pipe) (messages : List Message)
    (accepted : List (BitVec 32 × Binary)) : Prop where
  names : (pipes.map (fold ·.name)).Nodup
  order : sessions.Pairwise fun first second => first.id.toNat < second.id.toNat ∧ first.hOut < second.hIn
  counted : ∀ session ∈ sessions, session.id.toNat ≤ counter.toNat ∧ session.hIn < session.hOut
  inPipe : ∀ session ∈ sessions, ∃ pipe, pipes[session.hIn]? = some pipe ∧ pipe.name = session.inName ∧
    pipe.written = input accepted session.id
  outPipe : ∀ session ∈ sessions, ∃ pipe, pipes[session.hOut]? = some pipe ∧ pipe.name = session.outName
  stream : ∀ (place : Nat) pipe, pipes[place]? = some pipe → pipe.written = output messages place ++ pipe.unread
  messages : ∀ message ∈ messages, ∃ session ∈ sessions, message.process = session.process ∧ message.pipe = session.hOut
  accepted : ∀ entry ∈ accepted, ∃ session ∈ sessions, session.id = entry.1

def Wired (fold : Name → Name) (world : World) : Prop :=
  Wiring fold world.ptyCounter (registry world) world.pipes world.messages world.accepted

variable {fold : Name → Name} {world next : World} {counter : BitVec 32} {sessions : List Made} {pipes : List Pipe}
  {messages : List Message} {accepted : List (BitVec 32 × Binary)}

section Registry

theorem mem_registry {handle : Nat} {baton : Baton} (held : world.ptyHandles[handle]? = some baton) :
    made baton ∈ registry world := List.mem_map_of_mem (List.mem_of_getElem? held)

/-- Two sessions are the same or one was made after the other. -/
theorem compared {sessions : List Made} {before : Made → Made → Prop} (order : sessions.Pairwise before) {first second : Made}
    (member : first ∈ sessions) (other : second ∈ sessions) : first = second ∨ before first second ∨ before second first := by
  induction order with
  | nil => cases member
  | cons earlier _ ih =>
    rcases List.mem_cons.mp member with rfl | later
    · rcases List.mem_cons.mp other with rfl | other
      · exact .inl rfl
      · exact .inr (.inl (earlier second other))
    · rcases List.mem_cons.mp other with rfl | other
      · exact .inr (.inr (earlier first later))
      · exact ih later other

theorem Wiring.same_id (wiring : Wiring fold counter sessions pipes messages accepted)
    {first second : Made} (member : first ∈ sessions) (other : second ∈ sessions) (same : first.id = second.id) :
    first = second := by
  rcases compared wiring.order member other with equal | ⟨less, _⟩ | ⟨less, _⟩
  · exact equal
  · rw [same] at less
    omega
  · rw [same] at less
    omega

theorem Wiring.same_in (wiring : Wiring fold counter sessions pipes messages accepted)
    {first second : Made} (member : first ∈ sessions) (other : second ∈ sessions) (same : first.hIn = second.hIn) :
    first = second := by
  have one := (wiring.counted first member).2
  have two := (wiring.counted second other).2
  rcases compared wiring.order member other with equal | ⟨_, less⟩ | ⟨_, less⟩
  · exact equal
  · omega
  · omega

theorem Wiring.same_out (wiring : Wiring fold counter sessions pipes messages accepted)
    {first second : Made} (member : first ∈ sessions) (other : second ∈ sessions) (same : first.hOut = second.hOut) :
    first = second := by
  have one := (wiring.counted first member).2
  have two := (wiring.counted second other).2
  rcases compared wiring.order member other with equal | ⟨_, less⟩ | ⟨_, less⟩
  · exact equal
  · omega
  · omega

/-- No input pipe is an output pipe. -/
theorem Wiring.in_ne_out (wiring : Wiring fold counter sessions pipes messages accepted)
    {first second : Made} (member : first ∈ sessions) (other : second ∈ sessions) : first.hIn ≠ second.hOut := by
  have one := (wiring.counted first member).2
  have two := (wiring.counted second other).2
  rcases compared wiring.order member other with rfl | ⟨_, less⟩ | ⟨_, less⟩ <;> omega

/-- A number finds the handle that it was given for. -/
theorem get_pty_baton_own (wired : Wired fold world) {handle : Nat} {baton : Baton}
    (held : world.ptyHandles[handle]? = some baton) : world.get_pty_baton baton.id = some handle := by
  obtain ⟨bound, same⟩ := List.getElem?_eq_some_iff.mp held
  rw [World.get_pty_baton, List.findIdx?_eq_some_iff_getElem]
  refine ⟨bound, by simp [same], ?_⟩
  intro earlier before
  have ordered := List.pairwise_iff_getElem.mp (List.pairwise_map.mp wired.order) earlier handle (by omega) bound before
  have less : (world.ptyHandles[earlier]).id.toNat < baton.id.toNat := by
    rw [← same]
    exact ordered.1
  intro found
  have equal : (world.ptyHandles[earlier]).id = baton.id := by simpa using found
  rw [equal] at less
  omega

theorem get_pty_baton_some {id : BitVec 32} {handle : Nat} (found : world.get_pty_baton id = some handle) :
    ∃ baton, world.ptyHandles[handle]? = some baton ∧ baton.id = id := by
  obtain ⟨bound, same, _⟩ := List.findIdx?_eq_some_iff_getElem.mp found
  exact ⟨_, List.getElem?_eq_getElem bound, by simpa using same⟩

end Registry

section Pipes

/-- A name finds the pipe that was made with it. -/
theorem open_pipe_own {own place : Nat} {pipe : Pipe} (names : (world.pipes.map (fold ·.name)).Nodup)
    (held : world.pipes[own]? = some pipe) (found : world.open_pipe fold pipe.name = some place) : place = own := by
  have first : world.pipes.findIdx? (fun other => fold other.name = fold pipe.name) = some place := by
    simp only [World.open_pipe] at found
    split at found
    next here =>
      split at found
      · split at found <;> cases found
        exact here
      · cases found
    next => cases found
  obtain ⟨bound, same, _⟩ := List.findIdx?_eq_some_iff_getElem.mp first
  obtain ⟨within, rfl⟩ := List.getElem?_eq_some_iff.mp held
  apply (List.getElem?_inj ((List.length_map _).symm ▸ bound) names).mp
  rw [List.getElem?_map, List.getElem?_map, List.getElem?_eq_getElem bound, List.getElem?_eq_getElem within]
  exact congrArg some (by simpa using same)

/-- A pipe that keeps its name, with the bytes that came or went accounted for. -/
theorem Wiring.update (wiring : Wiring fold counter sessions pipes messages accepted) {place : Nat} {pipe : Pipe}
    (held : pipes[place]? = some pipe) (pipe' : Pipe) (name : pipe'.name = pipe.name) {messages' : List Message}
    {accepted' : List (BitVec 32 × Binary)}
    (inputs : ∀ session ∈ sessions, session.hIn = place → pipe'.written = input accepted' session.id)
    (apart : ∀ session ∈ sessions, session.hIn ≠ place → input accepted' session.id = input accepted session.id)
    (streams : pipe'.written = output messages' place ++ pipe'.unread)
    (others : ∀ other, other ≠ place → output messages' other = output messages other)
    (sent : ∀ message ∈ messages', ∃ session ∈ sessions, message.process = session.process ∧ message.pipe = session.hOut)
    (taken : ∀ entry ∈ accepted', ∃ session ∈ sessions, session.id = entry.1) :
    Wiring fold counter sessions (pipes.set place pipe') messages' accepted' := by
  have same : (pipes.set place pipe').map (fold ·.name) = pipes.map (fold ·.name) :=
    Slots.map_set_same held (congrArg fold name)
  have found (other : Nat) : (pipes.set place pipe')[other]? = if place = other then some pipe' else pipes[other]? :=
    Slots.getElem?_set_found held other
  refine ⟨same ▸ wiring.names, wiring.order, wiring.counted, ?_, ?_, ?_, sent, taken⟩
  · intro session member
    obtain ⟨old, there, named, written⟩ := wiring.inPipe session member
    rw [found]
    by_cases here : place = session.hIn
    · have account := inputs session member here.symm
      subst here
      cases there.symm.trans held
      exact ⟨pipe', if_pos rfl, name.trans named, account⟩
    · exact ⟨old, (if_neg here).trans there, named, written.trans (apart session member (Ne.symm here)).symm⟩
  · intro session member
    obtain ⟨old, there, named⟩ := wiring.outPipe session member
    rw [found]
    by_cases here : place = session.hOut
    · subst here
      cases there.symm.trans held
      exact ⟨pipe', if_pos rfl, name.trans named⟩
    · exact ⟨old, (if_neg here).trans there, named⟩
  · refine Slots.forall_set held streams ?_
    intro other current different there
    rw [others other (Ne.symm different)]
    exact wiring.stream other current there

private theorem output_nil {place : Nat} (other : ∀ message ∈ messages, message.pipe ≠ place) : output messages place = [] := by
  have none : messages.filter (·.pipe = place) = [] := by
    simpa [List.filter_eq_nil_iff] using other
  rw [output, none]
  rfl

private theorem input_nil {id : BitVec 32} (other : ∀ entry ∈ accepted, entry.1 ≠ id) : input accepted id = [] := by
  have none : accepted.filter (·.1 = id) = [] := by
    simpa [List.filter_eq_nil_iff] using other
  rw [input, none]
  rfl

private theorem bound_of_some {place : Nat} {pipe : Pipe} (held : pipes[place]? = some pipe) : place < pipes.length :=
  (List.getElem?_eq_some_iff.mp held).1

/-- A new pipe, which nothing has gone through. -/
theorem Wiring.pipe (wiring : Wiring fold counter sessions pipes messages accepted) {name : Name}
    (fresh : fold name ∉ pipes.map (fold ·.name)) :
    Wiring fold counter sessions (pipes ++ [{ name := name }]) messages accepted := by
  refine ⟨?_, wiring.order, wiring.counted, ?_, ?_, ?_, wiring.messages, wiring.accepted⟩
  · rw [List.map_append]
    apply wiring.names.append (List.nodup_singleton _)
    intro key member new
    obtain rfl := List.mem_singleton.mp new
    exact fresh member
  · intro session member
    obtain ⟨pipe, held, rest⟩ := wiring.inPipe session member
    exact ⟨pipe, (List.getElem?_append_left (bound_of_some held)).trans held, rest⟩
  · intro session member
    obtain ⟨pipe, held, rest⟩ := wiring.outPipe session member
    exact ⟨pipe, (List.getElem?_append_left (bound_of_some held)).trans held, rest⟩
  · refine Slots.forall_append (fun place pipe _ held => wiring.stream place pipe held) ?_
    rw [output_nil]
    · rfl
    · intro message member
      obtain ⟨session, made, _, same⟩ := wiring.messages message member
      obtain ⟨pipe, held, _⟩ := wiring.outPipe session made
      have bound := bound_of_some held
      omega

theorem Wiring.count (wiring : Wiring fold counter sessions pipes messages accepted) {counter' : BitVec 32}
    (more : counter.toNat ≤ counter'.toNat) : Wiring fold counter' sessions pipes messages accepted := by
  refine { wiring with counted := ?_ }
  intro session member
  obtain ⟨least, between⟩ := wiring.counted session member
  exact ⟨Nat.le_trans least more, between⟩

/-- A new session with the next number, in whose pipes there is nothing yet. -/
theorem Wiring.session (wiring : Wiring fold counter sessions pipes messages accepted) (session : Made) {first second : Pipe}
    (later : counter.toNat < session.id.toNat) (above : ∀ other ∈ sessions, other.hOut < session.hIn)
    (between : session.hIn < session.hOut) (input : pipes[session.hIn]? = some first) (inName : first.name = session.inName)
    (empty : first.written = []) (output : pipes[session.hOut]? = some second) (outName : second.name = session.outName) :
    Wiring fold session.id (sessions ++ [session]) pipes messages accepted := by
  have older (other : Made) (member : other ∈ sessions) : other.id.toNat < session.id.toNat :=
    Nat.lt_of_le_of_lt (wiring.counted other member).1 later
  refine ⟨wiring.names, ?_, ?_, ?_, ?_, wiring.stream, ?_, ?_⟩
  · refine List.pairwise_append.mpr ⟨wiring.order, List.pairwise_singleton _ _, ?_⟩
    intro other member new same
    obtain rfl := List.mem_singleton.mp same
    exact ⟨older other member, above other member⟩
  · refine List.forall_mem_append.mpr ⟨?_, List.forall_mem_singleton.mpr ⟨Nat.le_refl _, between⟩⟩
    intro other member
    exact ⟨Nat.le_of_lt (older other member), (wiring.counted other member).2⟩
  · refine List.forall_mem_append.mpr ⟨wiring.inPipe, List.forall_mem_singleton.mpr ⟨first, input, inName, ?_⟩⟩
    rw [empty, input_nil]
    intro entry member same
    obtain ⟨other, made, number⟩ := wiring.accepted entry member
    have less := older other made
    rw [number, same] at less
    omega
  · exact List.forall_mem_append.mpr ⟨wiring.outPipe, List.forall_mem_singleton.mpr ⟨second, output, outName⟩⟩
  · intro message member
    obtain ⟨other, made, rest⟩ := wiring.messages message member
    exact ⟨other, List.mem_append_left _ made, rest⟩
  · intro entry member
    obtain ⟨other, made, rest⟩ := wiring.accepted entry member
    exact ⟨other, List.mem_append_left _ made, rest⟩

end Pipes

section Threads

/-- What a thread relies on of its baton. -/
def Fits (world : World) : Thread → Prop
  | .create_write_pipe handle => ∃ baton, world.ptyHandles[handle]? = some baton ∧ baton.mutex = true
  | .opened handle pipe => ∃ baton, world.ptyHandles[handle]? = some baton ∧ baton.mutex = true ∧ pipe = baton.hIn
  | .stored handle =>
    ∃ baton, world.ptyHandles[handle]? = some baton ∧ baton.mutex = true ∧ baton.hRealIn = some baton.hIn
  | .reading handle pipe => ∃ baton, world.ptyHandles[handle]? = some baton ∧ pipe = baton.hOut
  | .read_data _ | .connecting _ | .ended => True

/-- The real input handle is the session's own, and it is there with the mutex before a write may use them. -/
structure Ready (baton : Baton) : Prop where
  own : ∀ pipe, baton.hRealIn = some pipe → pipe = baton.hIn
  published : baton.write_ready = true → baton.hRealIn = some baton.hIn ∧ baton.mutex = true

structure Running (world : World) : Prop where
  batons : ∀ (handle : Nat) baton, world.ptyHandles[handle]? = some baton → Ready baton
  threads : ∀ (index : Nat) thread, world.threads[index]? = some thread → Fits world thread
  wild : world.wild = 0

/-- What a step may do to a baton: what it has been made of stays, and what is set stays set. -/
structure Grows (before after : Baton) : Prop where
  made : made after = made before
  mutex : before.mutex = true → after.mutex = true
  real : before.hRealIn = some before.hIn → after.hRealIn = some after.hIn

def Keeps (world next : World) : Prop :=
  ∀ (handle : Nat) baton, world.ptyHandles[handle]? = some baton →
    ∃ after, next.ptyHandles[handle]? = some after ∧ Grows baton after

theorem Fits.keep {thread : Thread} (fits : Fits world thread) (keeps : Keeps world next) : Fits next thread := by
  cases thread with
  | create_write_pipe handle =>
    obtain ⟨baton, held, mutex⟩ := fits
    obtain ⟨after, there, grows⟩ := keeps handle baton held
    exact ⟨after, there, grows.mutex mutex⟩
  | opened handle pipe =>
    obtain ⟨baton, held, mutex, own⟩ := fits
    obtain ⟨after, there, grows⟩ := keeps handle baton held
    exact ⟨after, there, grows.mutex mutex, own.trans (congrArg Made.hIn grows.made).symm⟩
  | stored handle =>
    obtain ⟨baton, held, mutex, real⟩ := fits
    obtain ⟨after, there, grows⟩ := keeps handle baton held
    exact ⟨after, there, grows.mutex mutex, grows.real real⟩
  | reading handle pipe =>
    obtain ⟨baton, held, own⟩ := fits
    obtain ⟨after, there, grows⟩ := keeps handle baton held
    exact ⟨after, there, own.trans (congrArg Made.hOut grows.made).symm⟩
  | read_data handle | connecting handle | ended => trivial

theorem Keeps.refl (same : next.ptyHandles = world.ptyHandles) : Keeps world next := by
  intro handle baton held
  exact ⟨baton, by rw [same]; exact held, rfl, id, id⟩

theorem keeps_set {handle : Nat} {baton after : Baton} (held : world.ptyHandles[handle]? = some baton)
    (grows : Grows baton after) (same : next.ptyHandles = world.ptyHandles.set handle after) : Keeps world next := by
  intro other current there
  rw [same, Slots.getElem?_set_found held]
  by_cases here : handle = other
  · subst here
    cases held.symm.trans there
    exact ⟨after, if_pos rfl, grows⟩
  · exact ⟨current, (if_neg here).trans there, rfl, id, id⟩

end Threads

section Steps

structure Sound (fold : Name → Name) (world : World) : Prop where
  wired : Wired fold world
  running : Running world

theorem Running.keep (running : Running world) (keeps : Keeps world next)
    (batons : ∀ (handle : Nat) baton, next.ptyHandles[handle]? = some baton → Ready baton)
    (threads : ∀ (index : Nat) thread, next.threads[index]? = some thread →
      world.threads[index]? = some thread ∨ Fits next thread)
    (wild : next.wild = world.wild) : Running next := by
  refine ⟨batons, ?_, wild.trans running.wild⟩
  intro index thread held
  rcases threads index thread held with old | fits
  · exact (running.threads index thread old).keep keeps
  · exact fits

/-- Steps that touch pipes only. -/
private theorem running_same (running : Running world) (handles : next.ptyHandles = world.ptyHandles)
    (threads : next.threads = world.threads) (wild : next.wild = world.wild) : Running next := by
  refine running.keep (.refl handles) ?_ ?_ wild
  · rw [handles]
    exact running.batons
  · intro index thread held
    rw [threads] at held
    exact .inl held

/-- A pipe is made exactly when the kernel grants it and no other has its name. -/
theorem createDataServerPipe_iff {granted : Bool} {name : Name} :
    world.createDataServerPipe fold granted name = some next ↔
      (granted = true ∧ fold name ∉ world.pipes.map (fold ·.name)) ∧
        next = { world with pipes := world.pipes ++ [{ name := name }] } := by
  have found : (world.pipes.any fun pipe => fold pipe.name = fold name) = true ↔
      fold name ∈ world.pipes.map (fold ·.name) := by
    simp only [List.any_eq_true, decide_eq_true_eq, List.mem_map]
  rw [World.createDataServerPipe, Option.ite_none_left_eq_some, Bool.or_eq_true, found, not_or]
  cases granted with
  | false => simp
  | true => simp [eq_comm]

theorem sound_pipe (sound : Sound fold world) {granted : Bool} {name : Name}
    (created : world.createDataServerPipe fold granted name = some next) : Sound fold next := by
  obtain ⟨⟨_, fresh⟩, rfl⟩ := createDataServerPipe_iff.mp created
  exact ⟨sound.wired.pipe fresh, running_same sound.running rfl rfl rfl⟩

private theorem running_push {fresh : Baton} (running : Running world) (unset : fresh.hRealIn = none)
    (waits : fresh.write_ready = false)
    (handles : next.ptyHandles = world.ptyHandles ++ [fresh]) (threads : next.threads = world.threads)
    (wild : next.wild = world.wild) : Running next := by
  refine running.keep ?_ ?_ ?_ wild
  · intro handle baton held
    have bound := (List.getElem?_eq_some_iff.mp held).1
    refine ⟨baton, ?_, rfl, id, id⟩
    rw [handles]
    exact (List.getElem?_append_left bound).trans held
  · rw [handles]
    refine Slots.forall_append (fun handle baton _ held => running.batons handle baton held) ⟨?_, ?_⟩
    · intro pipe real
      rw [unset] at real
      cases real
    · intro ready
      rw [waits] at ready
      cases ready
  · intro index thread held
    rw [threads] at held
    exact .inl held

private theorem getElem?_first (pipes : List Pipe) (first second : Pipe) :
    (pipes ++ [first] ++ [second])[pipes.length]? = some first := by
  simp

private theorem getElem?_second (pipes : List Pipe) (first second : Pipe) :
    (pipes ++ [first] ++ [second])[pipes.length + 1]? = some second := by
  simp

/-- The counter has not come round. -/
def Room (world : World) : Prop := world.ptyCounter.toNat + 1 < 0x100000000

private theorem counter_next (room : Room world) : (world.ptyCounter + 1).toNat = world.ptyCounter.toNat + 1 := by
  rw [BitVec.toNat_add]
  exact Nat.mod_eq_of_lt room

private theorem sound_spawn (sound : Sound fold world) (room : Room world) (process : Pid) (pipeName : Name)
    (attempt : Attempt) : Sound fold (world.expty_spawn fold process pipeName attempt) := by
  simp only [World.expty_spawn]
  split
  next =>
    split
    next => exact sound
    next first created =>
      have one := sound_pipe sound created
      split
      next => exact one
      next second again =>
        have two := sound_pipe one again
        obtain ⟨_, rfl⟩ := createDataServerPipe_iff.mp created
        obtain ⟨_, rfl⟩ := createDataServerPipe_iff.mp again
        have counted := counter_next room
        split
        · split
          · refine ⟨?_, running_push two.running rfl rfl rfl rfl rfl⟩
            have above (other : Made) (member : other ∈ registry world) : other.hOut < world.pipes.length := by
              obtain ⟨pipe, held, _⟩ := sound.wired.outPipe other member
              exact bound_of_some held
            have pipes : Wiring fold world.ptyCounter (registry world) (world.pipes ++ [_] ++ [_]) world.messages
                world.accepted := two.wired
            have later : world.ptyCounter.toNat < (world.ptyCounter + 1).toNat := by
              rw [counted]
              exact Nat.lt_succ_self _
            have wiring := pipes.session ⟨world.ptyCounter + 1, process, world.pipes.length, world.pipes.length + 1,
              pipe_name pipeName [0x69, 0x6E], pipe_name pipeName [0x6F, 0x75, 0x74]⟩ later above (Nat.lt_succ_self _)
              (getElem?_first world.pipes _ _) rfl rfl (getElem?_second world.pipes _ _) rfl
            rw [Wired, registry, List.map_append]
            exact wiring
          · exact ⟨two.wired.count (by rw [counted]; exact Nat.le_succ _), running_same two.running rfl rfl rfl⟩
        · exact two
  next => exact sound

theorem Wired.same (wired : Wired fold world) (sessions : registry next = registry world)
    (counter : next.ptyCounter = world.ptyCounter) (pipes : next.pipes = world.pipes) (messages : next.messages = world.messages)
    (accepted : next.accepted = world.accepted) : Wired fold next := by
  rw [Wired, sessions, counter, pipes, messages, accepted]
  exact wired

theorem sound_thread (sound : Sound fold world) (index : Nat) {thread : Thread} (fits : Fits world thread) :
    Sound fold (world.set_thread index thread) := by
  refine ⟨sound.wired, sound.running.keep (.refl rfl) sound.running.batons ?_ rfl⟩
  intro other current held
  simp only [World.set_thread, List.getElem?_set] at held
  split at held
  · split at held <;> cases held
    exact .inr fits
  · exact .inl held

theorem sound_baton (sound : Sound fold world) {handle : Nat} {baton after : Baton}
    (held : world.ptyHandles[handle]? = some baton) (grows : Grows baton after) (ready : Ready after) :
    Sound fold (world.set_baton handle after) := by
  refine ⟨sound.wired.same (Slots.map_set_same held grows.made) rfl rfl rfl rfl,
    sound.running.keep (keeps_set held grows rfl) ?_ (fun _ _ held => .inl held) rfl⟩
  refine Slots.forall_set held ready ?_
  intro other current _ there
  exact sound.running.batons other current there

private theorem sound_connect_call (sound : Sound fold world) (id : BitVec 32) : Sound fold (world.expty_pty_connect id) := by
  simp only [World.expty_pty_connect]
  split
  next => exact sound
  next handle found =>
    split
    next => exact sound
    next baton held =>
      have ready := sound.running.batons handle baton held
      have grows : Grows baton { baton with mutex := true } := ⟨rfl, fun _ => rfl, fun real => real⟩
      have set := sound_baton sound held grows ⟨ready.own, fun published => ⟨(ready.published published).1, rfl⟩⟩
      refine ⟨set.wired, set.running.keep (.refl rfl) set.running.batons ?_ rfl⟩
      have writer : Fits (world.set_baton handle { baton with mutex := true }) (.create_write_pipe handle) :=
        ⟨_, by rw [World.set_baton, Slots.getElem?_set_found held, if_pos rfl], rfl⟩
      intro index thread there
      rw [List.append_assoc, List.getElem?_append] at there
      split at there
      · exact .inl there
      · rcases List.mem_pair.mp (List.mem_of_getElem? there) with rfl | rfl
        · exact .inr writer
        · exact .inr trivial

/-- The client end of a pipe is taken. -/
private theorem sound_connect (sound : Sound fold world) (place : Nat) : Sound fold (world.connect place) := by
  simp only [World.connect]
  split
  next pipe held =>
    refine ⟨sound.wired.update held { pipe with client := true } rfl ?_ (fun _ _ _ => rfl) (sound.wired.stream place pipe held)
      (fun _ _ => rfl) sound.wired.messages sound.wired.accepted, running_same sound.running rfl rfl rfl⟩
    intro session member here
    subst here
    obtain ⟨current, there, _, written⟩ := sound.wired.inPipe session member
    cases there.symm.trans held
    exact written
  next => exact sound

private theorem input_own (id : BitVec 32) (data : Binary) :
    input (accepted ++ [(id, data)]) id = input accepted id ++ data := by
  simp [input]

private theorem input_other {id other : BitVec 32} (apart : id ≠ other) (data : Binary) :
    input (accepted ++ [(id, data)]) other = input accepted other := by
  simp [input, apart]

private theorem output_own (process : Pid) (place : Nat) (data : Binary) :
    output (messages ++ [{ process, pipe := place, data }]) place = output messages place ++ data := by
  simp [output]

private theorem output_other (process : Pid) {place other : Nat} (apart : other ≠ place) (data : Binary) :
    output (messages ++ [{ process, pipe := place, data }]) other = output messages other := by
  simp [output, Ne.symm apart]

private theorem sound_write (sound : Sound fold world) (id : BitVec 32) (data : Binary) (dwWritten : Nat) :
    Sound fold (world.expty_write id data dwWritten) := by
  simp only [World.expty_write]
  split
  next => exact sound
  next handle found =>
    split
    next => exact sound
    next baton held =>
      obtain ⟨other, there, same⟩ := get_pty_baton_some found
      cases held.symm.trans there
      subst same
      split
      next published =>
        obtain ⟨real, mutex⟩ := (sound.running.batons handle baton held).published published
        have member := mem_registry held
        obtain ⟨pipe, piped, _, written⟩ : ∃ pipe, world.pipes[baton.hIn]? = some pipe ∧ pipe.name = baton.inName ∧
            pipe.written = input world.accepted baton.id := sound.wired.inPipe _ member
        simp only [mutex, real, World.send, piped]
        have wiring : Wiring fold world.ptyCounter (registry world) (world.pipes.set baton.hIn (pipe.put (data.take dwWritten)))
            world.messages (world.accepted ++ [(baton.id, data.take dwWritten)]) := by
          refine sound.wired.update piped (pipe.put (data.take dwWritten)) rfl ?_ ?_ ?_ (fun _ _ => rfl) sound.wired.messages ?_
          · intro session present here
            obtain rfl := sound.wired.same_in present member here
            exact (congrArg (· ++ data.take dwWritten) written).trans (input_own baton.id _).symm
          · intro session present apart
            apply input_other
            intro number
            exact apart (congrArg Made.hIn (sound.wired.same_id present member number.symm))
          · rw [Pipe.put_written, sound.wired.stream _ pipe piped, List.append_assoc, Pipe.put_unread]
          · exact List.forall_mem_append.mpr ⟨sound.wired.accepted, List.forall_mem_singleton.mpr ⟨_, member, rfl⟩⟩
        exact ⟨wiring, running_same sound.running rfl rfl rfl⟩
      next => exact sound

/-- No session is written to through the output pipe of a baton. -/
private theorem Sound.apart (sound : Sound fold world) {handle : Nat} {baton : Baton}
    (held : world.ptyHandles[handle]? = some baton) {session : Made} (member : session ∈ registry world) :
    session.hIn ≠ baton.hOut := sound.wired.in_ne_out member (mem_registry held)

/-- The program behind a console prints into its own output pipe. -/
private theorem sound_console (sound : Sound fold world) {handle : Nat} {baton : Baton}
    (held : world.ptyHandles[handle]? = some baton) (data : Binary) : Sound fold (world.send baton.hOut data) := by
  simp only [World.send]
  split
  next pipe there =>
    have wiring : Wiring fold world.ptyCounter (registry world) (world.pipes.set baton.hOut (pipe.put data)) world.messages
        world.accepted := by
      refine sound.wired.update there (pipe.put data) rfl ?_ (fun _ _ _ => rfl) ?_ (fun _ _ => rfl) sound.wired.messages
        sound.wired.accepted
      · intro session member here
        exact absurd here (sound.apart held member)
      · rw [Pipe.put_written, sound.wired.stream _ pipe there, List.append_assoc, Pipe.put_unread]
    exact ⟨wiring, running_same sound.running rfl rfl rfl⟩
  next => exact sound

private theorem sound_read (sound : Sound fold world) {handle : Nat} {baton : Baton} {pipe : Pipe}
    (held : world.ptyHandles[handle]? = some baton) (piped : world.pipes[baton.hOut]? = some pipe) (dwRead : Nat) :
    Sound fold
      { world.set_pipe baton.hOut { pipe with unread := pipe.unread.drop dwRead } with
        messages := world.messages ++ [{ process := baton.process, pipe := baton.hOut, data := pipe.unread.take dwRead }] } := by
  have stream := sound.wired.stream baton.hOut pipe piped
  have wiring : Wiring fold world.ptyCounter (registry world)
      (world.pipes.set baton.hOut { pipe with unread := pipe.unread.drop dwRead })
      (world.messages ++ [{ process := baton.process, pipe := baton.hOut, data := pipe.unread.take dwRead }])
      world.accepted := by
    refine sound.wired.update piped { pipe with unread := pipe.unread.drop dwRead } rfl ?_ (fun _ _ _ => rfl) ?_ ?_ ?_
      sound.wired.accepted
    · intro session member here
      exact absurd here (sound.apart held member)
    · rw [output_own, stream, List.append_assoc, List.take_append_drop]
    · intro other apart
      exact output_other _ apart _
    · exact List.forall_mem_append.mpr
        ⟨sound.wired.messages, List.forall_mem_singleton.mpr ⟨_, mem_registry held, rfl, rfl⟩⟩
  exact ⟨wiring, running_same sound.running rfl rfl rfl⟩

private theorem fits_connect {thread : Thread} (fits : Fits world thread) (place : Nat) : Fits (world.connect place) thread := by
  apply fits.keep
  simp only [World.connect]
  split <;> exact .refl rfl

private theorem sound_advance (sound : Sound fold world) {index dwRead : Nat} {thread : Thread} (fits : Fits world thread)
    (taken : world.advance fold index dwRead thread = some next) : Sound fold next := by
  cases thread with
  | create_write_pipe handle =>
    obtain ⟨baton, held, mutex⟩ := fits
    simp only [World.advance, held] at taken
    split at taken
    · cases taken
      exact sound_thread sound index trivial
    · obtain ⟨place, opened, rfl⟩ := Option.map_eq_some_iff.mp taken
      obtain ⟨pipe, piped, name, _⟩ := sound.wired.inPipe _ (mem_registry held)
      have own : place = baton.hIn := open_pipe_own sound.wired.names piped (by rw [name]; exact opened)
      have fits : Fits world (.opened handle place) := ⟨baton, held, mutex, own⟩
      exact sound_thread (sound_connect sound place) index (fits_connect fits place)
  | opened handle place =>
    obtain ⟨baton, held, mutex, rfl⟩ := fits
    simp only [World.advance, held, Option.map_some, Option.some.injEq] at taken
    subst taken
    have ready := sound.running.batons handle baton held
    have grows : Grows baton { baton with hRealIn := some baton.hIn } := ⟨rfl, id, fun _ => rfl⟩
    have set := sound_baton sound held grows ⟨fun _ same => (Option.some.inj same).symm, fun published =>
      ⟨rfl, (ready.published published).2⟩⟩
    have fits : Fits (world.set_baton handle { baton with hRealIn := some baton.hIn }) (.stored handle) :=
      ⟨{ baton with hRealIn := some baton.hIn }, by rw [World.set_baton, Slots.getElem?_set_found held, if_pos rfl], mutex, rfl⟩
    exact sound_thread set index fits
  | stored handle =>
    obtain ⟨baton, held, mutex, real⟩ := fits
    simp only [World.advance, held, Option.map_some, Option.some.injEq] at taken
    subst taken
    have ready := sound.running.batons handle baton held
    have grows : Grows baton { baton with write_ready := true } := ⟨rfl, id, id⟩
    exact sound_thread (sound_baton sound held grows ⟨ready.own, fun _ => ⟨real, mutex⟩⟩) index trivial
  | connecting handle =>
    simp only [World.advance] at taken
    split at taken
    · cases taken
    · split at taken
      · split at taken <;> cases taken
        exact sound_thread sound index trivial
      · cases taken
  | read_data handle =>
    simp only [World.advance] at taken
    split at taken
    · cases taken
    · next baton held =>
      obtain ⟨place, opened, rfl⟩ := Option.map_eq_some_iff.mp taken
      obtain ⟨pipe, piped, name⟩ := sound.wired.outPipe _ (mem_registry held)
      have own : place = baton.hOut := open_pipe_own sound.wired.names piped (by rw [name]; exact opened)
      have fits : Fits world (.reading handle place) := ⟨baton, held, own⟩
      exact sound_thread (sound_connect sound place) index (fits_connect fits place)
  | reading handle place =>
    obtain ⟨baton, held, rfl⟩ := fits
    cases piped : world.pipes[baton.hOut]? with
    | none =>
      simp only [World.advance, held, piped] at taken
      cases taken
    | some pipe =>
      simp only [World.advance, held, piped, Option.ite_none_right_eq_some, Option.some.injEq] at taken
      rw [← taken.2]
      exact sound_read sound held piped dwRead
  | ended => cases taken

def allowed (world : World) : Event → Prop
  | .expty_spawn .. => Room world
  | _ => True

theorem sound_step (sound : Sound fold world) {event : Event} (room : allowed world event)
    (taken : world.step fold event = some next) : Sound fold next := by
  cases event with
  | expty_spawn process pipeName attempt =>
    cases taken
    exact sound_spawn sound room process pipeName attempt
  | expty_pty_connect id =>
    cases taken
    exact sound_connect_call sound id
  | expty_write id data dwWritten =>
    cases taken
    exact sound_write sound id data dwWritten
  | thread index dwRead =>
    obtain ⟨thread, held, advanced⟩ := Option.bind_eq_some_iff.mp taken
    exact sound_advance sound (sound.running.threads index thread held) advanced
  | console handle data =>
    obtain ⟨baton, held, rfl⟩ := Option.map_eq_some_iff.mp taken
    exact sound_console sound held data

theorem sound_start : Sound fold {} :=
  { wired :=
      { names := .nil, order := .nil, counted := fun _ member => absurd member List.not_mem_nil
        inPipe := fun _ member => absurd member List.not_mem_nil, outPipe := fun _ member => absurd member List.not_mem_nil
        stream := fun _ _ held => absurd held.symm (Option.some_ne_none _)
        messages := fun _ member => absurd member List.not_mem_nil
        accepted := fun _ member => absurd member List.not_mem_nil }
    running :=
      { batons := fun _ _ held => absurd held.symm (Option.some_ne_none _)
        threads := fun _ _ held => absurd held.symm (Option.some_ne_none _), wild := rfl } }

end Steps

section Counter

def spawns : Event → Bool
  | .expty_spawn .. => true
  | _ => false

/-- What no event but a spawn changes. -/
structure Laid (world next : World) : Prop where
  counter : next.ptyCounter = world.ptyCounter
  names : next.pipes.map Pipe.name = world.pipes.map Pipe.name

private theorem laid_pipe {place : Nat} {pipe after : Pipe} (held : world.pipes[place]? = some pipe)
    (same : after.name = pipe.name) : Laid world (world.set_pipe place after) :=
  ⟨rfl, Slots.map_set_same held same⟩

private theorem laid_connect (place : Nat) : Laid world (world.connect place) := by
  unfold World.connect
  cases held : world.pipes[place]? with
  | none => exact ⟨rfl, rfl⟩
  | some pipe => exact laid_pipe held rfl

private theorem laid_send (place : Nat) (data : Binary) : Laid world (world.send place data) := by
  unfold World.send
  cases held : world.pipes[place]? with
  | none => exact ⟨rfl, rfl⟩
  | some pipe => exact laid_pipe held rfl

private theorem advance_laid {index dwRead : Nat} {thread : Thread}
    (taken : world.advance fold index dwRead thread = some next) : Laid world next := by
  cases thread with
  | create_write_pipe handle =>
    simp only [World.advance] at taken
    split at taken
    · cases taken
    · split at taken
      · cases taken
        exact ⟨rfl, rfl⟩
      · obtain ⟨place, _, rfl⟩ := Option.map_eq_some_iff.mp taken
        obtain ⟨counter, names⟩ := @laid_connect world place
        exact ⟨counter, names⟩
  | opened handle place | stored handle =>
    obtain ⟨baton, _, rfl⟩ := Option.map_eq_some_iff.mp taken
    exact ⟨rfl, rfl⟩
  | connecting handle =>
    simp only [World.advance] at taken
    split at taken
    · cases taken
    · split at taken
      · split at taken <;> cases taken
        exact ⟨rfl, rfl⟩
      · cases taken
  | read_data handle =>
    simp only [World.advance] at taken
    split at taken
    · cases taken
    · obtain ⟨place, _, rfl⟩ := Option.map_eq_some_iff.mp taken
      obtain ⟨counter, names⟩ := @laid_connect world place
      exact ⟨counter, names⟩
  | reading handle place =>
    simp only [World.advance] at taken
    split at taken
    next baton pipe _ held =>
      split at taken <;> cases taken
      exact ⟨rfl, Slots.map_set_same held rfl⟩
    next => cases taken
  | ended => cases taken

theorem event_laid {event : Event} (other : spawns event = false) (taken : world.step fold event = some next) :
    Laid world next := by
  cases event with
  | expty_spawn => cases other
  | expty_pty_connect id =>
    cases taken
    simp only [World.expty_pty_connect]
    split
    · exact ⟨rfl, rfl⟩
    · split <;> exact ⟨rfl, rfl⟩
  | expty_write id data dwWritten =>
    cases taken
    simp only [World.expty_write]
    split
    · exact ⟨rfl, rfl⟩
    · split
      · exact ⟨rfl, rfl⟩
      · split
        · split
          next pipe _ _ =>
            obtain ⟨counter, names⟩ := @laid_send world pipe (data.take dwWritten)
            exact ⟨counter, names⟩
          next => exact ⟨rfl, rfl⟩
        · exact ⟨rfl, rfl⟩
  | thread index dwRead =>
    obtain ⟨thread, _, advanced⟩ := Option.bind_eq_some_iff.mp taken
    exact advance_laid advanced
  | console handle data =>
    obtain ⟨baton, _, rfl⟩ := Option.map_eq_some_iff.mp taken
    exact laid_send baton.hOut data

private theorem spawn_counter (process : Pid) (pipeName : Name) (attempt : Attempt) :
    (world.expty_spawn fold process pipeName attempt).ptyCounter.toNat ≤ world.ptyCounter.toNat + 1 := by
  have next : (world.ptyCounter + 1).toNat ≤ world.ptyCounter.toNat + 1 := by
    rw [BitVec.toNat_add]
    exact Nat.mod_le _ _
  simp only [World.expty_spawn]
  split
  · split
    · exact Nat.le_succ _
    next first created =>
      obtain ⟨_, rfl⟩ := createDataServerPipe_iff.mp created
      split
      · exact Nat.le_succ _
      next second again =>
        obtain ⟨_, rfl⟩ := createDataServerPipe_iff.mp again
        split
        · split
          · exact next
          · exact next
        · exact Nat.le_succ _
  · exact Nat.le_succ _

theorem counter_step {event : Event} (taken : world.step fold event = some next) :
    next.ptyCounter.toNat ≤ world.ptyCounter.toNat + if spawns event then 1 else 0 := by
  cases event with
  | expty_spawn process pipeName attempt =>
    cases taken
    exact spawn_counter process pipeName attempt
  | expty_pty_connect | expty_write | thread | console =>
    rw [(event_laid rfl taken).counter]
    exact Nat.le_refl _

/-- So few spawns do not bring the counter round. -/
theorem along_room (events : List Event) (few : world.ptyCounter.toNat + events.countP spawns < 0x100000000) :
    Along (World.step fold) allowed world events := by
  induction events generalizing world with
  | nil => exact along_nil
  | cons event rest ih =>
    refine along_cons.mpr fun next taken => ?_
    have count := counter_step taken
    rw [List.countP_cons] at few
    refine ⟨?_, ih (by omega)⟩
    cases event with
    | expty_spawn process pipeName attempt =>
      have one : spawns (.expty_spawn process pipeName attempt) = true := rfl
      rw [if_pos one] at few
      simp only [allowed, Room]
      omega
    | expty_pty_connect | expty_write | thread | console => trivial

end Counter

/-- A session's id, pipes and messages are its own. -/
structure Isolated (world : World) : Prop where
  found : ∀ (handle : Nat) baton, world.ptyHandles[handle]? = some baton → world.get_pty_baton baton.id = some handle
  input : ∀ baton ∈ world.ptyHandles, ∃ pipe, world.pipes[baton.hIn]? = some pipe ∧
    pipe.written = input world.accepted baton.id
  output : ∀ baton ∈ world.ptyHandles, ∃ pipe, world.pipes[baton.hOut]? = some pipe ∧
    pipe.written = output world.messages baton.hOut ++ pipe.unread
  owner : ∀ baton ∈ world.ptyHandles, ∀ message ∈ world.messages, message.pipe = baton.hOut →
    message.process = baton.process
  sender : ∀ message ∈ world.messages, ∃ baton ∈ world.ptyHandles, message.pipe = baton.hOut
  wild : world.wild = 0

theorem Sound.isolated (sound : Sound fold world) : Isolated world := by
  have member {baton : Baton} (held : baton ∈ world.ptyHandles) : made baton ∈ registry world := List.mem_map_of_mem held
  refine ⟨fun _ _ => get_pty_baton_own sound.wired, ?_, ?_, ?_, ?_, sound.running.wild⟩
  · intro baton held
    obtain ⟨pipe, piped, _, written⟩ := sound.wired.inPipe _ (member held)
    exact ⟨pipe, piped, written⟩
  · intro baton held
    obtain ⟨pipe, piped, _⟩ := sound.wired.outPipe _ (member held)
    exact ⟨pipe, piped, sound.wired.stream _ pipe piped⟩
  · intro baton held message sent same
    obtain ⟨session, known, process, place⟩ := sound.wired.messages message sent
    obtain rfl := sound.wired.same_out known (member held) (place.symm.trans same)
    exact process
  · intro message sent
    obtain ⟨session, known, _, place⟩ := sound.wired.messages message sent
    obtain ⟨baton, held, rfl⟩ := List.mem_map.mp known
    exact ⟨baton, held, place⟩

/-- In every run with fewer than 2^32 spawns, whatever the order of all calls and threads and
whatever names are asked for, each session keeps its own id, each byte written under an id
goes into that session's pipe in order, each byte that a console prints is sent once and in
order to the process that spawned it, and no write comes before what it needs is there. -/
theorem sessions_isolated (fold : Name → Name) (events : List Event) (few : events.countP spawns < 0x100000000) :
    Always (World.step fold) Isolated {} events := by
  have along : Along (World.step fold) allowed {} events := along_room events (by rw [Nat.add_comm]; exact few)
  have always : Always (World.step fold) (Sound fold) {} events :=
    Always.of_along (fun _ _ _ holds room taken => sound_step holds room taken) sound_start along
  exact always.mono fun _ sound => sound.isolated

/-- Two sessions of two processes, the second asking for the name of the first one at first and
then for a shell that is not there. -/
def twoConsoles : List Event :=
  [.expty_spawn 7 [0x61] {}, .expty_spawn 8 [0x61] {}, .expty_spawn 8 [0x62] { begins := false }, .expty_spawn 8 [0x62] {},
    .expty_pty_connect 2, .expty_pty_connect 1, .thread 0 0, .thread 2 0, .thread 2 0, .thread 0 0, .expty_write 2 [0x78] 1,
    .thread 0 0, .thread 2 0, .expty_write 2 [0x79] 1, .expty_write 1 [0x7A] 1, .thread 1 0, .thread 1 0,
    .console 1 [0x6F, 0x6B], .thread 1 2]

theorem two_consoles_apart :
    ∃ final, exec (World.step id) {} twoConsoles = some final ∧ Isolated final ∧
      final.messages = [{ process := 8, pipe := 3, data := [0x6F, 0x6B] }] ∧ final.accepted = [(2, [0x79]), (1, [0x7A])] :=
  ⟨_, rfl, (sessions_isolated id twoConsoles (by decide)).final rfl, rfl, rfl⟩

end ExPTY.Proofs.ConsoleIsolation
