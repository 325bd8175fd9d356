import ExPTY.Processes
import ExPTY.Slots

/-! Which process a signal reaches. The kernel keeps a pid for its child until the
waiter's `waitpid` returns, and no sender asks whether it has. Everything else about
the three senders is harmless: the pid they use is always one the library was given
for the session they mean. -/

namespace ExPTY.Proofs.SignalSafety
open Runs Processes

/-- Every signal went to the child of the session it was meant for, not yet reaped. -/
def Safe (world : World) : Prop := ∀ kill ∈ world.kills, kill.target = some (.child kill.session)

def Waiting (world : World) (index : Nat) : Prop :=
  ∀ session, world.sessions[index]? = some session → session.waiter.returned = false

/-- Whoever is about to send a signal finds the session's waiter not yet past `waitpid`. -/
def InTime (world : World) : Event → Prop
  | .hangup index => Waiting world index
  | .kill index _ => Waiting world index
  | .cleanup_next pid => ∀ index, world.processes.lookup pid = some index → Waiting world index
  | _ => True

structure Known (world : World) : Prop where
  owner : ∀ index session, world.sessions[index]? = some session →
    (world.kernel session.pid = some (.child index) ↔ session.waiter.returned = false)
  launched : ∀ (index : Nat) session, world.sessions[index]? = some session →
    session.spawner = .launched → session.waiter = .absent
  table : ∀ entry ∈ world.processes, ∃ session, world.sessions[entry.2]? = some session ∧ session.pid = entry.1

theorem within_eq_some {world next : World} {index : Nat} {ready : Session → Bool} {act : Session → World} :
    world.within index ready act = some next ↔
      ∃ session, world.sessions[index]? = some session ∧ ready session = true ∧ act session = next := by
  simp only [World.within, Option.bind_eq_some_iff, Option.ite_none_right_eq_some, Option.some.injEq]

section Steps
variable {world : World} {index : Nat} {session session' : Session}

theorem Known.waiting_launched (known : Known world) (found : world.sessions[index]? = some session)
    (started : session.waiter ≠ .absent) : session.spawner ≠ .launched :=
  fun launched => started (known.launched index session found launched)

private theorem table_set (known : Known world) (found : world.sessions[index]? = some session)
    (pid : session'.pid = session.pid) : ∀ entry ∈ world.processes,
      ∃ current, (world.sessions.set index session')[entry.2]? = some current ∧ current.pid = entry.1 := by
  intro entry member
  obtain ⟨current, held, same⟩ := known.table entry member
  by_cases own : index = entry.2
  · refine ⟨session', by rw [Slots.getElem?_set_found found, if_pos own], ?_⟩
    rw [own, held] at found
    cases found
    exact pid.trans same
  · exact ⟨current, by rw [Slots.getElem?_set_found found, if_neg own]; exact held, same⟩

/-- A step that changes neither a pid nor whether a waiter has returned. -/
theorem Known.set (known : Known world) (found : world.sessions[index]? = some session) (pid : session'.pid = session.pid)
    (returned : session'.waiter.returned = session.waiter.returned)
    (launched : session'.spawner = .launched → session'.waiter = .absent) :
    Known (world.setSession index session') := by
  refine ⟨?_, ?_, table_set known found pid⟩
  · refine Slots.forall_set found ?_ fun other current _ held => known.owner other current held
    rw [pid, returned]
    exact known.owner index session found
  · exact Slots.forall_set found launched fun other current _ held => known.launched other current held

theorem Known.signal (known : Known world) (index : Nat) (pid : Pid) (signal : Int) :
    Known (world.signal index pid signal) := ⟨known.owner, known.launched, known.table⟩

theorem Known.erase (known : Known world) (pid : Pid) : Known (world.erase pid) :=
  ⟨known.owner, known.launched, fun entry member => known.table entry (List.mem_filter.mp member).1⟩

theorem Known.insert (known : Known world) (found : world.sessions[index]? = some session) :
    Known (world.insert session.pid index) := by
  refine ⟨known.owner, known.launched, ?_⟩
  intro entry member
  rcases List.mem_cons.mp member with rfl | member
  · exact ⟨session, found, rfl⟩
  · exact (known.erase session.pid).table entry member

theorem Known.posix_spawn (known : Known world) {pid : Pid} (free : world.kernel pid = none) :
    Known { world.setKernel pid (some (.child world.sessions.length)) with sessions := world.sessions ++ [{ pid := pid }] } := by
  refine ⟨?_, ?_, ?_⟩
  · apply Slots.forall_append
    · intro other current bound held
      simp only [World.setKernel]
      split
      next same =>
        have free : world.kernel current.pid = none := same ▸ free
        have owner := known.owner other current held
        rw [free] at owner
        have distinct : world.sessions.length ≠ other := by omega
        simpa [distinct] using owner
      next => exact known.owner other current held
    · simp [World.setKernel, Waiter.returned]
  · apply Slots.forall_append
    · exact fun other current _ held => known.launched other current held
    · exact fun _ => rfl
  · intro entry member
    obtain ⟨current, held, same⟩ := known.table entry member
    exact ⟨current, by rw [List.getElem?_append_left (List.getElem?_eq_some_iff.mp held).1]; exact held, same⟩

/-- The pid is free from here on, and it was nobody else's. -/
theorem Known.waitpid (known : Known world) (found : world.sessions[index]? = some session)
    (waiting : session.waiter = .waiting) :
    Known ((world.setKernel session.pid none).setSession index { session with waiter := .reaped }) := by
  have owned := (known.owner index session found).mpr (by rw [waiting]; rfl)
  have started := known.waiting_launched found (by rw [waiting]; nofun)
  refine ⟨?_, ?_, table_set known found rfl⟩
  · refine Slots.forall_set found ?_ ?_
    · simp [World.setSession, World.setKernel, Waiter.returned]
    · intro other current different held
      rw [← known.owner other current held]
      simp only [World.setSession, World.setKernel]
      split
      next same => simp [same, owned, different]
      next => rfl
  · refine Slots.forall_set found ?_ ?_
    · exact fun launched => absurd launched started
    · exact fun other current _ held => known.launched other current held

theorem Known.setKernel (known : Known world) {pid : Pid} {owner : Option Owner} (before : world.kernel pid = none ∨
    world.kernel pid = some .foreign) (after : owner = none ∨ owner = some .foreign) :
    Known (world.setKernel pid owner) := by
  refine ⟨?_, known.launched, known.table⟩
  intro other current held
  rw [← known.owner other current held]
  simp only [World.setKernel]
  split
  next same => rcases before with before | before <;> rcases after with after | after <;> simp [same, before, after]
  next => rfl

end Steps

theorem step_known {world next : World} {event : Event} (known : Known world) (taken : world.step event = some next) :
    Known next := by
  cases event with
  | posix_spawn pid =>
    simp only [World.step] at taken
    split at taken <;> cases taken
    exact known.posix_spawn (by assumption)
  | helper_error index =>
    obtain ⟨session, found, _, rfl⟩ := within_eq_some.mp taken
    exact known.set found rfl rfl (nomatch ·)
  | late_error index =>
    obtain ⟨session, found, _, rfl⟩ := within_eq_some.mp taken
    exact (known.signal index session.pid SIGKILL).set found rfl rfl (nomatch ·)
  | create_waiter index =>
    obtain ⟨session, found, ready, rfl⟩ := within_eq_some.mp taken
    have absent := known.launched index session found (of_decide_eq_true ready)
    exact known.set found rfl (by rw [absent]; rfl) (nomatch ·)
  | create_reader index =>
    obtain ⟨session, found, _, rfl⟩ := within_eq_some.mp taken
    exact known.set found rfl rfl (nomatch ·)
  | register index =>
    obtain ⟨session, found, _, rfl⟩ := within_eq_some.mp taken
    exact (known.insert found).set found rfl rfl (nomatch ·)
  | child_exit index | end_of_file index =>
    obtain ⟨session, found, _, rfl⟩ := within_eq_some.mp taken
    exact known.set found rfl rfl (known.launched index session found)
  | waitpid index =>
    obtain ⟨session, found, ready, rfl⟩ := within_eq_some.mp taken
    exact known.waitpid found (of_decide_eq_true ready).1
  | send_exit index =>
    obtain ⟨session, found, ready, rfl⟩ := within_eq_some.mp taken
    have reaped : session.waiter = .reaped := of_decide_eq_true ready
    have started := known.waiting_launched found (by rw [reaped]; nofun)
    exact known.set found rfl (by rw [reaped]; rfl) fun launched => absurd launched started
  | waiter_erase index =>
    obtain ⟨session, found, ready, rfl⟩ := within_eq_some.mp taken
    have sent : session.waiter = .sent := of_decide_eq_true ready
    have started := known.waiting_launched found (by rw [sent]; nofun)
    exact (known.erase session.pid).set found rfl (by rw [sent]; rfl) fun launched => absurd launched started
  | hangup index =>
    obtain ⟨session, found, _, rfl⟩ := within_eq_some.mp taken
    exact (known.signal index session.pid SIGHUP).set found rfl rfl (known.launched index session found)
  | kill index signal =>
    obtain ⟨session, found, _, rfl⟩ := within_eq_some.mp taken
    exact (known.signal index session.pid signal).set found rfl rfl (known.launched index session found)
  | kill_erase index =>
    obtain ⟨session, found, _, rfl⟩ := within_eq_some.mp taken
    exact (known.erase session.pid).set found rfl rfl (known.launched index session found)
  | cleanup =>
    simp only [World.step] at taken
    split at taken <;> cases taken
    exact ⟨known.owner, known.launched, known.table⟩
  | cleanup_next pid =>
    simp only [World.step] at taken
    split at taken <;> try contradiction
    split at taken <;> cases taken
    exact ⟨known.owner, known.launched, known.table⟩
  | foreign_spawn pid =>
    simp only [World.step] at taken
    split at taken <;> cases taken
    exact known.setKernel (Or.inl (by assumption)) (Or.inr rfl)
  | foreign_exit pid =>
    simp only [World.step] at taken
    split at taken <;> cases taken
    exact known.setKernel (Or.inr (by assumption)) (Or.inl rfl)

private theorem safe_signal {world : World} (safe : Safe world) {next : World} {index : Nat} {pid : Pid} {signal : Int}
    (kills : next.kills = (world.signal index pid signal).kills) :
    Safe next ↔ world.kernel pid = some (.child index) := by
  simp only [Safe, kills, World.signal, List.forall_mem_append, List.forall_mem_singleton]
  exact and_iff_right safe

private theorem safe_same {world next : World} (safe : Safe world) (kills : next.kills = world.kills) : Safe next := by
  unfold Safe
  rw [kills]
  exact safe

private theorem waiting_iff {world : World} {index : Nat} {session : Session}
    (found : world.sessions[index]? = some session) : Waiting world index ↔ session.waiter.returned = false := by
  simp [Waiting, found]

theorem safe_iff_inTime {world next : World} {event : Event} (known : Known world) (safe : Safe world)
    (taken : world.step event = some next) : Safe next ↔ InTime world event := by
  cases event with
  | kill index signal =>
    obtain ⟨session, found, _, rfl⟩ := within_eq_some.mp taken
    rw [InTime, waiting_iff found, ← known.owner index session found]
    exact safe_signal safe rfl
  | hangup index =>
    obtain ⟨session, found, _, rfl⟩ := within_eq_some.mp taken
    rw [InTime, waiting_iff found, ← known.owner index session found]
    exact safe_signal safe rfl
  | late_error index =>
    -- no waiter exists yet, so that this signal cannot come late
    obtain ⟨session, found, ready, rfl⟩ := within_eq_some.mp taken
    have absent := known.launched index session found (of_decide_eq_true ready)
    have own := (known.owner index session found).mpr (by rw [absent]; rfl)
    exact iff_of_true ((safe_signal safe rfl).mpr own) trivial
  | cleanup_next pid =>
    simp only [World.step] at taken
    split at taken <;> try contradiction
    next last index _ entry =>
    split at taken <;> cases taken
    obtain ⟨before, after, split, _⟩ := List.lookup_eq_some_iff.mp entry
    obtain ⟨session, found, same⟩ := known.table (pid, index) (by rw [split]; exact List.mem_append_right _ (.head _))
    simp only [InTime, entry, Option.some.injEq, forall_eq']
    rw [waiting_iff found, ← known.owner index session found, same]
    exact safe_signal safe rfl
  | posix_spawn pid | foreign_spawn pid | foreign_exit pid | cleanup =>
    simp only [World.step] at taken
    split at taken <;> cases taken
    exact iff_of_true (safe_same safe rfl) trivial
  | _ =>
    obtain ⟨session, found, _, rfl⟩ := within_eq_some.mp taken
    exact iff_of_true (safe_same safe rfl) trivial

theorem start_known : Known {} := by
  refine ⟨?_, ?_, ?_⟩
  · intro index session held
    cases held
  · intro index session held
    cases held
  · intro entry member
    cases member

/-- In every run, every signal reaches the unreaped child it is meant for exactly when
none is sent for a session whose waiter has returned from `waitpid`. -/
theorem kills_safe_iff (events : List Event) :
    Always World.step Safe {} events ↔ Along World.step InTime {} events := by
  apply always_iff_along Known
  · intro world event next known taken
    exact step_known known taken
  · intro world event next known safe taken
    exact safe_iff_inTime known safe taken
  · exact start_known
  · intro kill member
    cases member

/-- `ExPTY.kill` on a session that has ended, after another program was given its pid. -/
def lateKill : List Event :=
  [.posix_spawn 7, .create_waiter 0, .create_reader 0, .register 0, .child_exit 0, .waitpid 0, .send_exit 0,
    .waiter_erase 0, .foreign_spawn 7, .kill 0 9]

theorem late_kill_hits_stranger :
    ∃ final, exec World.step {} lateKill = some final ∧ final.kills = [⟨0, 9, some .foreign⟩] ∧
      ¬ Always World.step Safe {} lateKill := by
  refine ⟨_, rfl, rfl, ?_⟩
  intro always
  have target := always.final rfl ⟨0, 9, some .foreign⟩ (List.mem_singleton.mpr rfl)
  cases target

end ExPTY.Proofs.SignalSafety
