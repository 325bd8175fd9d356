import ExPTY.Proofs.SignalSafety
import Mathlib.Algebra.Order.BigOperators.Group.List
import Mathlib.Algebra.Order.Group.Nat
import Mathlib.Data.Nat.Find

/-! The map `processes` against the children that are still there. The map is kept by
four threads in turn, so the account is made for every state and read off where all of
them rest. The destructor then has the right pids, and the kernel's word that they are
still the right children. -/

namespace ExPTY.Proofs.ProcessTable
open Runs Processes SignalSafety

/-- No `expty_spawn`, no `expty_kill` and no waiter is between its first and its last
step. A waiter that has not returned from `waitpid` has not taken its first. -/
def Quiet (world : World) : Prop :=
  ∀ (index : Nat) session, world.sessions[index]? = some session →
    (session.spawner = .failed ∨ session.spawner = .returned) ∧
      session.waiter ≠ .reaped ∧ session.waiter ≠ .sent ∧ session.killing = false

/-- The keys are the children that were spawned and not yet reaped, and each is mapped
to its own session. -/
def Agreed (world : World) : Prop :=
  ∀ pid index, (pid, index) ∈ world.processes ↔
    ∃ session, world.sessions[index]? = some session ∧ session.pid = pid ∧ session.waiter.returned = false

def Swept (world : World) (pids : List Pid) (final : World) : Prop :=
  exec World.step world (.cleanup :: pids.map .cleanup_next) = some final ∧
    ∀ pid, final.step (.cleanup_next pid) = none

/-- What the destructor sends: SIGTERM to each unreaped child, and nothing to anything else. -/
structure Terminates (world : World) : Prop where
  ends : ∃ pids final, Swept world pids final
  sends : ∀ pids final, Swept world pids final → ∃ sent, final.kills = world.kills ++ sent ∧
    (∀ kill ∈ sent, kill.signal = SIGTERM ∧ kill.target = some (.child kill.session)) ∧
    ∀ (index : Nat) session, world.sessions[index]? = some session →
      (session.waiter.returned = false ↔ ∃ kill ∈ sent, kill.session = index)

structure Settled (world : World) : Prop where
  table : Agreed world
  destructor : world.cleanup = none → Terminates world

/-- No entry under the pid is that of an unreaped child. -/
def Vacant (world : World) (pid : Pid) : Prop :=
  ∀ index session, (pid, index) ∈ world.processes → world.sessions[index]? = some session →
    session.waiter.returned = true

/-- A spawn that has a child becomes a session, its entry is made before the waiter has
erased it, and whatever erases or replaces an entry finds none of an unreaped child. -/
def Orderly (world : World) : Event → Prop
  | .helper_error _ | .late_error _ => False
  | .register index => ∀ session, world.sessions[index]? = some session →
      session.waiter ≠ .erased ∧
        ∀ other current, other ≠ index → (session.pid, other) ∈ world.processes →
          world.sessions[other]? = some current → current.waiter.returned = true
  | .waiter_erase index | .kill_erase index => ∀ session, world.sessions[index]? = some session →
      Vacant world session.pid
  | _ => True

/-- An entry names a session that `expty_spawn` has returned and whose waiter is not done. -/
def Registered (sessions : List Session) (entry : Pid × Nat) : Prop :=
  ∃ session, sessions[entry.2]? = some session ∧ session.pid = entry.1 ∧
    session.spawner = .returned ∧ session.waiter ≠ .erased

structure Table (world : World) : Prop where
  entered : ∀ (index : Nat) session, world.sessions[index]? = some session → session.spawner = .returned →
    session.waiter.returned = false → (session.pid, index) ∈ world.processes
  kept : ∀ entry ∈ world.processes, Registered world.sessions entry
  spawned : ∀ (index : Nat) session, world.sessions[index]? = some session → session.spawner ≠ .failed

section Steps
variable {world : World} {index : Nat} {session session' : Session}

private theorem registered_set (found : world.sessions[index]? = some session) {entry : Pid × Nat}
    (registered : Registered world.sessions entry)
    (own : entry.2 = index → session.pid = entry.1 → session.spawner = .returned → session.waiter ≠ .erased →
      session'.pid = session.pid ∧ session'.spawner = .returned ∧ session'.waiter ≠ .erased) :
    Registered (world.sessions.set index session') entry := by
  obtain ⟨current, held, same, returned, present⟩ := registered
  by_cases here : index = entry.2
  · subst here
    cases found.symm.trans held
    obtain ⟨pid, spawner, waiter⟩ := own rfl same returned present
    exact ⟨session', by rw [Slots.getElem?_set_found found, if_pos rfl], pid.trans same, spawner, waiter⟩
  · exact ⟨current, by rw [Slots.getElem?_set_found found, if_neg here]; exact held, same, returned, present⟩

/-- A step that neither touches the map nor takes a session across one of its borders. -/
theorem Table.set (table : Table world) (found : world.sessions[index]? = some session)
    (pid : session'.pid = session.pid) (spawned : session'.spawner ≠ .failed)
    (returned : session'.spawner = .returned ↔ session.spawner = .returned)
    (unreaped : session'.waiter.returned = false → session'.spawner = .returned → session.waiter.returned = false)
    (erased : session'.waiter = .erased → session.waiter = .erased) : Table (world.setSession index session') := by
  refine ⟨?_, ?_, ?_⟩
  · refine Slots.forall_set found ?_ fun other current _ held => table.entered other current held
    intro done waiting
    rw [pid]
    exact table.entered index session found (returned.mp done) (unreaped waiting done)
  · refine fun entry member => registered_set found (table.kept entry member) ?_
    exact fun _ _ done present => ⟨pid, returned.mpr done, fun gone => present (erased gone)⟩
  · exact Slots.forall_set found spawned fun other current _ held => table.spawned other current held

theorem Table.signal (table : Table world) (index : Nat) (pid : Pid) (signal : Int) :
    Table (world.signal index pid signal) := ⟨table.entered, table.kept, table.spawned⟩

theorem Table.setKernel (table : Table world) (pid : Pid) (owner : Option Owner) :
    Table (world.setKernel pid owner) := ⟨table.entered, table.kept, table.spawned⟩

theorem Table.erase (table : Table world) {pid : Pid} (vacant : Vacant world pid) : Table (world.erase pid) := by
  refine ⟨?_, fun entry member => table.kept entry (List.mem_filter.mp member).1, table.spawned⟩
  intro other current held done waiting
  have member := table.entered other current held done waiting
  refine List.mem_filter.mpr ⟨member, decide_eq_true ?_⟩
  intro same
  have gone := vacant other current (same ▸ member) held
  rw [waiting] at gone
  cases gone

theorem Table.posix_spawn (table : Table world) (kernel : Pid → Option Owner) (pid : Pid) :
    Table { world with kernel, sessions := world.sessions ++ [{ pid := pid }] } := by
  refine ⟨?_, ?_, ?_⟩
  · apply Slots.forall_append
    · exact fun other current _ held => table.entered other current held
    · exact (nomatch ·)
  · intro entry member
    obtain ⟨current, held, rest⟩ := table.kept entry member
    exact ⟨current, by rw [List.getElem?_append_left (List.getElem?_eq_some_iff.mp held).1]; exact held, rest⟩
  · apply Slots.forall_append
    · exact fun other current _ held => table.spawned other current held
    · exact (nomatch ·)

theorem Table.waiter_erase (table : Table world) (found : world.sessions[index]? = some session)
    (vacant : Vacant world session.pid) :
    Table ((world.erase session.pid).setSession index { session with waiter := .erased }) := by
  have after := table.erase vacant
  refine ⟨?_, ?_, ?_⟩
  · exact Slots.forall_set found (fun _ => (nomatch ·)) fun other current _ held => after.entered other current held
  · refine fun entry member => registered_set found (after.kept entry member) ?_
    exact fun _ same => absurd same.symm (of_decide_eq_true (List.mem_filter.mp member).2)
  · exact Slots.forall_set found (table.spawned index session found) fun other current _ held =>
      table.spawned other current held

/-- `processes[pid]` replaces an entry of that pid, which is another child's. -/
theorem Table.register (table : Table world) (found : world.sessions[index]? = some session)
    (present : session.waiter ≠ .erased) (vacant : ∀ other current, other ≠ index →
      (session.pid, other) ∈ world.processes → world.sessions[other]? = some current → current.waiter.returned = true) :
    Table ((world.insert session.pid index).setSession index { session with spawner := .returned }) := by
  refine ⟨?_, ?_, ?_⟩
  · refine Slots.forall_set found (fun _ _ => .head _) ?_
    intro other current different held done waiting
    have member := table.entered other current held done waiting
    refine .tail _ (List.mem_filter.mpr ⟨member, decide_eq_true ?_⟩)
    intro same
    have gone := vacant other current different.symm (same ▸ member) held
    rw [waiting] at gone
    cases gone
  · intro entry member
    rcases List.mem_cons.mp member with rfl | member
    · exact ⟨_, (Slots.getElem?_set_found found index).trans (if_pos rfl), rfl, rfl, present⟩
    · refine registered_set found (table.kept entry (List.mem_filter.mp member).1) ?_
      exact fun _ _ _ present => ⟨rfl, rfl, present⟩
  · exact Slots.forall_set found (nomatch ·) fun other current _ held => table.spawned other current held

end Steps

theorem step_table {world next : World} {event : Event} (table : Table world)
    (orderly : Orderly world event) (taken : world.step event = some next) : Table next := by
  cases event with
  | helper_error _ | late_error _ => exact orderly.elim
  | posix_spawn pid =>
    simp only [World.step] at taken
    split at taken <;> cases taken
    exact table.posix_spawn _ pid
  | create_waiter index =>
    obtain ⟨session, found, ready, rfl⟩ := within_eq_some.mp taken
    have launched : session.spawner = .launched := of_decide_eq_true ready
    refine table.set found rfl (by simp) ?_ (by simp) (by simp)
    rw [launched]
    exact iff_of_false (by simp) (by simp)
  | create_reader index =>
    obtain ⟨session, found, ready, rfl⟩ := within_eq_some.mp taken
    have created : session.spawner = .waiter_created := of_decide_eq_true ready
    refine table.set found rfl (by simp) ?_ (by simp) id
    rw [created]
    exact iff_of_false (by simp) (by simp)
  | register index =>
    obtain ⟨session, found, _, rfl⟩ := within_eq_some.mp taken
    obtain ⟨present, vacant⟩ := orderly session found
    exact table.register found present vacant
  | waitpid index =>
    obtain ⟨session, found, _, rfl⟩ := within_eq_some.mp taken
    exact (table.setKernel session.pid none).set found rfl (table.spawned index session found) .rfl (by simp [Waiter.returned]) (by simp)
  | send_exit index =>
    obtain ⟨session, found, _, rfl⟩ := within_eq_some.mp taken
    exact table.set found rfl (table.spawned index session found) .rfl (by simp [Waiter.returned]) (by simp)
  | waiter_erase index =>
    obtain ⟨session, found, _, rfl⟩ := within_eq_some.mp taken
    exact table.waiter_erase found (orderly session found)
  | child_exit index | end_of_file index =>
    obtain ⟨session, found, _, rfl⟩ := within_eq_some.mp taken
    exact table.set found rfl (table.spawned index session found) .rfl (fun waiting _ => waiting) id
  | hangup index =>
    obtain ⟨session, found, _, rfl⟩ := within_eq_some.mp taken
    have spawned := table.spawned index session found
    exact (table.signal index session.pid SIGHUP).set found rfl spawned .rfl (fun waiting _ => waiting) id
  | kill index signal =>
    obtain ⟨session, found, _, rfl⟩ := within_eq_some.mp taken
    have spawned := table.spawned index session found
    exact (table.signal index session.pid signal).set found rfl spawned .rfl (fun waiting _ => waiting) id
  | kill_erase index =>
    obtain ⟨session, found, _, rfl⟩ := within_eq_some.mp taken
    have spawned := table.spawned index session found
    exact (table.erase (orderly session found)).set found rfl spawned .rfl (fun waiting _ => waiting) id
  | cleanup =>
    simp only [World.step] at taken
    split at taken <;> cases taken
    exact ⟨table.entered, table.kept, table.spawned⟩
  | cleanup_next pid =>
    simp only [World.step] at taken
    split at taken <;> try contradiction
    split at taken <;> cases taken
    exact ⟨table.entered, table.kept, table.spawned⟩
  | foreign_spawn pid | foreign_exit pid =>
    simp only [World.step] at taken
    split at taken <;> cases taken
    exact table.setKernel pid _

theorem Table.agreed {world : World} (table : Table world) (quiet : Quiet world) : Agreed world := by
  intro pid index
  constructor
  · intro member
    obtain ⟨session, found, same, _, present⟩ := table.kept (pid, index) member
    obtain ⟨_, notReaped, notSent, _⟩ := quiet index session found
    refine ⟨session, found, same, ?_⟩
    cases state : session.waiter with
    | absent | waiting => rfl
    | reaped => exact absurd state notReaped
    | sent => exact absurd state notSent
    | erased => exact absurd state present
  · intro given
    obtain ⟨session, found, rfl, waiting⟩ := given
    rcases (quiet index session found).1 with failed | returned
    · exact absurd failed (table.spawned index session found)
    · exact table.entered index session found returned waiting

section Destructor
variable {world : World}

/-- The destructor after it has visited the keys up to `last`. -/
def sweeping (world : World) (last : Option Pid) (sent : List Kill) : World :=
  { world with cleanup := some last, kills := world.kills ++ sent }

def Ahead (world : World) (last : Option Pid) (pid : Pid) : Prop :=
  (∀ visited ∈ last, visited < pid) ∧ ∃ index, (pid, index) ∈ world.processes

theorem lookup_of_mem {processes : List (Pid × Nat)} {pid : Pid} {index : Nat} (member : (pid, index) ∈ processes) :
    ∃ found, processes.lookup pid = some found ∧ (pid, found) ∈ processes := by
  cases looked : processes.lookup pid with
  | none => exact absurd (List.lookup_eq_none_iff.mp looked (pid, index) member) (by simp)
  | some found =>
    obtain ⟨before, after, split, _⟩ := List.lookup_eq_some_iff.mp looked
    exact ⟨found, rfl, by rw [split]; exact List.mem_append_right _ (.head _)⟩

theorem mem_of_lookup {processes : List (Pid × Nat)} {pid : Pid} {index : Nat}
    (looked : processes.lookup pid = some index) : (pid, index) ∈ processes := by
  obtain ⟨before, after, split, _⟩ := List.lookup_eq_some_iff.mp looked
  rw [split]
  exact List.mem_append_right _ (.head _)

theorem sweeping_step {last : Option Pid} {sent : List Kill} {pid : Pid} {next : World} :
    (sweeping world last sent).step (.cleanup_next pid) = some next ↔
      ∃ index, world.processes.lookup pid = some index ∧ world.IsNext last pid ∧
        next = sweeping world (some pid) (sent ++ [⟨index, SIGTERM, world.kernel pid⟩]) := by
  have visited (index : Nat) : { (sweeping world last sent).signal index pid SIGTERM with cleanup := some (some pid) } =
      sweeping world (some pid) (sent ++ [⟨index, SIGTERM, world.kernel pid⟩]) := by
    simp [sweeping, World.signal]
  have cleanup : (sweeping world last sent).cleanup = some last := rfl
  have processes : (sweeping world last sent).processes = world.processes := rfl
  simp only [World.step, cleanup, processes, visited]
  cases world.processes.lookup pid with
  | none => simp
  | some index =>
    simp only [Option.ite_none_right_eq_some, Option.some.injEq, exists_eq_left']
    exact and_congr_right fun _ => eq_comm

/-- The smallest key that is left is the one that the loop visits next. -/
theorem sweeping_moves {last : Option Pid} (sent : List Kill) (left : ∃ pid, Ahead world last pid) :
    ∃ pid index, Ahead world last pid ∧ (pid, index) ∈ world.processes ∧
      (sweeping world last sent).step (.cleanup_next pid) =
        some (sweeping world (some pid) (sent ++ [⟨index, SIGTERM, world.kernel pid⟩])) := by
  classical
  have least := Nat.find_spec left
  obtain ⟨after, index, member⟩ := least
  obtain ⟨found, looked, entry⟩ := lookup_of_mem member
  refine ⟨Nat.find left, found, ⟨after, index, member⟩, entry, sweeping_step.mpr ⟨found, looked, ⟨after, ?_⟩, rfl⟩⟩
  exact fun other held beyond => Nat.find_min' left ⟨beyond, other.2, held⟩

theorem sweeping_stops {last : Option Pid} {sent : List Kill} (none_left : ¬ ∃ pid, Ahead world last pid) (pid : Pid) :
    (sweeping world last sent).step (.cleanup_next pid) = none := by
  refine Option.eq_none_iff_forall_ne_some.mpr fun next taken => none_left ⟨pid, ?_⟩
  obtain ⟨index, looked, ⟨after, _⟩, _⟩ := sweeping_step.mp taken
  exact ⟨after, index, mem_of_lookup looked⟩

/-- Every key of the loop's way is either still ahead or was sent a signal. -/
theorem sweeping_run {pids : List Pid} {last : Option Pid} {sent : List Kill} {final : World}
    (reached : exec World.step (sweeping world last sent) (pids.map .cleanup_next) = some final) :
    ∃ last' sent', final = sweeping world last' (sent ++ sent') ∧
      (∀ kill ∈ sent', ∃ pid, (pid, kill.session) ∈ world.processes ∧
        kill = ⟨kill.session, SIGTERM, world.kernel pid⟩) ∧
      ∀ pid, Ahead world last pid → Ahead world last' pid ∨ ∃ kill ∈ sent', (pid, kill.session) ∈ world.processes := by
  induction pids generalizing last sent with
  | nil =>
    cases reached
    exact ⟨last, [], by rw [List.append_nil], nofun, fun pid ahead => .inl ahead⟩
  | cons pid pids ih =>
    obtain ⟨next, stepped, reached⟩ := Option.bind_eq_some_iff.mp reached
    obtain ⟨index, looked, isNext, rfl⟩ := sweeping_step.mp stepped
    obtain ⟨last', sent', rfl, terminated, covered⟩ := ih reached
    have entry := mem_of_lookup looked
    refine ⟨last', ⟨index, SIGTERM, world.kernel pid⟩ :: sent', by rw [List.append_assoc, List.singleton_append], ?_, ?_⟩
    · intro kill member
      rcases List.mem_cons.mp member with rfl | member
      · exact ⟨pid, entry, rfl⟩
      · exact terminated kill member
    · intro other given
      obtain ⟨after, otherIndex, held⟩ := given
      rcases Nat.eq_or_lt_of_le (isNext.2 (other, otherIndex) held after) with rfl | beyond
      · exact .inr ⟨_, .head _, entry⟩
      · have ahead : Ahead world (some pid) other := ⟨fun visited same => Option.some.inj same ▸ beyond, otherIndex, held⟩
        refine (covered other ahead).imp_right ?_
        exact fun ⟨kill, member, entry⟩ => ⟨kill, .tail _ member, entry⟩

/-- The keys ahead lie between the last one and a bound, so that the loop ends. -/
theorem sweeping_ends {bound : Nat} (room : Nat) {last : Option Pid} (sent : List Kill)
    (bounded : ∀ pid, Ahead world last pid → pid < bound ∧ bound ≤ pid + room) :
    ∃ (pids : List Pid) (final : World), exec World.step (sweeping world last sent) (pids.map .cleanup_next) = some final ∧
      ∀ pid, final.step (.cleanup_next pid) = none := by
  by_cases left : ∃ pid, Ahead world last pid
  · obtain ⟨pid, index, ahead, _, moved⟩ := sweeping_moves sent left
    obtain ⟨below, above⟩ := bounded pid ahead
    cases room with
    | zero => exact absurd (Nat.lt_of_lt_of_le below above) (Nat.lt_irrefl pid)
    | succ room =>
      have closer : ∀ other, Ahead world (some pid) other → other < bound ∧ bound ≤ other + room := by
        intro other given
        obtain ⟨after, held⟩ := given
        have beyond : pid < other := after pid rfl
        have within : Ahead world last other := ⟨fun visited same => Nat.lt_trans (ahead.1 visited same) beyond, held⟩
        refine ⟨(bounded other within).1, Nat.le_trans above ?_⟩
        rw [Nat.add_comm room 1, ← Nat.add_assoc]
        exact Nat.add_le_add_right beyond room
      obtain ⟨pids, final, reached, stuck⟩ := sweeping_ends room (sent ++ [⟨index, SIGTERM, world.kernel pid⟩]) closer
      exact ⟨pid :: pids, final, (exec_cons World.step _ moved).trans reached, stuck⟩
  · exact ⟨[], _, rfl, sweeping_stops left⟩

theorem cleanup_starts (resting : world.cleanup = none) : world.step .cleanup = some (sweeping world none []) := by
  simp [World.step, resting, sweeping]

theorem terminates (known : Known world) (agreed : Agreed world) (resting : world.cleanup = none) : Terminates world := by
  have owned : ∀ pid index, (pid, index) ∈ world.processes → world.kernel pid = some (.child index) := by
    intro pid index member
    obtain ⟨session, found, rfl, waiting⟩ := (agreed pid index).mp member
    exact (known.owner index session found).mpr waiting
  refine ⟨?_, ?_⟩
  · let bound := (world.processes.map Prod.fst).sum + 1
    have bounded : ∀ pid, Ahead world none pid → pid < bound ∧ bound ≤ pid + bound := by
      intro pid given
      obtain ⟨_, index, member⟩ := given
      have le := List.le_sum_of_mem (List.mem_map_of_mem (f := Prod.fst) member)
      exact ⟨Nat.lt_succ_of_le le, Nat.le_add_left bound pid⟩
    obtain ⟨pids, final, reached, stuck⟩ := sweeping_ends bound [] bounded
    exact ⟨pids, final, (exec_cons World.step _ (cleanup_starts resting)).trans reached, stuck⟩
  · intro pids final given
    obtain ⟨reached, stuck⟩ := given
    rw [exec_cons World.step _ (cleanup_starts resting)] at reached
    obtain ⟨last, sent, rfl, terminated, covered⟩ := sweeping_run reached
    refine ⟨sent, rfl, ?_, ?_⟩
    · intro kill member
      obtain ⟨pid, entry, same⟩ := terminated kill member
      rw [same]
      exact ⟨rfl, owned pid kill.session entry⟩
    · intro index session found
      constructor
      · intro waiting
        have entry : (session.pid, index) ∈ world.processes := (agreed session.pid index).mpr ⟨session, found, rfl, waiting⟩
        rcases covered session.pid ⟨nofun, index, entry⟩ with ahead | ⟨kill, member, other⟩
        · obtain ⟨pid, _, _, _, moved⟩ := sweeping_moves sent ⟨session.pid, ahead⟩
          exact nomatch (stuck pid).symm.trans moved
        · have same := (owned session.pid index entry).symm.trans (owned session.pid kill.session other)
          cases same
          exact ⟨kill, member, rfl⟩
      · intro given
        obtain ⟨kill, member, rfl⟩ := given
        obtain ⟨pid, entry, _⟩ := terminated kill member
        obtain ⟨current, held, _, waiting⟩ := (agreed pid kill.session).mp entry
        cases found.symm.trans held
        exact waiting

end Destructor

theorem start_table : Table {} := by
  refine ⟨?_, ?_, ?_⟩
  · intro index session held
    cases held
  · intro entry member
    cases member
  · intro index session held
    cases held

/-- In every run whose spawns all become sessions and whose erasures find no unreaped
child, the map and the children agree whenever the threads rest. -/
theorem settled_if_orderly (events : List Event) (orderly : Along World.step Orderly {} events) :
    Always World.step (fun world => Quiet world → Settled world) {} events := by
  have always : Always World.step (fun world => Known world ∧ Table world) {} events := by
    refine Always.of_along ?_ ⟨start_known, start_table⟩ orderly
    intro world event next given good taken
    obtain ⟨known, table⟩ := given
    exact ⟨step_known known taken, step_table table good taken⟩
  refine always.mono ?_
  intro world given quiet
  obtain ⟨known, table⟩ := given
  exact ⟨table.agreed quiet, terminates known (table.agreed quiet)⟩

def plainSession : List Event :=
  [.posix_spawn 7, .create_waiter 0, .create_reader 0, .register 0, .child_exit 0, .waitpid 0, .send_exit 0, .waiter_erase 0]

theorem plain_session_settles :
    Always World.step (fun world => Quiet world → Settled world) {} plainSession := by
  apply settled_if_orderly
  refine .cons rfl trivial <| .cons rfl trivial <| .cons rfl trivial <| .cons rfl ?_ <| .cons rfl trivial <|
    .cons rfl trivial <| .cons rfl trivial <| .cons rfl ?_ along_nil
  · intro session held
    cases held
    exact ⟨nofun, fun _ _ _ member => nomatch member⟩
  · intro session held index current member found
    cases held
    cases List.mem_singleton.mp member
    cases found
    rfl

/-- A program that is started and told of a new window size. -/
def windowChange : List Event :=
  [.posix_spawn 7, .create_waiter 0, .create_reader 0, .register 0, .kill 0 28, .kill_erase 0]

/-- Signal 28 is SIGWINCH, which ends no program. The destructor will not find this one. -/
theorem window_change_forgets :
    ¬ Always World.step (fun world => Quiet world → Settled world) {} windowChange := by
  intro always
  have quiet : ∀ final, exec World.step {} windowChange = some final → Quiet final := by
    intro final reached index session held
    cases reached
    cases index with
    | zero => cases held; exact ⟨.inr rfl, nofun, nofun, rfl⟩
    | succ index => cases held
  have settled := always.final rfl (quiet _ rfl)
  exact List.not_mem_nil ((settled.table 7 0).mpr ⟨_, rfl, rfl, rfl⟩)

end ExPTY.Proofs.ProcessTable
