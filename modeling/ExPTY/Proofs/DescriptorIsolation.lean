import ExPTY.DescriptorReuse
import ExPTY.Proofs.ClosedDescriptor

/-! Many Unix sessions on one descriptor table. To each of them the others are the kernel
that may give its number away, so it runs as a session on its own does, and what holds of
one descriptor holds of all: a reader only ever reads and closes its own master, and a
call in time only ever reaches it. -/

namespace ExPTY.Proofs.DescriptorIsolation
open DescriptorReuse NativeCalls Runs
open ClosedDescriptor (committed)
open Descriptors (Fd Table)
open SharedDescriptor (File)
open Termios (Header)

variable {header : Header}

def seen (master : Nat) : Option Nat → File
  | none => .closed
  | some file => if file = master then .master else .other file

/-- What a session is on its own. -/
def project (world : World header) (index : Nat) (session : Session header) : SharedDescriptor.World header :=
  { file := seen session.master (world.file session.fd), fd_closed := session.fd_closed, reader := session.reader
    mutex := session.mutex, calls := session.calls
    uses := world.uses.filterMap fun use =>
      if use.session = index then some { call := use.call, file := seen session.master use.file, accepted := use.accepted }
      else none }

/-- The reader has not closed the master yet. -/
def Ready (session : Session header) : Prop := session.reader = .reading ∨ session.reader = .fd_closed

/-- Which files are where. -/
structure Linked (world : World header) : Prop where
  files : ∀ fd file, world.file fd = some file → file < world.opened
  masters : ∀ (index : Nat) session, world.sessions[index]? = some session → session.master < world.opened
  distinct : ∀ (index other : Nat) session session', world.sessions[index]? = some session →
    world.sessions[other]? = some session' → session.master = session'.master → index = other
  held : ∀ (index : Nat) session, world.sessions[index]? = some session → Ready session →
    world.file session.fd = some session.master
  uses : ∀ use ∈ world.uses, use.session < world.sessions.length
  touches : ∀ touch ∈ world.touches, ∃ session, world.sessions[touch.session]? = some session ∧
    touch.file = some session.master

variable {world next : World header} {event : Event header} {index : Nat} {session : Session header}

section Table

theorem file_install {fd other : Fd} :
    (world.install fd).file other = if other = fd then some world.opened else world.file other := by
  simp only [World.file, World.install, Table.install, Table.set]
  split <;> rfl

theorem file_close (world : World header) {fd : Fd} (closed : next.table = world.table.close fd) (other : Fd) :
    next.file other = if other = fd then none else world.file other := by
  simp only [World.file, closed, Table.close, Table.set]
  split <;> rfl

theorem file_of_lowest {fd : Fd} (lowest : world.table.lowest fd = true) : world.file fd = none := by
  rw [World.file, (Table.lowest_iff _).mp lowest |>.1]
  rfl

end Table

section Links

theorem Linked.install (linked : Linked world) {fd : Fd} (free : world.file fd = none) : Linked (world.install fd) := by
  refine ⟨?_, ?_, linked.distinct, ?_, linked.uses, linked.touches⟩
  · intro other file there
    rw [file_install] at there
    split at there
    · cases there
      exact Nat.lt_succ_self _
    · exact Nat.lt_succ_of_lt (linked.files other file there)
  · intro index session found
    exact Nat.lt_succ_of_lt (linked.masters index session found)
  · intro index session found reading
    have own := linked.held index session found reading
    rw [file_install, if_neg, own]
    intro same
    rw [same, free] at own
    cases own

/-- The component at a place of an extended list is an old one or the new one. -/
private theorem appended {sessions : List (Session header)} {fresh : Session header}
    (found : (sessions ++ [fresh])[index]? = some session) :
    sessions[index]? = some session ∨ index = sessions.length ∧ session = fresh := by
  have all (place : Nat) (current : Session header) (there : (sessions ++ [fresh])[place]? = some current) :
      sessions[place]? = some current ∨ place = sessions.length ∧ current = fresh := by
    revert place current
    exact Slots.forall_append (fun _ _ _ old => .inl old) (.inr ⟨rfl, rfl⟩)
  exact all index session found

theorem Linked.spawn (linked : Linked world) {fd : Fd} (free : world.file fd = none) :
    Linked { world.install fd with sessions := world.sessions ++ [{ fd, master := world.opened }] } := by
  have base := linked.install free
  refine ⟨base.files, ?_, ?_, ?_, ?_, ?_⟩
  · intro index session found
    rcases appended found with old | ⟨_, rfl⟩
    · exact base.masters index session old
    · exact Nat.lt_succ_self _
  · intro one two first second found found' same
    rcases appended found with old | ⟨last, rfl⟩
    · rcases appended found' with old' | ⟨_, rfl⟩
      · exact linked.distinct one two first second old old' same
      · have less := linked.masters one first old
        rw [same] at less
        exact absurd less (Nat.lt_irrefl _)
    · rcases appended found' with old' | ⟨last', _⟩
      · have less := linked.masters two second old'
        rw [← same] at less
        exact absurd less (Nat.lt_irrefl _)
      · exact last.trans last'.symm
  · intro index session found reading
    rcases appended found with old | ⟨_, rfl⟩
    · exact base.held index session old reading
    · exact file_install.trans (if_pos rfl)
  · intro use member
    rw [List.length_append]
    exact Nat.lt_add_right _ (linked.uses use member)
  · intro touch member
    obtain ⟨session, known, own⟩ := linked.touches touch member
    exact ⟨session, (List.getElem?_append_left (List.getElem?_eq_some_iff.mp known).1).trans known, own⟩

theorem Linked.closes (linked : Linked world) {fd : Fd} {file : Nat} (there : world.file fd = some file)
    (foreign : world.masters file = false) : Linked { world with table := world.table.close fd } := by
  refine ⟨?_, linked.masters, linked.distinct, ?_, linked.uses, linked.touches⟩
  · intro other file' held
    rw [file_close world rfl] at held
    split at held
    · cases held
    · exact linked.files other file' held
  · intro index session found reading
    have own := linked.held index session found reading
    rw [file_close world rfl, if_neg, own]
    intro same
    rw [same, there] at own
    cases own
    have mine : world.masters session.master = true :=
      List.any_eq_true.mpr ⟨session, List.mem_of_getElem? found, decide_eq_true rfl⟩
    rw [foreign] at mine
    cases mine

theorem Linked.set (linked : Linked world) (found : world.sessions[index]? = some session) (session' : Session header)
    (fd : session'.fd = session.fd) (master : session'.master = session.master)
    (reading : Ready session' → Ready session) : Linked (world.set index session') := by
  have sessions (other : Nat) (current : Session header)
      (there : (world.set index session').sessions[other]? = some current) :
      ∃ before, world.sessions[other]? = some before ∧ current.fd = before.fd ∧ current.master = before.master ∧
        (Ready current → Ready before) := by
    rw [World.set, Slots.getElem?_set_found found] at there
    split at there
    next here =>
      cases there
      subst here
      exact ⟨session, found, fd, master, reading⟩
    next => exact ⟨current, there, rfl, rfl, id⟩
  refine ⟨linked.files, ?_, ?_, ?_, ?_, ?_⟩
  · intro other current there
    obtain ⟨before, known, _, same, _⟩ := sessions other current there
    rw [same]
    exact linked.masters other before known
  · intro one two first second there there' same
    obtain ⟨before, known, _, master, _⟩ := sessions one first there
    obtain ⟨before', known', _, master', _⟩ := sessions two second there'
    exact linked.distinct one two before before' known known' (master.symm.trans (same.trans master'))
  · intro other current there open_
    obtain ⟨before, known, place, same, still⟩ := sessions other current there
    have own := linked.held other before known (still open_)
    rw [place, same]
    exact own
  · intro use member
    rw [World.set, List.length_set]
    exact linked.uses use member
  · intro touch member
    obtain ⟨before, known, own⟩ := linked.touches touch member
    by_cases here : index = touch.session
    · subst here
      cases found.symm.trans known
      refine ⟨session', ?_, own.trans (congrArg some master.symm)⟩
      rw [World.set, Slots.getElem?_set_found found, if_pos rfl]
    · exact ⟨before, by rw [World.set, Slots.getElem?_set_found found, if_neg here, known], own⟩

theorem Linked.touch (linked : Linked world) (found : world.sessions[index]? = some session) (reading : Ready session) :
    Linked (world.touch index session) := by
  refine ⟨linked.files, linked.masters, linked.distinct, linked.held, linked.uses, ?_⟩
  exact List.forall_mem_append.mpr
    ⟨linked.touches, List.forall_mem_singleton.mpr ⟨session, found, linked.held index session found reading⟩⟩

private theorem linked_close_master (linked : Linked world) (found : world.sessions[index]? = some session)
    (closing : session.reader = .fd_closed) :
    Linked { (world.touch index session).set index { session with reader := .closed } with
      table := world.table.close session.fd } := by
  have shut (current : Session header) (same : current.reader = .closed) : ¬ Ready current := by
    rintro (reading | reading) <;> cases same.symm.trans reading
  have base := (linked.touch found (.inr closing)).set found { session with reader := .closed } rfl rfl
    (fun reading => absurd reading (shut _ rfl))
  have own := linked.held index session found (.inr closing)
  refine ⟨?_, base.masters, base.distinct, ?_, base.uses, base.touches⟩
  · intro other file there
    rw [file_close world rfl] at there
    split at there
    · cases there
    · exact linked.files other file there
  · intro other current there reading
    have held : world.file current.fd = some current.master := base.held other current there reading
    rw [file_close world rfl, if_neg]
    · exact held
    intro same
    have there' : ((world.touch index session).set index { session with reader := .closed }).sessions[index]? =
        some { session with reader := .closed } := by
      rw [World.set]
      exact (Slots.getElem?_set_found found index).trans (if_pos rfl)
    rw [same, own] at held
    obtain rfl := base.distinct other index current _ there there' (Option.some.inj held).symm
    cases there.symm.trans there'
    exact shut _ rfl reading

private theorem linked_perform (linked : Linked world) (found : world.sessions[index]? = some session) {call : Nat}
    {kernel : Kernel header} {action : Action header} (taken : world.perform index session call kernel action = some next) :
    Linked next := by
  cases action with
  | check after =>
    cases taken
    exact linked.set found _ rfl rfl id
  | lock after =>
    simp only [World.perform] at taken
    split at taken <;> cases taken
    exact linked.set found _ rfl rfl id
  | unlock after =>
    cases taken
    exact linked.set found _ rfl rfl id
  | system syscall after =>
    simp only [World.perform] at taken
    split at taken <;> cases taken
    have base := linked.set found (session.setCall call (after kernel)) rfl rfl id
    refine { base with uses := List.forall_mem_append.mpr ⟨base.uses, List.forall_mem_singleton.mpr ?_⟩ }
    rw [World.set, List.length_set]
    exact (List.getElem?_eq_some_iff.mp found).1

private theorem linked_move (linked : Linked world) (found : world.sessions[index]? = some session)
    (taken : world.move index session event = some next) : Linked next := by
  cases event with
  | spawn | opens | closes => cases taken
  | read _ =>
    simp only [World.move] at taken
    split at taken <;> cases taken
    next reading => exact linked.touch found (.inl reading)
  | end_of_file _ =>
    simp only [World.move] at taken
    split at taken <;> cases taken
    next reading => exact linked.set found _ rfl rfl (fun _ => .inl reading)
  | close_master _ =>
    simp only [World.move] at taken
    split at taken <;> cases taken
    next closing => exact linked_close_master linked found closing
  | hangup _ =>
    simp only [World.move] at taken
    split at taken <;> cases taken
    refine linked.set found _ rfl rfl ?_
    rintro (reading | reading) <;> cases reading
  | call _ call =>
    obtain ⟨started, _, rfl⟩ := Option.map_eq_some_iff.mp taken
    exact linked.set found _ rfl rfl id
  | advance _ call kernel =>
    obtain ⟨current, _, taken⟩ := Option.bind_eq_some_iff.mp taken
    obtain ⟨action, _, taken⟩ := Option.bind_eq_some_iff.mp taken
    exact linked_perform linked found taken

theorem linked_step (linked : Linked world) (taken : world.step event = some next) : Linked next := by
  cases event with
  | spawn fd =>
    simp only [World.step] at taken
    split at taken <;> cases taken
    next lowest => exact linked.spawn (file_of_lowest lowest)
  | opens fd =>
    simp only [World.step] at taken
    split at taken <;> cases taken
    next lowest => exact linked.install (file_of_lowest lowest)
  | closes fd =>
    simp only [World.step] at taken
    split at taken
    next file there =>
      split at taken <;> cases taken
      next foreign => exact linked.closes there (Bool.not_eq_true _ ▸ foreign)
    next => cases taken
  | read | end_of_file | close_master | hangup | call | advance =>
    obtain ⟨session, found, taken⟩ := Option.bind_eq_some_iff.mp taken
    exact linked_move linked found taken

end Links

section Simulation

/-- What a step of the others is for a session: nothing, or the kernel's use of its number. -/
def Beside (before after : SharedDescriptor.World header) : Prop :=
  after = before ∨ (∃ file, before.step (.reopen file) = some after) ∨ before.step .release = some after

/-- The part of a session that the others have no access to. -/
theorem beside_of_file (linked : Linked world) (found : world.sessions[index]? = some session)
    (uses : (project next index session).uses = (project world index session).uses)
    (file : next.file session.fd = world.file session.fd ∨
      (world.file session.fd = none ∧ next.file session.fd = some world.opened) ∨
      ∃ other, other ≠ session.master ∧ world.file session.fd = some other ∧ next.file session.fd = none) :
    Beside (project world index session) (project next index session) := by
  have same (after : File) (there : seen session.master (next.file session.fd) = after) :
      project next index session = { project world index session with file := after } := by
    rw [← there]
    simp only [project] at uses ⊢
    rw [uses]
  rcases file with kept | ⟨free, taken⟩ | ⟨other, foreign, there, gone⟩
  · left
    exact same _ (congrArg (seen session.master) kept)
  · right; left
    have younger := linked.masters index session found
    have closed : (project world index session).file = .closed := congrArg (seen session.master) free
    refine ⟨world.opened, ?_⟩
    rw [same (.other world.opened) (by rw [taken, seen, if_neg (by omega)]), SharedDescriptor.World.step, if_pos closed]
  · right; right
    have stranger : (project world index session).file = .other other := by
      simp only [project, there, seen, if_neg foreign]
    rw [same .closed (by rw [gone, seen]), SharedDescriptor.World.step, stranger]

private theorem sessions_set_other {other : Nat} {session' current : Session header}
    (found : world.sessions[index]? = some session) (apart : index ≠ other) (there : world.sessions[other]? = some current) :
    (world.set index session').sessions[other]? = some current := by
  rw [World.set, Slots.getElem?_set_found found, if_neg apart, there]

private theorem sessions_set_same (found : world.sessions[index]? = some session) (session' : Session header) :
    (world.set index session').sessions[index]? = some session' := by
  rw [World.set, Slots.getElem?_set_found found, if_pos rfl]

/-- The step of a session as the others see it. -/
private theorem move_other (linked : Linked world) (found : world.sessions[index]? = some session)
    (taken : world.move index session event = some next) {other : Nat} {current : Session header} (apart : index ≠ other)
    (there : world.sessions[other]? = some current) :
    next.sessions[other]? = some current ∧ Beside (project world other current) (project next other current) := by
  have kept {session' : Session header} : (world.set index session').sessions[other]? = some current :=
    sessions_set_other found apart there
  cases event with
  | spawn | opens | closes => cases taken
  | read _ =>
    simp only [World.move] at taken
    split at taken <;> cases taken
    exact ⟨there, .inl rfl⟩
  | end_of_file _ | hangup _ =>
    simp only [World.move] at taken
    split at taken <;> cases taken
    exact ⟨kept, .inl rfl⟩
  | close_master _ =>
    simp only [World.move] at taken
    split at taken <;> cases taken
    next closing =>
      refine ⟨kept, beside_of_file linked there rfl ?_⟩
      rw [file_close world rfl]
      by_cases same : current.fd = session.fd
      · right; right
        refine ⟨session.master, ?_, ?_, if_pos same⟩
        · intro equal
          exact apart (linked.distinct index other session current found there equal)
        · rw [same]
          exact linked.held index session found (.inr closing)
      · exact .inl (if_neg same)
  | call _ call =>
    obtain ⟨started, _, rfl⟩ := Option.map_eq_some_iff.mp taken
    exact ⟨kept, .inl rfl⟩
  | advance _ call kernel =>
    obtain ⟨running, _, taken⟩ := Option.bind_eq_some_iff.mp taken
    obtain ⟨action, _, taken⟩ := Option.bind_eq_some_iff.mp taken
    cases action with
    | check after | unlock after =>
      cases taken
      exact ⟨kept, .inl rfl⟩
    | lock after =>
      simp only [World.perform] at taken
      split at taken <;> cases taken
      exact ⟨kept, .inl rfl⟩
    | system syscall after =>
      simp only [World.perform] at taken
      split at taken <;> cases taken
      refine ⟨kept, beside_of_file linked there ?_ (.inl rfl)⟩
      simp only [project, List.filterMap_append, List.filterMap_cons, if_neg apart, List.filterMap_nil, List.append_nil]

/-- The step of a session that is a step of it on its own. -/
def alone : Event header → Option (SharedDescriptor.Event header)
  | .end_of_file _ => some .end_of_file
  | .close_master _ => some .close
  | .hangup _ => some .hangup
  | .call _ call => some (.call call)
  | .advance _ call kernel => some (.advance call kernel)
  | _ => none

private theorem perform_own (found : world.sessions[index]? = some session) {call : Nat} {kernel : Kernel header}
    {action : Action header} (taken : world.perform index session call kernel action = some next) :
    ∃ after, next.sessions[index]? = some after ∧
      (project world index session).perform call kernel action = some (project next index after) := by
  cases action with
  | check after | unlock after =>
    cases taken
    exact ⟨_, sessions_set_same found _, rfl⟩
  | lock after =>
    simp only [World.perform] at taken
    split at taken <;> cases taken
    next free => exact ⟨_, sessions_set_same found _, if_pos free⟩
  | system syscall after =>
    simp only [World.perform] at taken
    split at taken <;> cases taken
    next bounded =>
      refine ⟨_, sessions_set_same found _, (if_pos bounded).trans (congrArg some ?_)⟩
      simp only [project, List.filterMap_append, List.filterMap_cons, List.filterMap_nil, if_true]
      rfl

private theorem move_own (found : world.sessions[index]? = some session)
    (taken : world.move index session event = some next) :
    ∃ after, next.sessions[index]? = some after ∧
      (project next index after = project world index session ∨
        ∃ own, alone event = some own ∧ (project world index session).step own = some (project next index after)) := by
  cases event with
  | spawn | opens | closes => cases taken
  | read _ =>
    simp only [World.move] at taken
    split at taken <;> cases taken
    exact ⟨session, found, .inl rfl⟩
  | end_of_file _ | hangup _ =>
    simp only [World.move] at taken
    split at taken <;> cases taken
    next here => exact ⟨_, sessions_set_same found _, .inr ⟨_, rfl, if_pos here⟩⟩
  | close_master _ =>
    simp only [World.move] at taken
    split at taken <;> cases taken
    next here =>
      have there := sessions_set_same found { session with reader := .closed }
      refine ⟨_, there, .inr ⟨_, rfl, (if_pos here).trans (congrArg some ?_)⟩⟩
      simp only [project]
      rw [file_close world rfl, if_pos rfl]
      rfl
  | call _ call =>
    obtain ⟨started, begins, rfl⟩ := Option.map_eq_some_iff.mp taken
    refine ⟨_, sessions_set_same found _, .inr ⟨_, rfl, ?_⟩⟩
    rw [SharedDescriptor.World.step, begins]
    rfl
  | advance _ call kernel =>
    obtain ⟨running, runs, taken⟩ := Option.bind_eq_some_iff.mp taken
    obtain ⟨action, acts, taken⟩ := Option.bind_eq_some_iff.mp taken
    obtain ⟨after, there, same⟩ := perform_own found taken
    refine ⟨after, there, .inr ⟨_, rfl, ?_⟩⟩
    have runs : (project world index session).calls[call]? = some running := runs
    rw [SharedDescriptor.World.step, runs, Option.bind_some, acts]
    exact same

def target : Event header → Option Nat
  | .spawn _ | .opens _ | .closes _ => none
  | .read index | .end_of_file index | .close_master index | .hangup index | .call index _ | .advance index _ _ => some index

/-- A step of the process is for each session either a step of its own or one beside it. -/
theorem step_project (linked : Linked world) (taken : world.step event = some next)
    (found : world.sessions[index]? = some session) :
    ∃ after, next.sessions[index]? = some after ∧
      (Beside (project world index session) (project next index after) ∨
        ∃ own, target event = some index ∧ alone event = some own ∧
          (project world index session).step own = some (project next index after)) := by
  have young : session.master ≠ world.opened := Nat.ne_of_lt (linked.masters index session found)
  have installed {fd : Fd} (free : world.file fd = none) {after : World header}
      (same : after.file = (world.install fd).file) :
      after.file session.fd = world.file session.fd ∨
        (world.file session.fd = none ∧ after.file session.fd = some world.opened) ∨
          ∃ other, other ≠ session.master ∧ world.file session.fd = some other ∧ after.file session.fd = none := by
    rw [same, file_install]
    by_cases here : session.fd = fd
    · exact .inr (.inl ⟨here ▸ free, if_pos here⟩)
    · exact .inl (if_neg here)
  cases event with
  | spawn fd =>
    simp only [World.step] at taken
    split at taken <;> cases taken
    next lowest =>
      refine ⟨session, ?_, .inl (beside_of_file linked found rfl (installed (file_of_lowest lowest) rfl))⟩
      exact (List.getElem?_append_left (List.getElem?_eq_some_iff.mp found).1).trans found
  | opens fd =>
    simp only [World.step] at taken
    split at taken <;> cases taken
    next lowest =>
      exact ⟨session, found, .inl (beside_of_file linked found rfl (installed (file_of_lowest lowest) rfl))⟩
  | closes fd =>
    simp only [World.step] at taken
    split at taken
    next file there =>
      split at taken <;> cases taken
      next foreign =>
        refine ⟨session, found, .inl (beside_of_file linked found rfl ?_)⟩
        rw [file_close world rfl]
        by_cases here : session.fd = fd
        · right; right
          refine ⟨file, ?_, here ▸ there, if_pos here⟩
          rintro rfl
          exact foreign (List.any_eq_true.mpr ⟨session, List.mem_of_getElem? found, decide_eq_true rfl⟩)
        · exact .inl (if_neg here)
    next => cases taken
  | read acting | end_of_file acting | close_master acting | hangup acting | call acting _ | advance acting _ _ =>
    obtain ⟨actor, present, taken⟩ := Option.bind_eq_some_iff.mp taken
    by_cases here : acting = index
    · subst here
      cases present.symm.trans found
      obtain ⟨after, there, same | ⟨own, mine, stepped⟩⟩ := move_own found taken
      · exact ⟨after, there, .inl (.inl same)⟩
      · exact ⟨after, there, .inr ⟨own, rfl, mine, stepped⟩⟩
    · obtain ⟨there, beside⟩ := move_other linked present taken here found
      exact ⟨session, there, .inl beside⟩

private theorem move_length (taken : world.move index session event = some next) :
    next.sessions.length = world.sessions.length := by
  cases event with
  | spawn | opens | closes => cases taken
  | read _ =>
    simp only [World.move] at taken
    split at taken <;> cases taken
    rfl
  | end_of_file _ | close_master _ | hangup _ =>
    simp only [World.move] at taken
    split at taken <;> cases taken
    exact List.length_set
  | call _ call =>
    obtain ⟨started, _, rfl⟩ := Option.map_eq_some_iff.mp taken
    exact List.length_set
  | advance _ call kernel =>
    obtain ⟨running, _, taken⟩ := Option.bind_eq_some_iff.mp taken
    obtain ⟨action, _, taken⟩ := Option.bind_eq_some_iff.mp taken
    cases action with
    | check after | unlock after =>
      cases taken
      exact List.length_set
    | lock after | system syscall after =>
      simp only [World.perform] at taken
      split at taken <;> cases taken
      exact List.length_set

/-- A session that the step has made starts as a session on its own does. -/
theorem project_new (linked : Linked world) (taken : world.step event = some next) {after : Session header}
    (absent : world.sessions[index]? = none) (there : next.sessions[index]? = some after) :
    project next index after = {} := by
  have unchanged (same : next.sessions = world.sessions) : project next index after = {} := by
    rw [same, absent] at there
    cases there
  cases event with
  | spawn fd =>
    simp only [World.step] at taken
    split at taken <;> cases taken
    rcases appended there with old | ⟨last, rfl⟩
    · cases absent.symm.trans old
    have unused : world.uses.filterMap (fun use => if use.session = index then some
        ({ call := use.call, file := seen world.opened use.file, accepted := use.accepted } : SharedDescriptor.Use header)
      else none) = [] := by
      refine List.filterMap_eq_nil_iff.mpr fun use member => if_neg ?_
      rw [last]
      exact Nat.ne_of_lt (linked.uses use member)
    have own : (world.install fd).file fd = some world.opened := file_install.trans (if_pos rfl)
    have master : seen world.opened ((world.install fd).file fd) = .master := by
      rw [own, seen, if_pos rfl]
    exact (SharedDescriptor.World.mk.injEq ..).mpr ⟨master, rfl, rfl, rfl, rfl, unused⟩
  | opens fd =>
    simp only [World.step] at taken
    split at taken <;> cases taken
    exact unchanged rfl
  | closes fd =>
    simp only [World.step] at taken
    split at taken
    next =>
      split at taken <;> cases taken
      exact unchanged rfl
    next => cases taken
  | read acting | end_of_file acting | close_master acting | hangup acting | call acting _ | advance acting _ _ =>
    obtain ⟨actor, present, moved⟩ := Option.bind_eq_some_iff.mp taken
    have same := move_length moved
    have short := List.getElem?_eq_none_iff.mp absent
    rw [← same] at short
    cases (List.getElem?_eq_none short).symm.trans there

end Simulation

section Runs

/-- The session's steps are in time for it. -/
def InTime (world : World header) (event : Event header) : Prop :=
  ∀ (index : Nat) session own, target event = some index → world.sessions[index]? = some session →
    alone event = some own → ClosedDescriptor.InTime (project world index session) own

theorem reached_step (linked : Linked world) (taken : world.step event = some next)
    (reached : ∀ (index : Nat) session, world.sessions[index]? = some session →
      Reached SharedDescriptor.World.step {} (project world index session)) :
    ∀ (index : Nat) session, next.sessions[index]? = some session →
      Reached SharedDescriptor.World.step {} (project next index session) := by
  intro index after there
  cases found : world.sessions[index]? with
  | none =>
    rw [project_new linked taken found there]
    exact .start _ _
  | some session =>
    obtain ⟨_, there', moved⟩ := step_project linked taken found
    cases there.symm.trans there'
    have before := reached index session found
    rcases moved with (same | ⟨file, stepped⟩ | stepped) | ⟨own, _, _, stepped⟩
    · rw [same]
      exact before
    · exact before.next _ stepped
    · exact before.next _ stepped
    · exact before.next _ stepped

private theorem sound_start : ClosedDescriptor.Sound ({} : SharedDescriptor.World header) := by
  refine ⟨?_, ?_, fun foreign => absurd rfl foreign, fun foreign => absurd rfl foreign⟩
  · intro use member
    cases member
  · intro closing
    cases closing

theorem sound_step (linked : Linked world) (inTime : InTime world event) (taken : world.step event = some next)
    (sound : ∀ (index : Nat) session, world.sessions[index]? = some session →
      ClosedDescriptor.Sound (project world index session)) :
    ∀ (index : Nat) session, next.sessions[index]? = some session →
      ClosedDescriptor.Sound (project next index session) := by
  intro index after there
  cases found : world.sessions[index]? with
  | none =>
    rw [project_new linked taken found there]
    exact sound_start
  | some session =>
    obtain ⟨_, there', moved⟩ := step_project linked taken found
    cases there.symm.trans there'
    have before := sound index session found
    rcases moved with (same | ⟨file, stepped⟩ | stepped) | ⟨own, acting, mine, stepped⟩
    · rw [same]
      exact before
    · have fits : ClosedDescriptor.InTime (project world index session) (.reopen file) := trivial
      exact before.step fits stepped
    · have fits : ClosedDescriptor.InTime (project world index session) .release := trivial
      exact before.step fits stepped
    · exact before.step (inTime index session own acting found mine) stepped

private theorem linked_start : Linked ({} : World header) := by
  refine ⟨?_, ?_, ?_, ?_, ?_, ?_⟩
  · intro fd file there
    cases there
  · intro index session found
    cases found
  · intro one two first second found
    cases found
  · intro index session found
    cases found
  · intro use member
    cases member
  · intro touch member
    cases member

/-- What a session needs of the process: a run of its own. -/
def Apart (world : World header) : Prop :=
  ∀ (index : Nat) session, world.sessions[index]? = some session →
    Reached SharedDescriptor.World.step {} (project world index session)

def OwnTouches (world : World header) : Prop :=
  ∀ touch ∈ world.touches, ∃ session, world.sessions[touch.session]? = some session ∧
    touch.file = some session.master

def OwnUses (world : World header) : Prop :=
  ∀ use ∈ world.uses, ∃ session, world.sessions[use.session]? = some session ∧ use.file = some session.master

private theorem master_of_seen {master : Nat} {file : Option Nat} (own : seen master file = .master) :
    file = some master := by
  unfold seen at own
  split at own
  · cases own
  · split at own
    next same => rw [same]
    next => cases own

theorem own_uses (linked : Linked world)
    (sound : ∀ (index : Nat) session, world.sessions[index]? = some session →
      ClosedDescriptor.Sound (project world index session)) : OwnUses world := by
  intro use member
  have present := List.getElem?_eq_getElem (linked.uses use member)
  refine ⟨_, present, master_of_seen ?_⟩
  have own := (sound use.session _ present).own
  exact own _ (List.mem_filterMap.mpr ⟨use, member, if_pos rfl⟩)

/-- However the sessions of a process come, go and take each other's numbers, each of them
runs as one session on its own does and its reader reads and closes its own master only.
In a run whose steps are all in time for the sessions that make them, so do the native calls. -/
theorem sessions_on_one_table (events : List (Event header)) :
    Always World.step (fun world => Apart world ∧ OwnTouches world) {} events ∧
      (Along World.step InTime {} events → Always World.step OwnUses {} events) := by
  constructor
  · have always : Always World.step (fun world => Linked world ∧ Apart world) {} events := by
      refine Always.of_invariant ?_ events ⟨linked_start, ?_⟩
      · intro world event next before taken
        obtain ⟨linked, apart⟩ := before
        exact ⟨linked_step linked taken, reached_step linked taken apart⟩
      · intro index session found
        cases found
    refine always.mono fun world holds => ?_
    exact ⟨holds.2, holds.1.touches⟩
  · intro inTime
    have always : Always World.step (fun world => Linked world ∧ ∀ (index : Nat) session,
        world.sessions[index]? = some session → ClosedDescriptor.Sound (project world index session)) {} events := by
      refine Always.of_along ?_ ⟨linked_start, ?_⟩ inTime
      · intro world event next before fits taken
        obtain ⟨linked, sound⟩ := before
        exact ⟨linked_step linked taken, sound_step linked fits taken sound⟩
      · intro index session found
        cases found
    refine always.mono fun world holds => ?_
    exact own_uses holds.1 holds.2

private theorem early {world : World header} {event : Event header}
    (fits : ∀ own, alone event = some own → ∀ world : SharedDescriptor.World header,
      ClosedDescriptor.InTime world own) : InTime world event := by
  intro index session own _ _ mine
  exact fits own mine _

open ClosedDescriptor (terminal) in
/-- A second session that gets the number of the first, and a write to each after that. -/
def numberReused : List (Event Header.linux) :=
  [.spawn 0, .call 0 (.write (.reference 0) [97]), .advance 0 0 terminal, .advance 0 0 terminal, .advance 0 0 terminal,
    .advance 0 0 terminal, .advance 0 0 terminal, .read 0, .end_of_file 0, .close_master 0, .spawn 0, .hangup 0,
    .call 1 (.write (.reference 1) [98]), .advance 1 0 terminal, .advance 1 0 terminal, .advance 1 0 terminal,
    .advance 1 0 terminal, .call 0 (.write (.reference 0) [99]), .advance 0 1 terminal, .read 1]

theorem number_reused_own :
    ∃ final, exec World.step {} numberReused = some final ∧ final.sessions.map (·.fd) = [0, 0] ∧
      final.uses.map (fun use => (use.session, use.file)) = [(0, some 0), (1, some 1)] ∧ OwnUses final := by
  have silent {world : World Header.linux} {event : Event Header.linux} (none : alone event = none) :
      InTime world event := by
    apply early
    intro own mine
    cases none.symm.trans mine
  have free {world : World Header.linux} {index call : Nat} {kernel : Kernel Header.linux} :
      InTime world (.advance index call kernel) := by
    apply early
    intro own mine
    cases mine
    exact fun _ => trivial
  have write {world : World Header.linux} {index id : Nat} {data : Server.Binary} :
      InTime world (.call index (.write (.reference id) data)) := by
    apply early
    intro own mine
    cases mine
    intro _ _ started begins
    cases begins
    rfl
  refine ⟨_, rfl, rfl, rfl, ?_⟩
  refine (sessions_on_one_table numberReused).2 ?_ |>.final rfl
  refine .cons rfl (silent rfl) <| .cons rfl write <| .cons rfl free <| .cons rfl free <| .cons rfl free <|
    .cons rfl free <| .cons rfl free <| .cons rfl (silent rfl) <| .cons rfl (fun _ _ _ _ _ mine => ?_) <|
    .cons rfl (fun _ _ _ acting found mine => ?_) <| .cons rfl (silent rfl) <| .cons rfl (fun _ _ _ _ _ mine => ?_) <|
    .cons rfl write <| .cons rfl free <| .cons rfl free <| .cons rfl free <| .cons rfl free <| .cons rfl write <|
    .cons rfl free <| .cons rfl (silent rfl) along_nil
  · cases mine
    trivial
  · cases acting
    cases found
    cases mine
    intro call member
    cases List.mem_singleton.mp member
    rfl
  · cases mine
    trivial

end Runs

end ExPTY.Proofs.DescriptorIsolation
