import ExPTY.SmartCell

/-! Which session the smart cell follows. The abstract model is a register that holds
the session opened last until that session ends or the user closes it. The cell keeps
to it exactly as long as no exit notice of an older session reaches it while a newer
one is tracked: the handler cannot tell the two apart. -/

namespace ExPTY.Proofs.SmartCellTracking
open Runs SmartCell
open Server (Binary)

inductive Signal where
  | opened (pty : Pid)
  | ended (pty : Pid)
  | closed
  | silent

def follow (current : Option Pid) : Signal → Option Pid
  | .opened pty => some pty
  | .ended pty => if current = some pty then none else current
  | .closed => none
  | .silent => current

/-- What an event of the world means for the session to be followed. -/
def signal (world : World) : Event → Signal
  | .start_executable _ true => if world.assigns.started? then .silent else .opened world.fresh
  | .stop_executable => .closed
  | .executable_exited origin _ => .ended origin
  | _ => .silent

structure Watched where
  world : World
  current : Option Pid

def Watched.step (watched : Watched) (event : Event) : Option Watched :=
  (watched.world.step event).map fun next => ⟨next, follow watched.current (signal watched.world event)⟩

def Watched.init (darwin : Bool) (executable : Option String) : Watched :=
  ⟨{ darwin, assigns := SmartCell.init darwin executable }, none⟩

def Unattended (world : World) (pty : Pid) : Prop :=
  ∃ session, world.sessions[pty]? = some session ∧ session.alive = true ∧ session.killed = false

def Ended (world : World) (pty : Pid) : Prop :=
  ∃ session, world.sessions[pty]? = some session ∧ session.alive = false

/-- The cell and the register agree, and whatever session still runs unkilled is the
one that `stop_executable` and `terminate` would kill. -/
structure Tracks (watched : Watched) : Prop where
  pty : watched.world.assigns.pty = watched.current
  started : watched.world.assigns.started? = watched.current.isSome
  alone : ∀ pty, Unattended watched.world pty → SmartCell.stop_executable watched.world.assigns = [.kill pty 9]

/-- An exit notice is handled only when nothing is tracked or its own session is. -/
def OwnNotice (watched : Watched) : Event → Prop
  | .executable_exited origin _ => watched.world.assigns.pty = none ∨ watched.world.assigns.pty = some origin
  | _ => True

def Posted (watched : Watched) : Prop := ∀ notice ∈ watched.world.notices, Ended watched.world notice.1

theorem kills_iff (assigns : Assigns) (pty : Pid) :
    SmartCell.stop_executable assigns = [.kill pty 9] ↔ assigns.pty = some pty := by
  unfold SmartCell.stop_executable
  cases assigns.pty <;> simp

section Sessions
variable (world : World) {pty : Pid}

theorem unattended_update {target : Pid} {change : Session → Session}
    (unattended : Unattended (world.update target change) pty)
    (alive : ∀ session, (change session).alive = true → session.alive = true)
    (killed : ∀ session, (change session).killed = false → session.killed = false) : Unattended world pty := by
  obtain ⟨session, found, running, spared⟩ := unattended
  simp only [World.update, List.getElem?_modify] at found
  obtain ⟨old, present, rfl⟩ := Option.map_eq_some_iff.mp found
  refine ⟨old, present, ?_⟩
  split at running
  next => rw [if_pos (by assumption)] at spared; exact ⟨alive old running, killed old spared⟩
  next => rw [if_neg (by assumption)] at spared; exact ⟨running, spared⟩

theorem update_excludes {target : Pid} {change : Session → Session}
    (settles : ∀ session, (change session).alive = true → (change session).killed = true) :
    ¬ Unattended (world.update target change) target := by
  intro ⟨session, found, running, spared⟩
  simp only [World.update, List.getElem?_modify] at found
  obtain ⟨old, _, rfl⟩ := Option.map_eq_some_iff.mp found
  simp only [ite_true] at running spared
  rw [settles old running] at spared
  cases spared

theorem ended_update {target : Pid} {change : Session → Session} (ended : Ended world pty)
    (alive : ∀ session, (change session).alive = true → session.alive = true) :
    Ended (world.update target change) pty := by
  obtain ⟨session, found, dead⟩ := ended
  refine ⟨if target = pty then change session else session, ?_, ?_⟩
  · simp only [World.update, List.getElem?_modify, found]
    rfl
  · split
    · rw [← Bool.not_eq_true]
      intro running
      rw [alive session running] at dead
      cases dead
    · exact dead

structure Effects (before after : World) (effects : List Effect) : Prop where
  assigns : after.assigns = before.assigns
  notices : after.notices = before.notices
  unattended : ∀ pty, Unattended after pty →
    Unattended before pty ∧ ∀ target signal, Effect.kill target signal ∈ effects → pty ≠ target
  ended : ∀ pty, Ended before pty → Ended after pty

private theorem update_effects (target : Pid) (change : Session → Session) (effect : Effect)
    (harmless : ∀ target signal, effect ≠ .kill target signal)
    (alive : ∀ session, (change session).alive = true → session.alive = true)
    (killed : ∀ session, (change session).killed = false → session.killed = false) :
    Effects world (world.update target change) [effect] := by
  refine ⟨rfl, rfl, ?_, fun pty ended => ended_update _ ended alive⟩
  intro pty unattended
  refine ⟨unattended_update _ unattended alive killed, ?_⟩
  intro other signal member
  exact absurd (List.mem_singleton.mp member).symm (harmless other signal)

theorem perform_effects (world : World) (effect : Effect) : Effects world (world.perform effect) [effect] := by
  cases effect with
  | send_after cols rows delay | broadcast_exited code =>
    exact ⟨rfl, rfl, fun pty unattended => ⟨unattended, by simp⟩, fun pty ended => ended⟩
  | kill target signal =>
    refine ⟨rfl, rfl, ?_, fun pty ended => ended_update _ ended fun _ running => running⟩
    intro pty unattended
    refine ⟨unattended_update _ unattended (fun _ running => running) (fun _ spared => nomatch spared), ?_⟩
    intro other sent member same
    cases List.mem_singleton.mp member
    subst pty
    exact update_excludes _ (fun _ _ => rfl) unattended
  | on_data target | on_exit target | write target _ | resize target _ _ =>
    apply update_effects
    · intros
      nofun
    · exact fun _ running => running
    · exact fun _ spared => spared

private theorem perform_all (effects : List Effect) (world : World) :
    Effects world (effects.foldl World.perform world) effects := by
  induction effects generalizing world with
  | nil => exact ⟨rfl, rfl, fun pty unattended => ⟨unattended, by simp⟩, fun pty ended => ended⟩
  | cons effect rest ih =>
    have first := perform_effects world effect
    have later := ih (world.perform effect)
    refine ⟨later.assigns.trans first.assigns, later.notices.trans first.notices, ?_,
      fun pty ended => later.ended pty (first.ended pty ended)⟩
    intro pty unattended
    obtain ⟨between, spared⟩ := later.unattended pty unattended
    obtain ⟨before, spared'⟩ := first.unattended pty between
    refine ⟨before, ?_⟩
    intro target signal member
    rcases List.mem_cons.mp member with same | member
    · exact spared' target signal (List.mem_singleton.mpr same)
    · exact spared target signal member

theorem apply_effects (world : World) (handled : Handled) :
    Effects { world with assigns := handled.1 } (world.apply handled) handled.2 :=
  perform_all handled.2 { world with assigns := handled.1 }

end Sessions

section Events
variable {watched : Watched}

private theorem quiet {next : World} (tracks : Tracks watched) (assigns : next.assigns = watched.world.assigns)
    (unattended : ∀ pty, Unattended next pty → Unattended watched.world pty) : Tracks ⟨next, watched.current⟩ :=
  ⟨by rw [assigns]; exact tracks.pty, by rw [assigns]; exact tracks.started,
    fun pty running => by rw [assigns]; exact tracks.alone pty (unattended pty running)⟩

private theorem passive (before : World) (handled : Handled) (tracks : Tracks watched)
    (sessions : before.sessions = watched.world.sessions) (same : handled.1 = watched.world.assigns) :
    Tracks ⟨before.apply handled, watched.current⟩ := by
  have effects := apply_effects before handled
  apply quiet tracks (effects.assigns.trans same)
  intro pty running
  obtain ⟨⟨session, found, spared⟩, _⟩ := effects.unattended pty running
  exact ⟨session, sessions ▸ found, spared⟩

private theorem on_key_keeps (decoded : Option Binary) (assigns : Assigns) :
    (handle_on_key decoded assigns).1 = assigns := by
  unfold handle_on_key
  split <;> rfl

private theorem resize_keeps (cols rows : Int) (assigns : Assigns) : (handle_resize cols rows assigns).1 = assigns := by
  unfold handle_resize
  split
  · split <;> rfl
  · rfl

private theorem delayed_resize_keeps (cols rows : Int) (assigns : Assigns) :
    (handle_delayed_resize cols rows assigns).1 = assigns := by
  unfold handle_delayed_resize
  split <;> rfl

private theorem tracked_of_unattended (tracks : Tracks watched) {pty : Pid} (running : Unattended watched.world pty) :
    watched.world.assigns.pty = some pty :=
  (kills_iff _ _).mp (tracks.alone pty running)

private theorem stopped_attended (tracks : Tracks watched) (assigns : Assigns) (pty : Pid) :
    ¬ Unattended (watched.world.apply (assigns, SmartCell.stop_executable watched.world.assigns)) pty := by
  intro running
  have effects := apply_effects watched.world (assigns, SmartCell.stop_executable watched.world.assigns)
  obtain ⟨before, spared⟩ := effects.unattended pty running
  apply spared pty 9 _ rfl
  change Effect.kill pty 9 ∈ SmartCell.stop_executable watched.world.assigns
  rw [tracks.alone pty before]
  exact List.mem_singleton.mpr rfl

private theorem terminate_tracks (tracks : Tracks watched) : Tracks ⟨watched.world.terminate, watched.current⟩ :=
  have passed := passive watched.world (watched.world.assigns, SmartCell.stop_executable watched.world.assigns)
    tracks rfl rfl
  ⟨passed.pty, passed.started, passed.alone⟩

private theorem untracked_attended (tracks : Tracks watched) (idle : watched.world.assigns.pty = none) (pty : Pid) :
    ¬ Unattended watched.world pty := by
  intro running
  have tracked := tracked_of_unattended tracks running
  rw [idle] at tracked
  cases tracked

/-- A fresh session takes over. Nothing else runs unkilled, since nothing was tracked. -/
private theorem open_tracks (tracks : Tracks watched) (idle : watched.world.assigns.pty = none) :
    Tracks ⟨World.apply { watched.world with sessions := watched.world.sessions ++ [{}] }
      ({ watched.world.assigns with pty := some watched.world.fresh, started? := true },
        [.on_data watched.world.fresh, .on_exit watched.world.fresh]), some watched.world.fresh⟩ := by
  have effects := apply_effects { watched.world with sessions := watched.world.sessions ++ [{}] }
    ({ watched.world.assigns with pty := some watched.world.fresh, started? := true },
      [.on_data watched.world.fresh, .on_exit watched.world.fresh])
  refine ⟨by rw [effects.assigns], by rw [effects.assigns]; rfl, ?_⟩
  intro pty running
  obtain ⟨⟨session, found, spared⟩, _⟩ := effects.unattended pty running
  rw [kills_iff, effects.assigns]
  obtain ⟨bound, _⟩ := List.getElem?_eq_some_iff.mp found
  rw [List.length_append] at bound
  rw [List.getElem?_append] at found
  split at found
  · exact absurd ⟨session, found, spared⟩ (untracked_attended tracks idle pty)
  · have last : pty = watched.world.fresh := Nat.eq_of_lt_succ_of_not_lt bound (by assumption)
    rw [last]

private theorem start_tracks (tracks : Tracks watched) (executable : Option String) (succeeds : Bool) :
    Tracks ⟨watched.world.start executable succeeds,
      follow watched.current (signal watched.world (.start_executable executable succeeds))⟩ := by
  simp only [World.start, handle_start]
  cases started : watched.world.assigns.started? with
  | true =>
    have kept := passive watched.world (watched.world.assigns, []) tracks rfl rfl
    cases succeeds <;> simpa [signal, started, follow] using kept
  | false =>
    have idle : watched.world.assigns.pty = none := by
      rw [tracks.pty, ← Option.not_isSome_iff_eq_none, ← tracks.started, started]
      nofun
    cases succeeds with
    | false => exact terminate_tracks tracks
    | true => simpa [signal, started, follow] using open_tracks tracks idle

/-- The session a notice comes from has ended, so forgetting it leaves nothing running. -/
private theorem exited_tracks (tracks : Tracks watched) {origin : Pid} (code : Int) (ended : Ended watched.world origin)
    (own : watched.world.assigns.pty = none ∨ watched.world.assigns.pty = some origin) (notices : List (Pid × Int)) :
    Tracks ⟨World.apply { watched.world with notices } (handle_executable_exited code watched.world.assigns),
      follow watched.current (.ended origin)⟩ := by
  have effects := apply_effects { watched.world with notices } (handle_executable_exited code watched.world.assigns)
  have forgotten : follow watched.current (.ended origin) = none := by
    rw [tracks.pty] at own
    rcases own with own | own <;> simp [follow, own]
  rw [forgotten]
  refine ⟨by rw [effects.assigns]; rfl, by rw [effects.assigns]; rfl, ?_⟩
  intro pty running
  obtain ⟨⟨session, found, alive, spared⟩, _⟩ := effects.unattended pty running
  have tracked := tracked_of_unattended tracks ⟨session, found, alive, spared⟩
  rcases own with own | own
  · rw [own] at tracked
    cases tracked
  · rw [own] at tracked
    cases tracked
    obtain ⟨other, found', dead⟩ := ended
    cases found.symm.trans found'
    rw [dead] at alive
    cases alive

end Events

theorem step_tracks {watched next : Watched} {event : Event} (tracks : Tracks watched) (posted : Posted watched)
    (own : OwnNotice watched event) (taken : watched.step event = some next) : Tracks next := by
  obtain ⟨world, moved, rfl⟩ := Option.map_eq_some_iff.mp taken
  cases event <;> simp only [World.step] at moved <;> split at moved <;> try contradiction
  case child_exit pty _ =>
    cases moved
    exact quiet tracks rfl fun pty running => unattended_update watched.world running (fun _ alive => nomatch alive) fun _ spared => spared
  case on_exit pty code _ =>
    cases moved
    refine quiet tracks (Eq.refl watched.world.assigns) ?_
    intro pty running
    exact unattended_update watched.world running (fun _ alive => alive) fun _ spared => spared
  case start_executable executable succeeds _ =>
    cases moved
    exact start_tracks tracks executable succeeds
  case stop_executable =>
    cases moved
    refine ⟨?_, ?_, fun pty running => absurd running (stopped_attended tracks _ pty)⟩
    · exact congrArg Assigns.pty (apply_effects watched.world (handle_stop watched.world.assigns)).assigns
    · exact congrArg Assigns.started? (apply_effects watched.world (handle_stop watched.world.assigns)).assigns
  case on_key decoded _ =>
    cases moved
    exact passive _ _ tracks rfl (on_key_keeps decoded _)
  case resize cols rows _ =>
    cases moved
    exact passive _ _ tracks rfl (resize_keeps cols rows _)
  case unknown_event =>
    cases moved
    exact tracks
  case delayed_resize cols rows _ =>
    split at moved <;> cases moved
    exact passive _ _ tracks rfl (delayed_resize_keeps cols rows _)
  case executable_exited origin code _ =>
    split at moved <;> cases moved
    exact exited_tracks tracks code (posted (origin, code) (by assumption)) own _
  case terminate =>
    cases moved
    exact terminate_tracks tracks

/-- A foreign notice makes the cell forget the session it should follow. -/
theorem own_of_tracks {watched next : Watched} {event : Event} (before : Tracks watched) (after : Tracks next)
    (taken : watched.step event = some next) : OwnNotice watched event := by
  obtain ⟨world, moved, rfl⟩ := Option.map_eq_some_iff.mp taken
  cases event with
  | executable_exited origin code =>
    simp only [World.step] at moved
    split at moved <;> try contradiction
    split at moved <;> cases moved
    have forgot := (apply_effects { watched.world with notices := watched.world.notices.erase (origin, code) }
      (handle_executable_exited code watched.world.assigns)).assigns
    have empty : none = follow watched.current (.ended origin) := (congrArg Assigns.pty forgot).symm.trans after.pty
    unfold OwnNotice
    rw [before.pty]
    by_cases own : watched.current = some origin
    · exact Or.inr own
    · rw [follow, if_neg own] at empty
      exact Or.inl empty.symm
  | _ => exact trivial

/-- Sessions stay ended, and only an ended session posts a notice. -/
structure Grows (before after : World) : Prop where
  ended : ∀ pty, Ended before pty → Ended after pty
  notices : ∀ notice ∈ after.notices, notice ∈ before.notices ∨ Ended after notice.1

theorem Grows.apply {before after : World} (grows : Grows before after) (handled : Handled) :
    Grows before (after.apply handled) := by
  have effects := apply_effects after handled
  refine ⟨fun pty ended => effects.ended pty (grows.ended pty ended), ?_⟩
  intro notice posted
  rw [effects.notices] at posted
  exact (grows.notices notice posted).imp_right fun ended => effects.ended notice.1 ended

private theorem grows_same (before : World) {after : World} (sessions : after.sessions = before.sessions)
    (notices : ∀ notice ∈ after.notices, notice ∈ before.notices) : Grows before after := by
  refine ⟨?_, fun notice posted => Or.inl (notices notice posted)⟩
  intro pty ⟨session, found, dead⟩
  exact ⟨session, sessions ▸ found, dead⟩

private theorem terminate_grows (world : World) : Grows world world.terminate :=
  have grows := (grows_same world rfl fun _ posted => posted).apply
    (world.assigns, SmartCell.stop_executable world.assigns)
  ⟨grows.ended, grows.notices⟩

private theorem start_grows (world : World) (executable : Option String) (succeeds : Bool) :
    Grows world (world.start executable succeeds) := by
  simp only [World.start]
  split
  · apply Grows.apply
    refine ⟨?_, fun notice posted => Or.inl posted⟩
    intro pty ⟨session, found, dead⟩
    refine ⟨session, ?_, dead⟩
    split
    · exact found
    · exact List.getElem?_append_left (List.getElem?_eq_some_iff.mp found).1 ▸ found
  · exact terminate_grows world

theorem step_grows {world next : World} {event : Event} (taken : world.step event = some next) :
    Grows world next := by
  cases event <;> simp only [World.step] at taken <;> split at taken <;> try contradiction
  case child_exit pty running =>
    cases taken
    exact ⟨fun other ended => ended_update world ended fun _ alive => (nomatch alive), fun notice posted => Or.inl posted⟩
  case on_exit pty code ready =>
    cases taken
    refine ⟨fun other ended => ended_update world ended fun _ alive => alive, ?_⟩
    intro notice posted
    rcases List.mem_append.mp posted with posted | posted
    · exact Or.inl posted
    · cases List.mem_singleton.mp posted
      obtain ⟨session, found, ready⟩ := (Option.any_eq_true _ _).mp ready
      have dead : session.alive = false := by
        simp only [Bool.and_eq_true, Bool.not_eq_true'] at ready
        exact ready.1.2
      exact Or.inr (ended_update world ⟨session, found, dead⟩ fun _ alive => alive)
  case start_executable executable succeeds _ =>
    cases taken
    exact start_grows world executable succeeds
  case terminate =>
    cases taken
    exact terminate_grows world
  case unknown_event =>
    cases taken
    exact grows_same world rfl fun _ posted => posted
  case stop_executable | on_key | resize =>
    cases taken
    exact Grows.apply (grows_same world rfl fun _ posted => posted) _
  case delayed_resize cols rows _ =>
    split at taken <;> cases taken
    have grows : Grows world { world with delayed := world.delayed.erase (cols, rows) } :=
      grows_same world rfl fun _ posted => posted
    exact grows.apply _
  case executable_exited origin code _ =>
    split at taken <;> cases taken
    have grows : Grows world { world with notices := world.notices.erase (origin, code) } :=
      grows_same world rfl fun _ posted => List.mem_of_mem_erase posted
    exact grows.apply _

theorem step_posted {watched next : Watched} {event : Event} (posted : Posted watched)
    (taken : watched.step event = some next) : Posted next := by
  obtain ⟨world, moved, rfl⟩ := Option.map_eq_some_iff.mp taken
  have grows := step_grows moved
  intro notice held
  rcases grows.notices notice held with old | ended
  · exact grows.ended notice.1 (posted notice old)
  · exact ended

theorem init_tracks (darwin : Bool) (executable : Option String) : Tracks (.init darwin executable) := by
  refine ⟨rfl, rfl, ?_⟩
  intro pty ⟨session, found, _⟩
  cases found

/-- In every run the cell follows its last session, and leaves no other one running,
exactly when no exit notice of another session is handled while one is tracked. -/
theorem tracks_iff (darwin : Bool) (executable : Option String) (events : List Event) :
    Always Watched.step Tracks (.init darwin executable) events ↔
      Along Watched.step OwnNotice (.init darwin executable) events := by
  apply always_iff_along Posted
  · intro watched event next posted taken
    exact step_posted posted taken
  · intro watched event next posted tracks taken
    exact ⟨fun after => own_of_tracks tracks after taken, fun own => step_tracks tracks posted own taken⟩
  · intro notice held
    cases held
  · exact init_tracks darwin executable

/-- A second session is running when the exit notice of the first, stopped one arrives. -/
def staleNotice : List Event :=
  [.start_executable none true, .stop_executable, .child_exit 0, .on_exit 0 0, .start_executable none true,
    .executable_exited 0 0]

/-- The cell then shows nothing as started, although session 1 runs on, and neither
`stop_executable` nor `terminate` would send it anything. -/
theorem stale_notice_orphans :
    ∃ final, exec Watched.step (.init false none) staleNotice = some final ∧ final.current = some 1 ∧
      final.world.assigns.pty = none ∧ final.world.assigns.started? = false ∧ Unattended final.world 1 ∧
      SmartCell.stop_executable final.world.assigns = [] ∧
      ¬ Always Watched.step Tracks (.init false none) staleNotice := by
  refine ⟨_, rfl, rfl, rfl, rfl, ⟨_, rfl, rfl, rfl⟩, rfl, ?_⟩
  intro always
  cases (always.final rfl).started

end ExPTY.Proofs.SmartCellTracking
