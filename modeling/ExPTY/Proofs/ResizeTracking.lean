import ExPTY.SmartCell

/-! The size that the session of the smart cell ends up with. A resize without a session
is posted again once, half a second later, and by then it may be older than what the
session has, or find no session again. -/

namespace ExPTY.Proofs.ResizeTracking
open Runs SmartCell

/-- Columns and rows. -/
abbrev Size := Int × Int

structure Sized where
  world : World
  latest : Option Size := none

def latest (before : Option Size) : Event → Option Size
  | .resize cols rows => if cols > 0 ∧ rows > 0 then some (cols, rows) else before
  | _ => before

def Sized.step (sized : Sized) (event : Event) : Option Sized :=
  (sized.world.step event).map fun next => ⟨next, ResizeTracking.latest sized.latest event⟩

def Sized.init (darwin : Bool) (executable : Option String) : Sized :=
  { world := { darwin, assigns := SmartCell.init darwin executable } }

def resizes (world : World) : List (Option Size) := world.sessions.map Session.resized

section Sizes

-- what `cols` and `rows` of the application environment make each spawn's size, and the
-- size that is wanted of a session before any resize
variable (spawn_size unasked : Pid → Size)

def size (world : World) (pty : Pid) : Option Size :=
  ((resizes world)[pty]?).map fun resized => resized.getD (spawn_size pty)

def Sized.wanted (sized : Sized) (pty : Pid) : Size := sized.latest.getD (unasked pty)

/-- With no delayed message left, the session of the cell has the size wanted last. -/
def Fits (sized : Sized) : Prop :=
  ∀ pty, sized.world.assigns.pty = some pty → sized.world.delayed = [] →
    size spawn_size sized.world pty = some (sized.wanted unasked pty)

/-- A session starts when its own size is the one wanted, or while a delayed message
is pending; and the last delayed message to find a session has the size wanted. -/
def Timely (sized : Sized) : Event → Prop
  | .start_executable _ true =>
    sized.world.assigns.started? = false → sized.world.delayed = [] →
      sized.wanted unasked sized.world.fresh = spawn_size sized.world.fresh
  | .delayed_resize cols rows =>
    ∀ pty, sized.world.assigns.pty = some pty → sized.world.delayed = [(cols, rows)] →
      sized.wanted unasked pty = (cols, rows)
  | _ => True

end Sizes

structure Coherent (world : World) : Prop where
  started : world.assigns.started? = world.assigns.pty.isSome
  opened : ∀ pty, world.assigns.pty = some pty → pty < world.sessions.length

section Effects
variable (world : World)

theorem resizes_update (pty : Pid) {change : Session → Session}
    (same : ∀ session, (change session).resized = session.resized) :
    resizes (world.update pty change) = resizes world := by
  apply List.ext_getElem?
  intro index
  simp only [resizes, World.update, List.getElem?_map, List.getElem?_modify]
  cases world.sessions[index]? with
  | none => rfl
  | some session => simp only [Option.map_some]; split <;> simp [same]

theorem size_resized (spawn_size : Pid → Size) {pty : Pid} (opened : pty < world.sessions.length) (cols rows : Int) :
    size spawn_size (world.perform (.resize pty cols rows)) pty = some (cols, rows) := by
  simp [size, resizes, World.perform, World.update, opened]

/-- Neither a size nor the delayed messages. -/
def plain : Effect → Bool
  | .resize _ _ _ | .send_after _ _ _ => false
  | _ => true

structure Unsized (before after : World) : Prop where
  assigns : after.assigns = before.assigns
  delayed : after.delayed = before.delayed
  resizes : resizes after = resizes before

theorem Unsized.update (pty : Pid) {change : Session → Session}
    (same : ∀ session, (change session).resized = session.resized) : Unsized world (world.update pty change) :=
  ⟨rfl, rfl, resizes_update world pty same⟩

theorem Unsized.size {before after : World} (unsized : Unsized before after) (spawn_size : Pid → Size) (pty : Pid) :
    size spawn_size after pty = ResizeTracking.size spawn_size before pty := by
  rw [ResizeTracking.size, unsized.resizes, ResizeTracking.size]

theorem plain_perform {effect : Effect} (harmless : plain effect = true) : Unsized world (world.perform effect) := by
  cases effect with
  | resize | send_after => cases harmless
  | broadcast_exited => exact ⟨rfl, rfl, rfl⟩
  | on_data pty | on_exit pty | write pty | kill pty => exact .update world pty fun _ => rfl

theorem plain_apply (handled : Handled) (harmless : ∀ effect ∈ handled.2, plain effect = true) :
    Unsized { world with assigns := handled.1 } (world.apply handled) := by
  obtain ⟨assigns, effects⟩ := handled
  simp only [World.apply]
  generalize { world with assigns } = before
  induction effects generalizing before with
  | nil => exact ⟨rfl, rfl, rfl⟩
  | cons effect effects ih =>
    have first := plain_perform before (harmless effect (.head _))
    have rest := ih (fun other member => harmless other (.tail _ member)) (before.perform effect)
    exact ⟨rest.assigns.trans first.assigns, rest.delayed.trans first.delayed, rest.resizes.trans first.resizes⟩

theorem stop_plain (assigns : Assigns) : ∀ effect ∈ SmartCell.stop_executable assigns, plain effect = true := by
  unfold SmartCell.stop_executable
  cases assigns.pty with
  | none => exact nofun
  | some pty => intro effect member; cases List.mem_singleton.mp member; rfl

theorem terminate_unsized : Unsized world world.terminate :=
  have unsized := plain_apply world (world.assigns, SmartCell.stop_executable world.assigns) (stop_plain world.assigns)
  ⟨unsized.assigns, unsized.delayed, unsized.resizes⟩

theorem Unsized.length {before after : World} (unsized : Unsized before after) :
    after.sessions.length = before.sessions.length := by
  simpa [ResizeTracking.resizes] using congrArg List.length unsized.resizes

theorem Unsized.coherent {before after : World} (unsized : Unsized before after) (coherent : Coherent before) :
    Coherent after :=
  ⟨by rw [unsized.assigns]; exact coherent.started,
    by rw [unsized.assigns, unsized.length]; exact coherent.opened⟩

end Effects

section Events
variable {spawn_size unasked : Pid → Size} {sized : Sized} {world : World}

/-- What a step does: the cell stays coherent, and the sizes fit afterwards just when the
step was timely. -/
structure Kept (spawn_size unasked : Pid → Size) (sized : Sized) (event : Event) (next : World) : Prop where
  coherent : Coherent next
  fits : Fits spawn_size unasked sized →
    (Fits spawn_size unasked ⟨next, latest sized.latest event⟩ ↔ Timely spawn_size unasked sized event)

private theorem kept_unsized {event : Event} (coherent : Coherent sized.world) (unsized : Unsized sized.world world)
    (same : latest sized.latest event = sized.latest) (timely : Timely spawn_size unasked sized event) :
    Kept spawn_size unasked sized event world := by
  refine ⟨unsized.coherent coherent, fun fits => iff_of_true ?_ timely⟩
  intro pty tracked settled
  simp only [Sized.wanted, same, unsized.size]
  exact fits pty (by rw [← unsized.assigns]; exact tracked) (by rw [← unsized.delayed]; exact settled)

private theorem kept_idle {event : Event} (started : world.assigns.started? = false) (idle : world.assigns.pty = none)
    (timely : Timely spawn_size unasked sized event) :
    Kept spawn_size unasked sized event world := by
  refine ⟨⟨by rw [started, idle]; rfl, fun pty tracked => nomatch idle.symm.trans tracked⟩, fun _ => iff_of_true ?_ timely⟩
  exact fun pty tracked => nomatch idle.symm.trans tracked

/-- The new session is the one of the cell, at the size it was spawned with. -/
private theorem opened_kept (executable : Option String) (idle : sized.world.assigns.started? = false)
    (unsized : Unsized { sized.world with
      assigns := { sized.world.assigns with pty := some sized.world.fresh, started? := true }
      sessions := sized.world.sessions ++ [{}] } world) :
    Kept spawn_size unasked sized (.start_executable executable true) world := by
  have size : size spawn_size world sized.world.fresh = some (spawn_size sized.world.fresh) := by
    rw [unsized.size]
    simp [ResizeTracking.size, resizes, World.fresh]
  refine ⟨unsized.coherent ⟨rfl, ?_⟩, fun _ => ⟨?_, ?_⟩⟩
  · intro pty tracked
    cases tracked
    simp [World.fresh]
  · intro fits _ settled
    have fitted := fits sized.world.fresh (by rw [unsized.assigns]) (by rw [unsized.delayed]; exact settled)
    exact (Option.some.inj (size.symm.trans fitted)).symm
  · intro timely pty tracked settled
    rw [unsized.assigns] at tracked
    cases tracked
    rw [unsized.delayed] at settled
    exact size.trans (congrArg some (timely idle settled).symm)

private theorem start_kept (coherent : Coherent sized.world) (executable : Option String) (succeeds : Bool) :
    Kept spawn_size unasked sized (.start_executable executable succeeds) (sized.world.start executable succeeds) := by
  simp only [World.start, handle_start]
  cases started : sized.world.assigns.started? with
  | true =>
    refine kept_unsized coherent ⟨rfl, rfl, rfl⟩ rfl ?_
    cases succeeds with
    | false => trivial
    | true => exact fun idle => nomatch started.symm.trans idle
  | false =>
    cases succeeds with
    | false => exact kept_unsized coherent (terminate_unsized sized.world) rfl trivial
    | true =>
      refine opened_kept executable started ?_
      exact plain_apply { sized.world with sessions := sized.world.sessions ++ [{}] }
        ({ sized.world.assigns with pty := some sized.world.fresh, started? := true },
          [.on_data sized.world.fresh, .on_exit sized.world.fresh]) (by simp [plain])

theorem coherent_resized (coherent : Coherent sized.world) (delayed : List Size) (pty : Pid) (cols rows : Int) :
    Coherent (World.perform { sized.world with delayed } (.resize pty cols rows)) := by
  refine ⟨coherent.started, fun other tracked => ?_⟩
  simpa [World.perform, World.update] using coherent.opened other tracked

private theorem resize_kept (coherent : Coherent sized.world) (cols rows : Int) :
    Kept spawn_size unasked sized (.resize cols rows) (sized.world.apply (handle_resize cols rows sized.world.assigns)) := by
  unfold handle_resize
  split
  next positive =>
    cases tracked : sized.world.assigns.pty with
    | none =>
      refine kept_idle ?_ tracked trivial
      exact coherent.started.trans (by rw [tracked]; rfl)
    | some pty =>
      refine ⟨coherent_resized coherent sized.world.delayed pty cols rows, fun _ => iff_of_true ?_ trivial⟩
      intro other same _
      cases tracked.symm.trans same
      simp only [Sized.wanted, latest, if_pos positive]
      exact size_resized sized.world spawn_size (coherent.opened pty tracked) cols rows
  next negative =>
    exact kept_unsized coherent ⟨rfl, rfl, rfl⟩ (by simp only [latest, if_neg negative]) trivial

private theorem delayed_kept (coherent : Coherent sized.world) {cols rows : Int} (pending : (cols, rows) ∈ sized.world.delayed) :
    Kept spawn_size unasked sized (.delayed_resize cols rows)
      (World.apply { sized.world with delayed := sized.world.delayed.erase (cols, rows) }
        (handle_delayed_resize cols rows sized.world.assigns)) := by
  unfold handle_delayed_resize
  cases tracked : sized.world.assigns.pty with
  | none =>
    refine kept_idle ?_ tracked fun pty busy => nomatch tracked.symm.trans busy
    exact coherent.started.trans (by rw [tracked]; rfl)
  | some pty =>
    have last : sized.world.delayed.erase (cols, rows) = [] ↔ sized.world.delayed = [(cols, rows)] := by
      rw [List.erase_eq_nil_iff, or_iff_right (List.ne_nil_of_mem pending)]
    have size := size_resized { sized.world with delayed := sized.world.delayed.erase (cols, rows) }
      spawn_size (coherent.opened pty tracked) cols rows
    refine ⟨coherent_resized coherent _ pty cols rows, fun _ => ⟨?_, ?_⟩⟩
    · intro fits other same settled
      cases tracked.symm.trans same
      exact Option.some.inj ((fits pty tracked (last.mpr settled)).symm.trans size)
    · intro timely other same settled
      cases tracked.symm.trans same
      exact size.trans (congrArg some (timely pty tracked (last.mp settled)).symm)

theorem step_kept (spawn_size unasked : Pid → Size) {event : Event} (coherent : Coherent sized.world)
    (taken : sized.world.step event = some world) :
    Kept spawn_size unasked sized event world := by
  cases event <;> simp only [World.step] at taken <;> split at taken <;> try contradiction
  case child_exit pty _ =>
    cases taken
    exact kept_unsized coherent (.update sized.world pty fun _ => rfl) rfl trivial
  case on_exit pty code _ =>
    cases taken
    have unsized : Unsized sized.world (sized.world.update pty fun session => { session with notified := true }) :=
      .update sized.world pty fun _ => rfl
    exact kept_unsized coherent ⟨unsized.assigns, unsized.delayed, unsized.resizes⟩ rfl trivial
  case start_executable executable succeeds _ =>
    cases taken
    exact start_kept coherent executable succeeds
  case stop_executable =>
    cases taken
    have unsized := plain_apply sized.world (handle_stop sized.world.assigns) (stop_plain sized.world.assigns)
    exact kept_idle (by rw [unsized.assigns]; rfl) (by rw [unsized.assigns]; rfl) trivial
  case on_key decoded _ =>
    cases taken
    unfold handle_on_key
    split
    · exact kept_unsized coherent (plain_apply sized.world (sized.world.assigns, [.write _ _]) (by simp [plain])) rfl trivial
    · exact kept_unsized coherent ⟨rfl, rfl, rfl⟩ rfl trivial
  case resize cols rows _ =>
    cases taken
    exact resize_kept coherent cols rows
  case unknown_event =>
    cases taken
    exact kept_unsized coherent ⟨rfl, rfl, rfl⟩ rfl trivial
  case delayed_resize cols rows _ =>
    split at taken <;> cases taken
    next pending => exact delayed_kept coherent pending
  case executable_exited origin code _ =>
    split at taken <;> cases taken
    have unsized := plain_apply { sized.world with notices := sized.world.notices.erase (origin, code) }
      (handle_executable_exited code sized.world.assigns) (by simp [handle_executable_exited, plain])
    exact kept_idle (by rw [unsized.assigns]; rfl) (by rw [unsized.assigns]; rfl) trivial
  case terminate =>
    cases taken
    exact kept_unsized coherent (terminate_unsized sized.world) rfl trivial

end Events

/-- In every run the session has the size asked for last, or else its spawn's, whenever no
delayed message is pending, exactly when every start and every delayed message is timely. -/
theorem fits_iff (spawn_size : Pid → Size) (darwin : Bool) (executable : Option String) (events : List Event) :
    Always Sized.step (Fits spawn_size spawn_size) (.init darwin executable) events ↔
      Along Sized.step (Timely spawn_size spawn_size) (.init darwin executable) events := by
  apply always_iff_along fun sized => Coherent sized.world
  · intro sized event next coherent taken
    obtain ⟨world, moved, rfl⟩ := Option.map_eq_some_iff.mp taken
    exact (step_kept spawn_size spawn_size coherent moved).coherent
  · intro sized event next coherent fits taken
    obtain ⟨world, moved, rfl⟩ := Option.map_eq_some_iff.mp taken
    exact (step_kept spawn_size spawn_size coherent moved).fits fits
  · exact ⟨rfl, nofun⟩
  · exact nofun

/-- The page reports its size to a first session. Its second one is at that size already
and so the page has nothing to report. -/
def restart : List Event := [.start_executable none true, .resize 120 40, .stop_executable, .start_executable none true]

/-- The size of a spawn where nothing is configured. -/
def default_size (_ : Pid) : Size := (80, 24)

theorem restart_forgets_size :
    ∃ final, exec Sized.step (.init false none) restart = some final ∧ final.world.assigns.pty = some 1 ∧
      final.world.delayed = [] ∧ size default_size final.world 1 = some (80, 24) ∧
      final.wanted default_size 1 = (120, 40) ∧
      ¬ Always Sized.step (Fits default_size default_size) (.init false none) restart := by
  refine ⟨_, rfl, rfl, rfl, rfl, rfl, ?_⟩
  intro always
  exact absurd (always.final rfl 1 rfl rfl) (by decide)

end ExPTY.Proofs.ResizeTracking
