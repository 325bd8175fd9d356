import ExPTY.PageButton
import ExPTY.Runs

/-! Whether the button of the page and the cell agree once all their events have arrived.
A start that crosses the exit of the session before it is undone on the page and not in
the cell, and then the page offers to start what is running. -/

namespace ExPTY.Proofs.ButtonAgreement
open PageButton Runs
open SmartCell (Assigns Effect Handled)

def Pushed.starts : Pushed → Bool
  | .start_executable _ => true
  | .stop_executable => false

/-- The button once the page has handled what is on its way to it. -/
def shown (world : World) : Icon := if world.exited = [] then world.page.icon else .play

/-- `started?` once the cell has handled what is on its way to it. -/
def started (world : World) : Bool :=
  match world.pushed.getLast? with
  | some event => Pushed.starts event
  | none => world.cell.assigns.started?

def Agrees (world : World) : Prop := world.cell.terminated = false → (shown world = .stop ↔ started world = true)

/-- No start and exit cross: the cell handles no exit before a start that the page pushed
last, and the page pushes no start before an exit that is on its way to it. -/
def Uncrossed (world : World) : PageButton.Event → Prop
  | .click => world.cell.terminated = false → world.page.icon = .play → world.exited = []
  | .cell (.executable_exited ..) => ∀ executable, world.pushed.getLast? ≠ some (.start_executable executable)
  | _ => True

section Cell
variable {cell next : SmartCell.World}

def codes : Effect → List Int
  | .broadcast_exited code => [code]
  | _ => []

private theorem perform_all (effects : List Effect) (cell : SmartCell.World) :
    (effects.foldl SmartCell.World.perform cell).assigns = cell.assigns ∧
      (effects.foldl SmartCell.World.perform cell).terminated = cell.terminated ∧
        (effects.foldl SmartCell.World.perform cell).exits = cell.exits ++ effects.flatMap codes := by
  induction effects generalizing cell with
  | nil => exact ⟨rfl, rfl, (List.append_nil _).symm⟩
  | cons effect rest ih =>
    obtain ⟨assigns, terminated, exits⟩ := ih (cell.perform effect)
    rw [List.foldl_cons]
    refine ⟨assigns.trans ?_, terminated.trans ?_, exits.trans ?_⟩
    · cases effect <;> rfl
    · cases effect <;> rfl
    · rw [List.flatMap_cons, ← List.append_assoc]
      apply congrArg (· ++ rest.flatMap codes)
      cases effect with
      | broadcast_exited code => rfl
      | _ => exact (List.append_nil _).symm

/-- What a step of the cell is to the page: `started?` as it leaves it, and what it broadcasts. -/
structure Settles (cell next : SmartCell.World) (started? : Bool) (broadcast : List Int) : Prop where
  exits : next.exits = cell.exits ++ broadcast
  running : next.terminated = false → cell.terminated = false ∧ next.assigns.started? = started?

private theorem settles_apply (handled : Handled) (before : SmartCell.World) (terminated : before.terminated = cell.terminated)
    (exits : before.exits = cell.exits) :
    Settles cell (before.apply handled) handled.1.started? (handled.2.flatMap codes) := by
  obtain ⟨assigns, ended, broadcast⟩ := perform_all handled.2 { before with assigns := handled.1 }
  refine ⟨broadcast.trans (congrArg (· ++ _) exits), ?_⟩
  intro alive
  exact ⟨terminated.symm.trans (ended.symm.trans alive), congrArg Assigns.started? assigns⟩

private theorem settles_terminate (before : SmartCell.World) (exits : before.exits = cell.exits) (started? : Bool) :
    Settles cell before.terminate started? [] := by
  obtain ⟨_, _, broadcast⟩ := perform_all (SmartCell.stop_executable before.assigns) before
  refine ⟨?_, nofun⟩
  have silent : (SmartCell.stop_executable before.assigns).flatMap codes = [] := by
    unfold SmartCell.stop_executable
    cases before.assigns.pty <;> rfl
  rw [silent, exits] at broadcast
  exact broadcast

private theorem settles_quiet (handled : Handled) (before : SmartCell.World) (terminated : before.terminated = cell.terminated)
    (exits : before.exits = cell.exits) (same : handled.1 = cell.assigns) (silent : handled.2.flatMap codes = []) :
    Settles cell (before.apply handled) cell.assigns.started? [] := by
  have settles := settles_apply handled before terminated exits
  rw [silent, same] at settles
  exact settles

/-- What the cell's events do to `started?`. -/
def follows (started? : Bool) : SmartCell.Event → Bool
  | .start_executable .. => true
  | .stop_executable | .executable_exited .. => false
  | _ => started?

def broadcasts : SmartCell.Event → List Int
  | .executable_exited _ code => [code]
  | _ => []

private theorem start_settles (executable : Option String) (succeeds : Bool) :
    Settles cell (cell.start executable succeeds) true [] := by
  cases running : cell.assigns.started? with
  | true =>
    have ignored : cell.start executable succeeds = cell.apply (cell.assigns, []) := by
      simp [SmartCell.World.start, SmartCell.handle_start, running]
    rw [ignored, ← running]
    exact settles_quiet _ cell rfl rfl rfl rfl
  | false =>
    cases succeeds with
    | true =>
      have opened : cell.start executable true =
          SmartCell.World.apply { cell with sessions := cell.sessions ++ [{}] }
            ({ cell.assigns with pty := some cell.fresh, started? := true }, [.on_data cell.fresh, .on_exit cell.fresh]) := by
        simp [SmartCell.World.start, SmartCell.handle_start, running]
      rw [opened]
      exact settles_apply ({ cell.assigns with pty := some cell.fresh, started? := true }, _) _ rfl rfl
    | false =>
      have crashed : cell.start executable false = cell.terminate := by
        simp [SmartCell.World.start, SmartCell.handle_start, running]
      rw [crashed]
      exact settles_terminate cell rfl true

theorem step_settles {event : SmartCell.Event} (taken : cell.step event = some next) :
    Settles cell next (follows cell.assigns.started? event) (broadcasts event) := by
  cases event with
  | child_exit pty | on_exit pty code =>
    simp only [SmartCell.World.step] at taken
    split at taken <;> cases taken
    exact ⟨(List.append_nil _).symm, fun alive => ⟨alive, rfl⟩⟩
  | start_executable executable succeeds =>
    simp only [SmartCell.World.step] at taken
    split at taken <;> cases taken
    exact start_settles executable succeeds
  | stop_executable =>
    simp only [SmartCell.World.step] at taken
    split at taken <;> cases taken
    have settles := settles_apply (SmartCell.handle_stop cell.assigns) cell rfl rfl
    have silent : (SmartCell.handle_stop cell.assigns).2.flatMap codes = [] := by
      unfold SmartCell.handle_stop SmartCell.stop_executable
      cases cell.assigns.pty <;> rfl
    rw [silent] at settles
    exact settles
  | on_key decoded =>
    simp only [SmartCell.World.step] at taken
    split at taken <;> cases taken
    apply settles_quiet _ cell rfl rfl
    · unfold SmartCell.handle_on_key
      split <;> rfl
    · unfold SmartCell.handle_on_key
      split <;> rfl
  | resize cols rows =>
    simp only [SmartCell.World.step] at taken
    split at taken <;> cases taken
    apply settles_quiet _ cell rfl rfl
    · unfold SmartCell.handle_resize
      repeat' split
      all_goals rfl
    · unfold SmartCell.handle_resize
      repeat' split
      all_goals rfl
  | unknown_event =>
    simp only [SmartCell.World.step] at taken
    split at taken <;> cases taken
    exact ⟨(List.append_nil _).symm, fun alive => ⟨alive, rfl⟩⟩
  | delayed_resize cols rows =>
    simp only [SmartCell.World.step] at taken
    split at taken <;> try contradiction
    split at taken <;> cases taken
    have same : (SmartCell.handle_delayed_resize cols rows cell.assigns).1 = cell.assigns := by
      unfold SmartCell.handle_delayed_resize
      split <;> rfl
    have silent : (SmartCell.handle_delayed_resize cols rows cell.assigns).2.flatMap codes = [] := by
      unfold SmartCell.handle_delayed_resize
      split <;> rfl
    exact settles_quiet _ _ rfl rfl same silent
  | executable_exited origin code =>
    simp only [SmartCell.World.step] at taken
    split at taken <;> try contradiction
    split at taken <;> cases taken
    exact settles_apply (SmartCell.handle_executable_exited code cell.assigns) _ rfl rfl
  | terminate =>
    simp only [SmartCell.World.step] at taken
    split at taken <;> cases taken
    exact settles_terminate cell rfl _

end Cell

section Steps
variable {world next : World}

/-- What an event does to what the page will show and to what the cell will be. -/
def Turns (world next : World) : PageButton.Event → Prop
  | .click =>
    shown next = (if world.page.icon = .play ∧ world.exited = [] then .stop else .play) ∧
      started next = decide (world.page.icon = .play)
  | .cell (.executable_exited ..) => shown next = .play ∧ started next = world.pushed.getLast?.any Pushed.starts
  | _ => shown next = shown world ∧ started next = started world

private theorem follow_settles {event : SmartCell.Event} (taken : world.follow event = some next) :
    ∃ cell, next = { world with cell, exited := world.exited ++ broadcasts event } ∧
      (cell.terminated = false →
        world.cell.terminated = false ∧ cell.assigns.started? = follows world.cell.assigns.started? event) := by
  obtain ⟨cell, moved, rfl⟩ := Option.map_eq_some_iff.mp taken
  have settles := step_settles moved
  exact ⟨cell, by rw [settles.exits, List.drop_left], settles.running⟩

private theorem deliver_turns {succeeds : Bool} (taken : world.step (.deliver succeeds) = some next)
    (alive : next.cell.terminated = false) :
    world.cell.terminated = false ∧ shown next = shown world ∧ started next = started world := by
  simp only [World.step] at taken
  split at taken <;> try contradiction
  next event rest pushed =>
    obtain ⟨cell, rfl, running⟩ := follow_settles taken
    obtain ⟨before, settled⟩ := running alive
    have silent : broadcasts (event.event succeeds) = [] := by cases event <;> rfl
    have starts : follows world.cell.assigns.started? (event.event succeeds) = Pushed.starts event := by cases event <;> rfl
    refine ⟨before, ?_, ?_⟩
    · simp only [shown, silent, List.append_nil]
    · rw [started, started, pushed]
      cases rest with
      | nil => exact settled.trans starts
      | cons first rest =>
        rw [List.getLast?_cons_cons, List.getLast?_cons]

private theorem cell_turns {event : SmartCell.Event} (taken : world.step (.cell event) = some next)
    (alive : next.cell.terminated = false) : world.cell.terminated = false ∧ Turns world next (.cell event) := by
  cases event with
  | start_executable | stop_executable => cases taken
  | executable_exited origin code =>
    obtain ⟨cell, rfl, running⟩ := follow_settles taken
    obtain ⟨before, settled⟩ := running alive
    refine ⟨before, ?_, ?_⟩
    · rw [shown, if_neg]
      exact List.append_ne_nil_of_right_ne_nil _ (List.cons_ne_nil code [])
    · rw [started]
      cases world.pushed.getLast? with
      | none => exact settled
      | some event => rfl
  | _ =>
    obtain ⟨cell, rfl, running⟩ := follow_settles taken
    obtain ⟨before, settled⟩ := running alive
    refine ⟨before, ?_, ?_⟩
    · simp only [shown, broadcasts, List.append_nil]
    · rw [started, started]
      cases world.pushed.getLast? with
      | none => exact settled
      | some event => rfl

theorem step_turns {event : PageButton.Event} (taken : world.step event = some next) (alive : next.cell.terminated = false) :
    world.cell.terminated = false ∧ Turns world next event := by
  cases event with
  | edit executable =>
    cases taken
    exact ⟨alive, rfl, rfl⟩
  | click =>
    cases icon : world.page.icon with
    | stop =>
      simp only [World.step, Page.start_stop_executable, icon] at taken
      cases taken
      refine ⟨alive, ?_, ?_⟩
      · simp [shown, icon]
      · simp [started, icon, Pushed.starts]
    | play =>
      simp only [World.step, Page.start_stop_executable, icon] at taken
      cases taken
      refine ⟨alive, ?_, ?_⟩
      · simp [shown, icon]
      · simp [started, icon, Pushed.starts]
  | deliver succeeds => exact deliver_turns taken alive
  | cell event => exact cell_turns taken alive
  | executable_exited =>
    simp only [World.step] at taken
    split at taken <;> cases taken
    next code rest exited =>
      refine ⟨alive, ?_, rfl⟩
      rw [shown, shown, exited, if_neg (List.cons_ne_nil code rest)]
      exact ite_self _

private theorem exited_alive {origin : SmartCell.Pid} {code : Int}
    (taken : world.step (.cell (.executable_exited origin code)) = some next) : next.cell.terminated = false := by
  obtain ⟨cell, moved, rfl⟩ := Option.map_eq_some_iff.mp taken
  simp only [SmartCell.World.step] at moved
  split at moved <;> try contradiction
  next alive =>
    split at moved <;> cases moved
    exact (perform_all _ _).2.1.trans (Bool.not_eq_true _ ▸ alive)

theorem agrees_iff_uncrossed {event : PageButton.Event} (agrees : Agrees world) (taken : world.step event = some next) :
    Agrees next ↔ Uncrossed world event := by
  have turns := step_turns taken
  cases event with
  | edit executable | deliver succeeds | executable_exited =>
    refine iff_of_true ?_ trivial
    intro alive
    obtain ⟨before, shows, starts⟩ := turns alive
    rw [shows, starts]
    exact agrees before
  | click =>
    cases taken
    constructor
    · intro after alive play
      obtain ⟨_, shows, starts⟩ := turns alive
      have both := after alive
      rw [shows, starts, decide_eq_true play] at both
      simpa [play] using both
    · intro uncrossed alive
      obtain ⟨_, shows, starts⟩ := turns alive
      rw [shows, starts]
      cases icon : world.page.icon with
      | stop => simp
      | play => simp [uncrossed alive icon]
  | cell event =>
    cases event with
    | start_executable | stop_executable => cases taken
    | executable_exited origin code =>
      have alive := exited_alive taken
      obtain ⟨_, shows, starts⟩ := turns alive
      have both : Agrees next ↔ world.pushed.getLast?.any Pushed.starts = false := by
        simp [Agrees, alive, shows, starts]
      rw [both]
      constructor
      · intro none executable last
        rw [last] at none
        cases none
      · intro uncrossed
        cases last : world.pushed.getLast? with
        | none => rfl
        | some event =>
          cases event with
          | start_executable executable => exact absurd last (uncrossed executable)
          | stop_executable => rfl
    | _ =>
      refine iff_of_true ?_ trivial
      intro alive
      obtain ⟨before, shows, starts⟩ := turns alive
      rw [shows, starts]
      exact agrees before

/-- A page that will show the stop icon stands for a cell that will be started. -/
def Stoppable (world : World) : Prop := world.cell.terminated = false → shown world = .stop → started world = true

private theorem step_stoppable {event : PageButton.Event} (stoppable : Stoppable world) (taken : world.step event = some next) :
    Stoppable next := by
  intro alive shows
  obtain ⟨before, turns⟩ := step_turns taken alive
  cases event with
  | edit executable | deliver succeeds | executable_exited =>
    rw [turns.2]
    exact stoppable before (turns.1.symm.trans shows)
  | click =>
    rw [turns.2]
    by_cases play : world.page.icon = .play
    · exact decide_eq_true play
    · rw [turns.1, if_neg fun both => play both.1] at shows
      cases shows
  | cell event =>
    cases event with
    | start_executable | stop_executable => cases taken
    | executable_exited origin code => cases turns.1.symm.trans shows
    | _ =>
      rw [turns.2]
      exact stoppable before (turns.1.symm.trans shows)

end Steps

/-- In every run the button and the cell agree throughout exactly when no start and exit
cross. With nothing on its way the button then shows what the cell is, and in any run it
offers to stop only what is started. -/
theorem button_agrees_iff (darwin : Bool) (executable : Option String) (events : List PageButton.Event) :
    (Always World.step Agrees (.init darwin executable) events ↔ Along World.step Uncrossed (.init darwin executable) events) ∧
      ∀ final, exec World.step (.init darwin executable) events = some final → final.cell.terminated = false →
        final.pushed = [] → final.exited = [] →
          (Along World.step Uncrossed (.init darwin executable) events →
            (final.page.icon = .stop ↔ final.cell.assigns.started? = true)) ∧
            (final.page.icon = .stop → final.cell.assigns.started? = true) := by
  have agree : Always World.step Agrees (.init darwin executable) events ↔
      Along World.step Uncrossed (.init darwin executable) events := by
    apply always_iff_along fun _ => True
    · exact fun _ _ _ _ _ => trivial
    · exact fun _ _ _ _ agrees taken => agrees_iff_uncrossed agrees taken
    · trivial
    · exact fun _ => iff_of_false nofun nofun
  refine ⟨agree, ?_⟩
  intro final reached alive pushed exited
  have shows : shown final = final.page.icon := if_pos exited
  have starts : started final = final.cell.assigns.started? := by rw [started, pushed]; rfl
  constructor
  · intro uncrossed
    rw [← shows, ← starts]
    exact (agree.mpr uncrossed).final reached alive
  · intro stop
    have stoppable : Stoppable final := by
      apply (Always.of_invariant _ events _).final reached
      · exact fun _ _ _ stoppable taken => step_stoppable stoppable taken
      · intro _ shows
        cases shows
    rw [← starts]
    exact stoppable alive (shows.trans stop)

/-- The user stops and starts again while the exit of the first session is on its way. -/
def crossed : List PageButton.Event :=
  [.click, .deliver true, .cell (.child_exit 0), .cell (.on_exit 0 0), .cell (.executable_exited 0 0), .click, .click,
    .deliver true, .deliver true, .executable_exited]

theorem crossed_start_unshown :
    ∃ final, exec World.step (.init false none) crossed = some final ∧ final.pushed = [] ∧ final.exited = [] ∧
      final.page.icon = .play ∧ final.cell.assigns.started? = true ∧
        ¬ Along World.step Uncrossed (.init false none) crossed := by
  refine ⟨_, rfl, rfl, rfl, rfl, rfl, ?_⟩
  intro uncrossed
  have agree := ((button_agrees_iff false none crossed).2 _ rfl rfl rfl rfl).1 uncrossed
  cases agree.mpr rfl

end ExPTY.Proofs.ButtonAgreement
