import ExPTY.PageSize
import ExPTY.Proofs.ResizeTracking

/-! Whether the terminal on the page and the session behind it have one size. The page
tells the cell of every size its terminal takes, once each and in order, however often it
is started; so what ResizeTracking asks of the cell is all that the two need to agree, where
the size wanted before any resize is the one that the page's terminal begins with. -/

namespace ExPTY.Proofs.SizeAgreement
open PageSize Runs
open PageButton (Icon)
open ResizeTracking (Coherent default_size latest)
open SmartCell (Pid)

/-- The page and the cell, with the last resize that the cell has handled and the clicks
that started and stopped. -/
structure Followed where
  world : World
  latest : Option Size := none
  starts : Nat := 0
  stops : Nat := 0

namespace Followed

def sized (followed : Followed) : ResizeTracking.Sized := ⟨followed.world.cell, followed.latest⟩

/-- What the cell handles in a step. -/
def handled (world : World) : Event → Option SmartCell.Event
  | .deliver succeeds => world.pushed.head?.map (Pushed.event succeeds)
  | .cell event => some event
  | _ => none

def after (followed : Followed) (event : Event) (next : World) : Followed :=
  { world := next
    latest := (handled followed.world event).elim followed.latest (ResizeTracking.latest followed.latest)
    starts := followed.starts + match event, followed.world.page.icon with
      | .click _, .play => 1
      | _, _ => 0
    stops := followed.stops + match event, followed.world.page.icon with
      | .click _, .stop => 1
      | _, _ => 0 }

def step (followed : Followed) (event : Event) : Option Followed := (followed.world.step event).map (followed.after event)

def init (darwin : Bool) (executable : Option String) : Followed := { world := .init darwin executable }

end Followed

/-- The size that the page's terminal begins with, which no configuration changes. -/
def first_size : Size := ({} : View).size

/-- The last resize once the cell has handled what is on its way to it. -/
def pending (latest : Option Size) (pushed : List Pushed) : Option Size :=
  pushed.foldl (fun before event => ResizeTracking.latest before (event.event true)) latest

/-- The terminal is opened and listened to once, at the first start. -/
structure Attached (view : View) : Prop where
  opens : view.opens = view.listeners
  listeners : view.listeners = if view.opened then 1 else 0

/-- Every start makes an observer, and every stop ends one that still observes. -/
structure Observed (view : View) (icon : Icon) (starts stops : Nat) : Prop where
  made : view.made = starts
  young : ∀ observer ∈ view.observing, observer < view.made
  distinct : view.observing.Nodup
  counted : view.observing.length + stops = starts
  current : icon = .stop → ∃ observer, view.resizeObserver = some observer ∧ observer ∈ view.observing

structure Shown (followed : Followed) : Prop where
  attached : Attached followed.world.view
  told : (pending followed.latest followed.world.pushed).getD first_size = followed.world.view.size
  observed : Observed followed.world.view followed.world.page.icon followed.starts followed.stops

section Sessions

-- the size that each session is spawned with
variable (spawn_size : Pid → Size)

/-- With nothing on its way, the session of the cell has the size of the terminal. -/
def Agrees (world : World) : Prop :=
  world.pushed = [] → world.cell.delayed = [] →
    ∀ pty, world.cell.assigns.pty = some pty → ResizeTracking.size spawn_size world.cell pty = some world.view.size

def Fits (followed : Followed) : Prop := ResizeTracking.Fits spawn_size (fun _ => first_size) followed.sized

/-- The cell handles what it is given in time, and what it starts before it has heard of any
size is spawned with the one that the page's terminal begins with. -/
def Timely (followed : Followed) (event : Event) : Prop :=
  ∀ event', Followed.handled followed.world event = some event' →
    ResizeTracking.Timely spawn_size (fun _ => first_size) followed.sized event'

end Sessions

section Views
variable {view : View} {size : Size}

theorem pending_append (latest : Option Size) (first second : List Pushed) :
    pending latest (first ++ second) = pending (pending latest first) second := List.foldl_append

/-- Who has heard of the terminal's size before hears of its new one. -/
def Told (view : View) (shown : View × List Pushed) : Prop :=
  ∀ latest : Option Size, latest.getD first_size = view.size → (pending latest shown.2).getD first_size = shown.1.size

/-- Only the size of the terminal changes. -/
def Resized (view : View) (shown : View × List Pushed) : Prop := shown.1 = { view with size := shown.1.size }

theorem told_same (view : View) : Told view (view, []) := fun _ heard => heard

theorem told_resize (listened : view.listeners = 1) (size : Size) : Told view (view.resize size) := by
  unfold View.resize
  split
  · exact told_same view
  · intro latest _
    have positive : max size.1 2 > 0 ∧ max size.2 1 > 0 := by omega
    simp only [listened, List.replicate_one, pending, List.foldl_cons, List.foldl_nil, Pushed.event, ResizeTracking.latest,
      if_pos positive, Option.getD_some]

theorem resized_resize (view : View) (size : Size) : Resized view (view.resize size) := by
  unfold View.resize
  split <;> rfl

theorem told_fit (attached : Attached view) (room : Option Size) : Told view (view.fit room) := by
  unfold View.fit View.proposeDimensions
  by_cases closed : view.opens = 0
  · rw [if_pos closed]
    exact told_same view
  · rw [if_neg closed]
    have listened : view.listeners = 1 := by
      have opens := attached.opens
      have listeners := attached.listeners
      split at listeners <;> omega
    cases room with
    | none => exact told_same view
    | some size =>
      simp only [Option.map_some]
      split
      · exact told_same view
      · exact told_resize listened _

theorem resized_fit (view : View) (room : Option Size) : Resized view (view.fit room) := by
  unfold View.fit
  cases view.proposeDimensions room with
  | none => rfl
  | some size =>
    simp only
    split
    · rfl
    · exact resized_resize view size

theorem Resized.attached {shown : View × List Pushed} (resized : Resized view shown) (attached : Attached view) :
    Attached shown.1 := by
  rw [resized]
  exact ⟨attached.opens, attached.listeners⟩

theorem Resized.observed {shown : View × List Pushed} (resized : Resized view shown) {icon : Icon} {starts stops : Nat}
    (observed : Observed view icon starts stops) : Observed shown.1 icon starts stops := by
  rw [resized]
  exact ⟨observed.made, observed.young, observed.distinct, observed.counted, observed.current⟩

theorem Told.trans {first second : View × List Pushed} (told : Told view first) (told' : Told first.1 second) :
    Told view (second.1, first.2 ++ second.2) := by
  intro latest heard
  rw [pending_append]
  exact told' _ (told latest heard)

theorem Resized.trans {first second : View × List Pushed} (resized : Resized view first) (resized' : Resized first.1 second)
    (pushed : List Pushed) : Resized view (second.1, pushed) := by
  have same : second.1 = { view with size := second.1.size } := by
    rw [resized', resized]
  exact same

theorem fullscreenchanged_view (attached : Attached view) (opened : view.opened = true) (left : Bool) (room : Option Size) :
    Told view (view.fullscreenchanged left room) ∧ Resized view (view.fullscreenchanged left room) := by
  have listened : view.listeners = 1 := attached.listeners.trans (if_pos opened)
  have default : Told view (if left then view.resize (80, 24) else (view, [])) ∧
      Resized view (if left then view.resize (80, 24) else (view, [])) := by
    cases left with
    | false => exact ⟨told_same view, rfl⟩
    | true => exact ⟨told_resize listened _, resized_resize view _⟩
  exact ⟨default.1.trans (told_fit (default.2.attached attached) room), default.2.trans (resized_fit _ room) _⟩

theorem attached_open (attached : Attached view) : Attached view.open_terminal ∧ view.open_terminal.size = view.size := by
  obtain ⟨opens, listeners⟩ := attached
  unfold View.open_terminal
  split
  next opened => exact ⟨⟨opens, listeners⟩, rfl⟩
  next closed =>
    rw [if_neg closed] at listeners
    exact ⟨⟨congrArg (· + 1) opens, congrArg (· + 1) listeners⟩, rfl⟩

theorem observed_open {icon : Icon} {starts stops : Nat} (observed : Observed view icon starts stops) :
    Observed view.open_terminal icon starts stops := by
  unfold View.open_terminal
  split
  · exact observed
  · exact ⟨observed.made, observed.young, observed.distinct, observed.counted, observed.current⟩

theorem observed_observe {icon : Icon} {starts stops : Nat} (observed : Observed view icon starts stops) :
    Observed view.observe .stop (starts + 1) stops := by
  refine ⟨congrArg (· + 1) observed.made, ?_, ?_, ?_, ?_⟩
  · intro observer member
    rcases List.mem_append.mp member with old | new
    · exact Nat.lt_succ_of_lt (observed.young observer old)
    · rw [List.mem_singleton.mp new]
      exact Nat.lt_succ_self _
  · refine List.nodup_append.mpr ⟨observed.distinct, List.nodup_cons.mpr ⟨List.not_mem_nil, List.nodup_nil⟩, ?_⟩
    intro observer old other new
    rw [List.mem_singleton.mp new]
    exact Nat.ne_of_lt (observed.young observer old)
  · have counted := observed.counted
    simp only [View.observe, List.length_append, List.length_singleton]
    omega
  · intro _
    exact ⟨_, rfl, List.mem_append_right _ (.head _)⟩

theorem start_view (attached : Attached view) (room : Option Size) :
    Told view (view.start room) ∧ Attached (view.start room).1 ∧
      ∀ icon starts stops, Observed view icon starts stops → Observed (view.start room).1 .stop (starts + 1) stops := by
  obtain ⟨opened, size⟩ := attached_open attached
  have resized := resized_fit view.open_terminal room
  refine ⟨?_, ?_, ?_⟩
  · intro latest heard
    exact told_fit opened room latest (heard.trans size.symm)
  · obtain ⟨opens, listeners⟩ := resized.attached opened
    exact ⟨opens, listeners⟩
  · intro icon starts stops observed
    exact observed_observe (resized.observed (observed_open observed))

theorem stop_view {starts stops : Nat} (observed : Observed view .stop starts stops) :
    Observed view.stop .play starts (stops + 1) := by
  obtain ⟨observer, current, member⟩ := observed.current rfl
  have stopped : view.stop = { view with observing := view.observing.erase observer } := by
    rw [View.stop, current]
  rw [stopped]
  refine ⟨observed.made, ?_, observed.distinct.erase _, ?_, ?_⟩
  · intro other kept
    exact observed.young other (List.mem_of_mem_erase kept)
  · have counted := observed.counted
    have some := List.length_pos_of_mem member
    simp only [List.length_erase_of_mem member]
    omega
  · intro playing
    cases playing

end Views

section Steps
variable {followed next : Followed} {world : World} {event : Event}

private theorem show_shown {shown : View × List Pushed} (before : Shown followed) (told : Told followed.world.view shown)
    (resized : Resized followed.world.view shown) :
    Shown { followed with world := followed.world.show_view shown } := by
  refine ⟨resized.attached before.attached, ?_, resized.observed before.observed⟩
  simp only [World.show_view, pending_append]
  exact told _ before.told

private theorem click_shown (before : Shown followed) (room : Option Size) :
    Shown (followed.after (.click room) (followed.world.start_stop_executable room)) := by
  obtain ⟨attached, told, observed⟩ := before
  cases icon : followed.world.page.icon with
  | play =>
    rw [icon] at observed
    obtain ⟨starts, attached', observes⟩ := start_view attached room
    have clicked : followed.world.start_stop_executable room =
        { followed.world with
          page := { followed.world.page with icon := .stop, status := none }, view := (followed.world.view.start room).1
          pushed := followed.world.pushed ++ [.button (.start_executable followed.world.page.executable)] ++
            (followed.world.view.start room).2 } := by
      simp only [World.start_stop_executable, PageButton.Page.start_stop_executable, icon, World.show_view]
    rw [clicked]
    simp only [Followed.after, icon]
    refine ⟨attached', ?_, observes _ _ _ observed⟩
    rw [pending_append, pending_append]
    exact starts _ told
  | stop =>
    rw [icon] at observed
    have clicked : followed.world.start_stop_executable room =
        { followed.world with
          page := { followed.world.page with icon := .play }, view := followed.world.view.stop
          pushed := followed.world.pushed ++ [.button .stop_executable] } := by
      simp only [World.start_stop_executable, PageButton.Page.start_stop_executable, icon]
    have stopped : followed.world.view.stop.size = followed.world.view.size ∧ Attached followed.world.view.stop := by
      unfold View.stop
      split
      · exact ⟨rfl, attached.opens, attached.listeners⟩
      · exact ⟨rfl, attached⟩
    rw [clicked]
    simp only [Followed.after, icon]
    refine ⟨stopped.2, ?_, stop_view observed⟩
    rw [pending_append]
    exact told.trans stopped.1.symm

private theorem latest_event (succeeds : Bool) (latest : Option Size) (pushed : Pushed) :
    ResizeTracking.latest latest (pushed.event succeeds) = ResizeTracking.latest latest (pushed.event true) := by
  cases pushed with
  | button event => cases event <;> rfl
  | resize cols rows => rfl

private theorem deliver_shown (before : Shown followed) {succeeds : Bool}
    (taken : followed.world.step (.deliver succeeds) = some world) : Shown (followed.after (.deliver succeeds) world) := by
  obtain ⟨attached, told, observed⟩ := before
  simp only [World.step] at taken
  split at taken
  next pushed rest waiting =>
    obtain ⟨cell, _, rfl⟩ := Option.map_eq_some_iff.mp taken
    refine ⟨attached, ?_, observed⟩
    rw [waiting] at told
    simp only [Followed.after, Followed.handled, waiting, List.head?_cons, Option.map_some, Option.elim_some, latest_event]
    exact told
  next => cases taken

private theorem cell_shown (before : Shown followed) {event : SmartCell.Event}
    (taken : followed.world.step (.cell event) = some world) : Shown (followed.after (.cell event) world) := by
  obtain ⟨attached, told, observed⟩ := before
  cases event with
  | start_executable | stop_executable | resize => cases taken
  | on_key | unknown_event | delayed_resize | executable_exited | terminate | child_exit | on_exit =>
    obtain ⟨cell, _, rfl⟩ := Option.map_eq_some_iff.mp taken
    exact ⟨attached, told, observed⟩

/-- What the page shows holds through every step of the page and of the cell. -/
theorem shown_step (before : Shown followed) (taken : followed.step event = some next) : Shown next := by
  obtain ⟨world, moved, rfl⟩ := Option.map_eq_some_iff.mp taken
  have fitted (room : Option Size) :
      Shown { followed with world := followed.world.show_view (followed.world.view.fit room) } :=
    show_shown before (told_fit before.attached room) (resized_fit _ room)
  cases event with
  | edit executable =>
    cases moved
    exact ⟨before.attached, before.told, before.observed⟩
  | click room =>
    cases moved
    exact click_shown before room
  | enter_fullscreen room =>
    simp only [World.step] at moved
    split at moved <;> cases moved
    · exact fitted room
    · exact before
  | fullscreenchanged left room =>
    simp only [World.step] at moved
    split at moved <;> cases moved
    next opened =>
      obtain ⟨told, resized⟩ := fullscreenchanged_view before.attached opened left room
      exact show_shown before told resized
  | observed observer room =>
    simp only [World.step] at moved
    split at moved <;> cases moved
    exact fitted room
  | deliver succeeds => exact deliver_shown before moved
  | cell event => exact cell_shown before moved
  | executable_exited =>
    simp only [World.step] at moved
    split at moved <;> cases moved
    obtain ⟨made, young, distinct, counted, _⟩ := before.observed
    refine ⟨before.attached, before.told, made, young, distinct, counted, ?_⟩
    intro stopped
    cases stopped

/-- What a step does to the cell is what it handles. -/
private theorem cell_step {before after : World} (taken : before.step event = some after) :
    match Followed.handled before event with
    | some event => before.cell.step event = some after.cell
    | none => after.cell = before.cell := by
  have follows {world : World} {event : SmartCell.Event} (followed : world.follow event = some after) :
      world.cell.step event = some after.cell := by
    obtain ⟨cell, stepped, rfl⟩ := Option.map_eq_some_iff.mp followed
    exact stepped
  cases event with
  | edit executable =>
    cases taken
    rfl
  | click room =>
    cases taken
    simp only [Followed.handled, World.start_stop_executable]
    split <;> rfl
  | enter_fullscreen room | fullscreenchanged left room | observed observer room =>
    simp only [World.step] at taken
    split at taken <;> cases taken <;> rfl
  | deliver succeeds =>
    simp only [World.step] at taken
    split at taken
    next pushed rest waiting =>
      have stepped := follows taken
      rw [Followed.handled, waiting]
      exact stepped
    next => cases taken
  | cell event =>
    cases event with
    | start_executable | stop_executable | resize => cases taken
    | on_key | unknown_event | delayed_resize | executable_exited | terminate | child_exit | on_exit => exact follows taken
  | executable_exited =>
    simp only [World.step] at taken
    split at taken <;> cases taken
    rfl

/-- The cell handles what it is given as it does behind no page. -/
theorem sized_step {spawn_size : Pid → Size} (coherent : Coherent followed.world.cell)
    (taken : followed.step event = some next) (timely : Timely spawn_size followed event) (fits : Fits spawn_size followed) :
    Coherent next.world.cell ∧ Fits spawn_size next := by
  obtain ⟨world, moved, rfl⟩ := Option.map_eq_some_iff.mp taken
  have stepped := cell_step moved
  cases handles : Followed.handled followed.world event with
  | none =>
    simp only [handles] at stepped
    simp only [Fits, Followed.sized, Followed.after, handles, Option.elim_none, stepped]
    exact ⟨coherent, fits⟩
  | some event' =>
    simp only [handles] at stepped
    have kept := @ResizeTracking.step_kept followed.sized _ spawn_size (fun _ => first_size) _ coherent stepped
    simp only [Fits, Followed.sized, Followed.after, handles, Option.elim_some]
    exact ⟨kept.coherent, (kept.fits fits).mpr (timely event' handles)⟩

end Steps

/-- The page opens its terminal and listens to it once, every stop ends an observer, so that
only sessions that end by themselves leave theirs, and the terminal's size is the last one
the cell is told of. Where what the cell handles comes in time, the session behind the page
has that size whenever nothing is on its way, whatever size it was spawned with. -/
theorem sizes_agree (spawn_size : Pid → Size) (darwin : Bool) (executable : Option String) (events : List Event) :
    Always Followed.step Shown (.init darwin executable) events ∧
      (Along Followed.step (Timely spawn_size) (.init darwin executable) events →
        Always Followed.step (fun followed => Agrees spawn_size followed.world) (.init darwin executable) events) := by
  have start : Shown (.init darwin executable) := by
    refine ⟨⟨rfl, rfl⟩, rfl, rfl, ?_, List.nodup_nil, rfl, ?_⟩
    · intro observer member
      cases member
    · intro stopped
      cases stopped
  refine ⟨Always.of_invariant (fun _ _ _ before taken => shown_step before taken) events start, fun timely => ?_⟩
  have always : Always Followed.step (fun followed => Shown followed ∧ Coherent followed.world.cell ∧
      Fits spawn_size followed) (.init darwin executable) events := by
    refine Always.of_along ?_ ⟨start, ⟨rfl, ?_⟩, ?_⟩ timely
    · intro followed event next before timely taken
      obtain ⟨shown, coherent, fits⟩ := before
      exact ⟨shown_step shown taken, sized_step coherent taken timely fits⟩
    · intro pty tracked
      cases tracked
    · intro pty tracked
      cases tracked
  refine always.mono fun followed before => ?_
  obtain ⟨shown, _, fits⟩ := before
  intro arrived settled pty tracked
  have told := shown.told
  rw [arrived] at told
  exact (fits pty tracked settled).trans (congrArg some told)

/-- A first session in a window that is then made smaller. -/
def smaller : List Event :=
  [.click (some (120, 40)), .deliver true, .deliver true, .observed 0 (some (120, 40)), .observed 0 (some (100, 1)),
    .deliver true]

theorem smaller_agrees :
    ∃ final, exec Followed.step (.init false none) smaller = some final ∧ final.world.view.size = (100, 1) ∧
      final.world.cell.assigns.pty = some 0 ∧ ResizeTracking.size default_size final.world.cell 0 = some (100, 1) ∧
        Agrees default_size final.world := by
  refine ⟨_, rfl, rfl, rfl, rfl, ?_⟩
  refine ((sizes_agree default_size false none smaller).2 ?_).final rfl
  refine .cons rfl ?_ <| .cons rfl ?_ <| .cons rfl ?_ <| .cons rfl ?_ <| .cons rfl ?_ <| .cons rfl ?_ along_nil
  · intro event handles
    cases handles
  · intro event handles
    cases handles
    exact fun _ _ => rfl
  · intro event handles
    cases handles
    trivial
  · intro event handles
    cases handles
  · intro event handles
    cases handles
  · intro event handles
    cases handles
    trivial

end ExPTY.Proofs.SizeAgreement
