import ExPTY.InputPath
import ExPTY.Proofs.KeyboardPath
import ExPTY.Runs

/-! What becomes of the keys that are typed on the page. Each of them is handled once and
in order, and written to the session that the cell has at that time; the ones that are no
bytes never leave the page, and the ones without a session go nowhere. -/

namespace ExPTY.Proofs.KeysInOrder
open InputPath Runs Unicode
open Server (Binary)
open SmartCell (Assigns Effect Handled Pid Session)

/-- A key that the cell has handled, and the session that it had. -/
structure Taken where
  data : Binary
  target : Option Pid

structure Followed where
  world : World
  typed : List (List Char) := []
  taken : List Taken := []

/-- The bytes that a typed text stands for. -/
def bytes (text : List Char) : Option Binary := (Page.on_data text).bind Base64.decode

def key : Pushed → Option Binary
  | .on_key data => Base64.decode data
  | .button _ => none

namespace Followed

def after (followed : Followed) (event : Event) (next : World) : Followed :=
  { world := next
    typed := match event with
      | .typed text => followed.typed ++ [text]
      | _ => followed.typed
    taken := match event with
      | .deliver _ => followed.taken ++ (followed.world.pushed.head?.bind key).toList.map fun data =>
          ⟨data, followed.world.cell.assigns.pty⟩
      | _ => followed.taken }

def step (followed : Followed) (event : Event) : Option Followed :=
  (followed.world.step event).map (followed.after event)

def init (darwin : Bool) (executable : Option String) : Followed := { world := .init darwin executable }

end Followed

/-- The keys for one session. -/
def keys (taken : List Taken) (pty : Pid) : List Binary :=
  taken.filterMap fun entry => if entry.target = some pty then some entry.data else none

def writings (cell : SmartCell.World) : List (List Binary) := cell.sessions.map Session.written

/-- What the sessions of the cell have been given of the keys that it has handled. -/
structure Given (cell : SmartCell.World) (taken : List Taken) : Prop where
  written : ∀ pty written, (writings cell)[pty]? = some written → written = keys taken pty
  targets : ∀ entry ∈ taken, ∀ pty, entry.target = some pty → pty < (writings cell).length
  current : ∀ pty, cell.assigns.pty = some pty → pty < (writings cell).length

/-- The keys that could be encoded are handled or on their way, in the order of the typing. -/
structure Kept (followed : Followed) : Prop where
  order : followed.typed.filterMap bytes = followed.taken.map Taken.data ++ followed.world.pushed.filterMap key
  given : Given followed.world.cell followed.taken

section Cell
variable {cell next : SmartCell.World}

theorem writings_update (cell : SmartCell.World) (pty : Pid) {change : Session → Session}
    (same : ∀ session, (change session).written = session.written) :
    writings (cell.update pty change) = writings cell := by
  apply List.ext_getElem?
  intro index
  simp only [writings, SmartCell.World.update, List.getElem?_map, List.getElem?_modify]
  cases cell.sessions[index]? with
  | none => rfl
  | some session =>
    simp only [Option.map_some]
    split <;> simp [same]

/-- An effect that writes nothing. -/
def silent : Effect → Bool
  | .write _ _ => false
  | _ => true

theorem silent_apply (handled : Handled) (quiet : ∀ effect ∈ handled.2, silent effect = true) (cell : SmartCell.World) :
    (cell.apply handled).assigns = handled.1 ∧ writings (cell.apply handled) = writings cell := by
  obtain ⟨assigns, effects⟩ := handled
  have all (before : SmartCell.World) (quiet : ∀ effect ∈ effects, silent effect = true) :
      (effects.foldl SmartCell.World.perform before).assigns = before.assigns ∧
        writings (effects.foldl SmartCell.World.perform before) = writings before := by
    induction effects generalizing before with
    | nil => exact ⟨rfl, rfl⟩
    | cons effect rest ih =>
      obtain ⟨same, kept⟩ := ih (fun other member => quiet other (.tail _ member)) (before.perform effect)
        (fun other member => quiet other (.tail _ member))
      have first : (before.perform effect).assigns = before.assigns ∧
          writings (before.perform effect) = writings before := by
        cases effect with
        | write => cases quiet _ (.head _)
        | send_after | broadcast_exited => exact ⟨rfl, rfl⟩
        | on_data pty | on_exit pty | resize pty | kill pty => exact ⟨rfl, writings_update before pty fun _ => rfl⟩
      exact ⟨same.trans first.1, kept.trans first.2⟩
  exact all { cell with assigns } quiet

/-- What a step of the cell without a key does: it may start a session or forget it. -/
structure Quiet (cell next : SmartCell.World) : Prop where
  written : writings next = writings cell ∨ writings next = writings cell ++ [[]]
  current : (∀ pty, cell.assigns.pty = some pty → pty < (writings cell).length) →
    ∀ pty, next.assigns.pty = some pty → pty < (writings next).length

theorem quiet_same (assigns : next.assigns.pty = cell.assigns.pty ∨ next.assigns.pty = none)
    (written : writings next = writings cell) : Quiet cell next := by
  refine ⟨.inl written, ?_⟩
  intro current pty tracked
  rw [written]
  rcases assigns with same | idle
  · exact current pty (same.symm.trans tracked)
  · cases idle.symm.trans tracked

private theorem quiet_apply (before : SmartCell.World) (written : writings before = writings cell) (handled : Handled)
    (quiet : ∀ effect ∈ handled.2, silent effect = true)
    (assigns : handled.1.pty = cell.assigns.pty ∨ handled.1.pty = none) : Quiet cell (before.apply handled) := by
  obtain ⟨same, kept⟩ := silent_apply handled quiet before
  refine quiet_same ?_ (kept.trans written)
  rw [same]
  exact assigns

private theorem silent_stop (assigns : Assigns) : ∀ effect ∈ SmartCell.stop_executable assigns, silent effect = true := by
  unfold SmartCell.stop_executable
  cases assigns.pty with
  | none =>
    intro effect member
    cases member
  | some pty =>
    exact List.forall_mem_singleton.mpr rfl

private theorem quiet_terminate (cell : SmartCell.World) : Quiet cell cell.terminate := by
  have quiet := quiet_apply cell rfl (cell.assigns, SmartCell.stop_executable cell.assigns)
    (silent_stop cell.assigns) (.inl rfl)
  exact ⟨quiet.written, quiet.current⟩

private theorem quiet_start (cell : SmartCell.World) (executable : Option String) (succeeds : Bool) :
    Quiet cell (cell.start executable succeeds) := by
  have silence (pty : Pid) : ∀ effect ∈ [Effect.on_data pty, .on_exit pty], silent effect = true := by
    intro effect member
    simp only [List.mem_cons, List.not_mem_nil, or_false] at member
    rcases member with rfl | rfl <;> rfl
  simp only [SmartCell.World.start, SmartCell.handle_start]
  cases started : cell.assigns.started? with
  | true => exact quiet_apply cell rfl (cell.assigns, []) (fun effect member => by cases member) (.inl rfl)
  | false =>
    cases succeeds with
    | false => exact quiet_terminate cell
    | true =>
      obtain ⟨same, kept⟩ := silent_apply
        ({ cell.assigns with pty := some cell.fresh, started? := true }, [.on_data cell.fresh, .on_exit cell.fresh])
        (silence cell.fresh) { cell with sessions := cell.sessions ++ [{}] }
      have fresh : writings { cell with sessions := cell.sessions ++ [{}] } = writings cell ++ [[]] := List.map_append
      refine ⟨.inr (kept.trans fresh), ?_⟩
      intro _ pty tracked
      have own : some cell.fresh = some pty := (congrArg Assigns.pty same).symm.trans tracked
      cases own
      have written := kept.trans fresh
      simp only [Bool.false_eq_true, if_false, if_true]
      rw [written, List.length_append]
      exact Nat.lt_succ_of_le (Nat.le_of_eq (List.length_map _).symm)

private theorem silent_one {effect : Effect} (quiet : silent effect = true) : ∀ other ∈ [effect], silent other = true :=
  List.forall_mem_singleton.mpr quiet

private theorem silent_resize (cols rows : Int) (assigns : Assigns) :
    (SmartCell.handle_resize cols rows assigns).1 = assigns ∧
      ∀ effect ∈ (SmartCell.handle_resize cols rows assigns).2, silent effect = true := by
  unfold SmartCell.handle_resize
  split
  · cases assigns.pty with
    | none => exact ⟨rfl, silent_one rfl⟩
    | some pty => exact ⟨rfl, silent_one rfl⟩
  · exact ⟨rfl, List.forall_mem_nil _⟩

private theorem silent_delayed (cols rows : Int) (assigns : Assigns) :
    (SmartCell.handle_delayed_resize cols rows assigns).1 = assigns ∧
      ∀ effect ∈ (SmartCell.handle_delayed_resize cols rows assigns).2, silent effect = true := by
  unfold SmartCell.handle_delayed_resize
  cases assigns.pty with
  | none => exact ⟨rfl, List.forall_mem_nil _⟩
  | some pty => exact ⟨rfl, silent_one rfl⟩

theorem quiet_step {event : SmartCell.Event} (other : ∀ data, event ≠ .on_key (some data))
    (taken : cell.step event = some next) : Quiet cell next := by
  cases event <;> simp only [SmartCell.World.step] at taken <;> split at taken <;> try contradiction
  case child_exit pty _ =>
    cases taken
    exact quiet_same (.inl rfl) (writings_update cell pty fun _ => rfl)
  case on_exit pty code _ =>
    cases taken
    exact quiet_same (.inl rfl) (writings_update cell pty fun _ => rfl)
  case start_executable executable succeeds _ =>
    cases taken
    exact quiet_start cell executable succeeds
  case stop_executable =>
    cases taken
    exact quiet_apply cell rfl _ (silent_stop cell.assigns) (.inr rfl)
  case on_key decoded _ =>
    cases taken
    cases decoded with
    | some data => exact absurd rfl (other data)
    | none =>
      have ignored : SmartCell.handle_on_key none cell.assigns = (cell.assigns, []) := by
        unfold SmartCell.handle_on_key
        cases cell.assigns.pty <;> rfl
      rw [ignored]
      exact quiet_same (.inl rfl) rfl
  case resize cols rows _ =>
    cases taken
    obtain ⟨same, quiet⟩ := silent_resize cols rows cell.assigns
    exact quiet_apply cell rfl _ quiet (.inl (congrArg Assigns.pty same))
  case unknown_event =>
    cases taken
    exact quiet_same (.inl rfl) rfl
  case delayed_resize cols rows _ =>
    split at taken <;> cases taken
    obtain ⟨same, quiet⟩ := silent_delayed cols rows cell.assigns
    have written : writings { cell with delayed := cell.delayed.erase (cols, rows) } = writings cell := rfl
    exact quiet_apply _ written _ quiet (.inl (congrArg Assigns.pty same))
  case executable_exited origin code _ =>
    split at taken <;> cases taken
    have written : writings { cell with notices := cell.notices.erase (origin, code) } = writings cell := rfl
    exact quiet_apply _ written (SmartCell.handle_executable_exited code cell.assigns) (silent_one rfl) (.inr rfl)
  case terminate =>
    cases taken
    exact quiet_terminate cell

/-- What a key changes: it is written to the session that the cell has, if it has one. -/
theorem key_step {data : Binary} (taken : cell.step (.on_key (some data)) = some next) :
    next.assigns = cell.assigns ∧
      (writings next).length = (writings cell).length ∧
      ∀ pty, (writings next)[pty]? =
        (writings cell)[pty]?.map fun written => if cell.assigns.pty = some pty then written ++ [data] else written := by
  simp only [SmartCell.World.step] at taken
  split at taken <;> cases taken
  unfold SmartCell.handle_on_key
  cases tracked : cell.assigns.pty with
  | none =>
    refine ⟨rfl, rfl, ?_⟩
    intro pty
    simp only [reduceCtorEq, if_false, Option.map_id']
    rfl
  | some target =>
    refine ⟨rfl, ?_, ?_⟩
    · exact (List.length_map _).trans ((List.length_modify ..).trans (List.length_map _).symm)
    · intro pty
      simp only [writings, SmartCell.World.apply, List.foldl_cons, List.foldl_nil, SmartCell.World.perform,
        SmartCell.World.update, List.getElem?_map, List.getElem?_modify, Option.some.injEq]
      cases cell.sessions[pty]? with
      | none => rfl
      | some session =>
        simp only [Option.map_some, Option.map_eq_map]
        split <;> rfl

private theorem keys_nil {taken : List Taken} {pty : Pid} (other : ∀ entry ∈ taken, entry.target ≠ some pty) :
    keys taken pty = [] := by
  apply List.filterMap_eq_nil_iff.mpr
  intro entry member
  exact if_neg (other entry member)

theorem given_quiet {taken : List Taken} (given : Given cell taken) (quiet : Quiet cell next) : Given next taken := by
  obtain ⟨written, current⟩ := quiet
  rcases written with same | opened
  · refine ⟨?_, ?_, current given.current⟩
    · rw [same]
      exact given.written
    · rw [same]
      exact given.targets
  · refine ⟨?_, ?_, current given.current⟩
    · intro pty written found
      rw [opened, List.getElem?_append] at found
      split at found
      · exact given.written pty written found
      · -- the new session, which no key has had as its target
        rename_i beyond
        rw [List.getElem?_singleton] at found
        split at found <;> cases found
        refine (keys_nil ?_).symm
        intro entry member target
        exact beyond (given.targets entry member pty target)
    · intro entry member pty target
      rw [opened, List.length_append]
      exact Nat.lt_of_lt_of_le (given.targets entry member pty target) (Nat.le_add_right _ _)

private theorem keys_append (taken : List Taken) (data : Binary) (target : Option Pid) (pty : Pid) :
    keys (taken ++ [⟨data, target⟩]) pty = if target = some pty then keys taken pty ++ [data] else keys taken pty := by
  by_cases own : target = some pty
  · simp [keys, own]
  · simp [keys, own]

theorem given_key {taken : List Taken} {data : Binary} (given : Given cell taken)
    (handled : cell.step (.on_key (some data)) = some next) : Given next (taken ++ [⟨data, cell.assigns.pty⟩]) := by
  obtain ⟨same, length, written⟩ := key_step handled
  refine ⟨?_, ?_, ?_⟩
  · intro pty after found
    rw [written pty, Option.map_eq_some_iff] at found
    obtain ⟨before, found, rfl⟩ := found
    rw [keys_append, given.written pty before found]
  · intro entry member pty target
    rw [length]
    rcases List.mem_append.mp member with old | new
    · exact given.targets entry old pty target
    · cases List.mem_singleton.mp new
      exact given.current pty target
  · rw [same, length]
    exact given.current

end Cell

theorem bytes_eq (text : List Char) :
    bytes text = if (utf16 text).all (· ≤ 0xFF) then some ((utf16 text).map (·.toUInt8)) else none := by
  unfold bytes
  cases encoded : Page.on_data text with
  | none =>
    simp only [Page.on_data, Page.btoa, ite_eq_right_iff, reduceCtorEq, imp_false] at encoded
    rw [if_neg encoded]
    rfl
  | some data =>
    rw [Option.bind_some, KeyboardPath.decode_btoa encoded]
    simp only [Page.on_data, Page.btoa, Option.ite_none_right_eq_some] at encoded
    rw [if_pos encoded.1]

/-- A step of the cell that no key has caused. -/
private theorem kept_follow (before : World) {after : World} {typed : List (List Char)} {taken : List Taken}
    {event : SmartCell.Event} (other : ∀ data, event ≠ .on_key (some data)) (given : Given before.cell taken)
    (order : typed.filterMap bytes = taken.map Taken.data ++ before.pushed.filterMap key)
    (followed : before.follow event = some after) : Kept { world := after, typed, taken } := by
  obtain ⟨cell, moved, rfl⟩ := Option.map_eq_some_iff.mp followed
  exact ⟨order, given_quiet given (quiet_step other moved)⟩

private theorem kept_typed {followed : Followed} (kept : Kept followed) (text : List Char) :
    Kept (followed.after (.typed text) (followed.world.on_data text)) := by
  have order : (followed.typed ++ [text]).filterMap bytes =
      followed.taken.map Taken.data ++ (followed.world.on_data text).pushed.filterMap key := by
    rw [List.filterMap_append, kept.order, List.append_assoc]
    apply congrArg (followed.taken.map Taken.data ++ ·)
    unfold World.on_data
    cases encoded : Page.on_data text with
    | none =>
      have lost : bytes text = none := by rw [bytes, encoded, Option.bind_none]
      simp [lost]
    | some data =>
      have arrives : bytes text = Base64.decode data := by rw [bytes, encoded, Option.bind_some]
      have pushed : key (.on_key data) = Base64.decode data := rfl
      simp only [List.filterMap_append, List.filterMap_cons, List.filterMap_nil, arrives, pushed]
  refine ⟨order, ?_⟩
  have same : (followed.world.on_data text).cell = followed.world.cell := by
    unfold World.on_data
    cases Page.on_data text <;> rfl
  simp only [Followed.after]
  rw [same]
  exact kept.given

private theorem kept_deliver {followed : Followed} {succeeds : Bool} {next : World} (kept : Kept followed)
    (taken : followed.world.step (.deliver succeeds) = some next) : Kept (followed.after (.deliver succeeds) next) := by
  obtain ⟨order, given⟩ := kept
  simp only [World.step] at taken
  unfold Followed.after
  cases queue : followed.world.pushed with
  | nil =>
    rw [queue] at taken
    cases taken
  | cons event rest =>
    rw [queue] at taken order
    cases event with
    | button event =>
      have other : ∀ data, Pushed.event succeeds (.button event) ≠ .on_key (some data) := by
        intro data
        cases event <;> intro same <;> cases same
      simp only [List.head?_cons, Option.bind_some, key, Option.toList_none, List.map_nil, List.append_nil]
      exact kept_follow { followed.world with pushed := rest } other given order taken
    | on_key data =>
      cases decoded : Base64.decode data with
      | none =>
        have other : ∀ data', Pushed.event succeeds (.on_key data) ≠ .on_key (some data') := by
          intro data' same
          rw [Pushed.event, decoded] at same
          cases same
        simp only [List.head?_cons, Option.bind_some, key, decoded, Option.toList_none, List.map_nil, List.append_nil]
        have undecoded : key (.on_key data) = none := decoded
        rw [List.filterMap_cons_none undecoded] at order
        exact kept_follow { followed.world with pushed := rest } other given order taken
      | some sent =>
        obtain ⟨cell, moved, rfl⟩ := Option.map_eq_some_iff.mp taken
        rw [Pushed.event, decoded] at moved
        have first : key (.on_key data) = some sent := decoded
        rw [List.filterMap_cons_some first] at order
        simp only [List.head?_cons, Option.bind_some, key, decoded, Option.toList_some, List.map_cons, List.map_nil]
        refine ⟨?_, given_key given moved⟩
        rw [List.map_append, List.append_assoc]
        exact order

theorem step_kept (followed : Followed) (event : Event) (next : Followed) (kept : Kept followed)
    (taken : followed.step event = some next) : Kept next := by
  obtain ⟨world, moved, rfl⟩ := Option.map_eq_some_iff.mp taken
  cases event with
  | edit executable =>
    cases moved
    exact ⟨kept.order, kept.given⟩
  | click =>
    cases moved
    refine ⟨?_, kept.given⟩
    simp only [Followed.after]
    rw [List.filterMap_append, kept.order]
    exact congrArg _ (List.append_nil _).symm
  | typed text =>
    cases moved
    exact kept_typed kept text
  | deliver succeeds => exact kept_deliver kept moved
  | cell event =>
    cases event with
    | start_executable | stop_executable | on_key => cases moved
    | _ => exact kept_follow followed.world (by intro data same; cases same) kept.given kept.order moved
  | executable_exited =>
    simp only [World.step] at moved
    split at moved <;> cases moved
    exact ⟨kept.order, kept.given⟩

/-- The bytes of what is typed, where it has any, reach the cell once and in order, and a
session has been written those that came while the cell had it. -/
theorem keys_in_order (darwin : Bool) (executable : Option String) (events : List Event) :
    (∀ text, bytes text = if (utf16 text).all (· ≤ 0xFF) then some ((utf16 text).map (·.toUInt8)) else none) ∧
      Always Followed.step Kept (.init darwin executable) events := by
  refine ⟨bytes_eq, Always.of_invariant step_kept events ⟨rfl, ?_, ?_, ?_⟩⟩
  · intro pty written found
    cases found
  · intro entry member
    cases member
  · intro pty tracked
    cases tracked

end ExPTY.Proofs.KeysInOrder
