import ExPTY.Proofs.OwnerCellLifetime
import ExPTY.SessionResource

/-! The lifetime of a session's resource. Each holder is one reference, so the memory is
there for whoever still has a pointer into it, and it goes with the last one. The reference
of the C code is given up by the loop, and only by the loop. -/

namespace ExPTY.Proofs.ResourceLifetime
open OwnerCell (Pipesocket Session)
open OwnerCellLifetime (Counted)
open Runs
open SessionResource

/-- The reference of `enif_alloc_resource`. -/
def own : Pipesocket → Nat
  | .released => 0
  | _ => 1

def holders (resource : Resource) : Nat := own resource.session.pipesocket + resource.terms + resource.calls

structure Held (resource : Resource) : Prop where
  refc : resource.refc = holders resource
  frees : resource.frees = if holders resource = 0 then 1 else 0
  session : Counted resource.session
  used : resource.misuses = 0

variable {resource next : Resource} {event : Event}

private theorem held_of {count : Nat} (counted : holders resource = count) (refc : resource.refc = count)
    (frees : resource.frees = if count = 0 then 1 else 0) (session : Counted resource.session) (used : resource.misuses = 0) :
    Held resource := by
  subst counted
  exact ⟨refc, frees, session, used⟩

theorem Held.live (held : Held resource) (holder : holders resource > 0) : resource.frees = 0 := by
  rw [held.frees, if_neg (by omega)]

theorem Held.use (held : Held resource) (holder : holders resource > 0) : resource.use = resource := by
  rw [Resource.use, if_pos (held.live holder)]
  rfl

/-- Who drops a reference frees the memory exactly when there is no other holder. -/
private theorem Held.release (held : Held resource) (others : Nat) (holder : holders resource = others + 1) :
    resource.release.refc = others ∧ resource.release.frees = if others = 0 then 1 else 0 := by
  have refc := held.refc
  have frees := held.live (by omega)
  simp only [Resource.release]
  refine ⟨by omega, ?_⟩
  rw [frees, Nat.zero_add]
  by_cases last : others = 0
  · rw [if_pos last, if_pos (by omega)]
  · rw [if_neg last, if_neg (by omega)]

/-- The reader and the callbacks come before the release. -/
private theorem own_of_touches {session moved : Session} {event : OwnerCell.Event} (counted : Counted session)
    (touching : touches event = true) (taken : session.step event = some moved) : own session.pipesocket = 1 := by
  have active (reader : session.reader ≠ .posted) : own session.pipesocket = 1 := by
    by_cases started : session.pipesocket = .active
    · rw [started]
      rfl
    · exact absurd (counted.reader started) reader
  cases event with
  | read count =>
    simp only [Session.step] at taken
    split at taken
    next here => exact active (by rw [here.1]; exact OwnerCell.Reader.noConfusion)
    next => cases taken
  | send_data =>
    simp only [Session.step] at taken
    split at taken
    next here => exact active (by rw [here]; exact OwnerCell.Reader.noConfusion)
    next => cases taken
  | end_of_file =>
    simp only [Session.step] at taken
    split at taken
    next here => exact active (by rw [here.1]; exact OwnerCell.Reader.noConfusion)
    next => cases taken
  | post_pipesocket =>
    simp only [Session.step] at taken
    split at taken
    next here => exact active (by rw [here]; exact OwnerCell.Reader.noConfusion)
    next => cases taken
  | after_pipesocket =>
    simp only [Session.step] at taken
    split at taken
    next here =>
      rw [here.1]
      rfl
    next => cases taken
  | free_pipesocket_process | release_pipesocket =>
    simp only [Session.step] at taken
    split at taken
    next here =>
      rw [here]
      rfl
    next => cases taken
  | output | child_exit | waitpid | send_exit | free_baton_process | clear_baton_process | post_baton | erase | after_waitpid
  | after_close => cases touching

/-- Only the release itself gives the reference of the code up. -/
private theorem own_step {session moved : Session} {event : OwnerCell.Event} (taken : session.step event = some moved) :
    if event = .release_pipesocket then own session.pipesocket = 1 ∧ own moved.pipesocket = 0
    else own moved.pipesocket = own session.pipesocket := by
  cases event with
  | after_pipesocket =>
    simp only [Session.step] at taken
    split at taken <;> cases taken
    next here =>
      rw [if_neg OwnerCell.Event.noConfusion, here.1]
      rfl
  | free_pipesocket_process =>
    simp only [Session.step] at taken
    split at taken <;> cases taken
    next here =>
      rw [if_neg OwnerCell.Event.noConfusion, here]
      rfl
  | release_pipesocket =>
    simp only [Session.step] at taken
    split at taken <;> cases taken
    next here =>
      rw [if_pos rfl, here]
      exact ⟨rfl, rfl⟩
  | output | child_exit | waitpid | send_exit | free_baton_process | clear_baton_process | post_baton | erase | read | end_of_file
  | post_pipesocket | after_waitpid | after_close =>
    simp only [Session.step] at taken
    split at taken <;> cases taken
    rfl
  | send_data =>
    simp only [Session.step] at taken
    split at taken <;> cases taken
    rfl

private theorem held_moved (held : Held resource) {event : OwnerCell.Event} {session : Session}
    (taken : resource.session.step event = some session) : Held (resource.moved event session) := by
  have counted := OwnerCellLifetime.step_counted held.session taken
  have reference := own_step taken
  have used : (if touches event then resource.use else resource) = resource := by
    split
    next touching =>
      have mine := own_of_touches held.session touching taken
      exact held.use (by rw [holders, mine]; omega)
    next => rfl
  simp only [Resource.moved, used]
  split
  next released =>
    rw [if_pos released] at reference
    obtain ⟨refc, frees⟩ := held.release (resource.terms + resource.calls) (by rw [holders, reference.1]; omega)
    refine held_of ?_ refc frees counted held.used
    change own session.pipesocket + resource.terms + resource.calls = _
    omega
  next other =>
    rw [if_neg other] at reference
    refine held_of ?_ held.refc held.frees counted held.used
    simp only [holders, reference]

theorem held_step (held : Held resource) (taken : resource.step event = some next) : Held next := by
  cases event with
  | session event =>
    obtain ⟨session, moved, rfl⟩ := Option.map_eq_some_iff.mp taken
    exact held_moved held moved
  | copy_term =>
    simp only [Resource.step] at taken
    split at taken <;> cases taken
    next enough =>
      have live := held.live (by rw [holders]; omega)
      refine held_of ?_ (congrArg (· + 1) held.refc) (by rw [if_neg (Nat.succ_ne_zero _)]; exact live) held.session held.used
      simp only [holders]
      omega
  | drop_term =>
    simp only [Resource.step] at taken
    split at taken <;> cases taken
    next enough =>
      have others : holders { resource.release with terms := resource.terms - 1 } + 1 = holders resource := by
        simp only [holders, Resource.release]
        omega
      obtain ⟨refc, frees⟩ := held.release _ others.symm
      exact ⟨refc, frees, held.session, held.used⟩
  | enter =>
    simp only [Resource.step] at taken
    split at taken <;> cases taken
    next enough =>
      refine held_of ?_ held.refc held.frees held.session held.used
      simp only [holders]
      omega
  | access =>
    simp only [Resource.step] at taken
    split at taken <;> cases taken
    next calling =>
      rw [held.use (by rw [holders]; omega)]
      exact held
  | leave =>
    simp only [Resource.step] at taken
    split at taken <;> cases taken
    next calling =>
      refine held_of ?_ held.refc held.frees held.session held.used
      simp only [holders]
      omega

theorem held_start : Held {} := by
  refine ⟨rfl, rfl, ⟨rfl, ?_, ?_, ?_⟩, rfl⟩
  · intro cleared
    cases cleared
  · intro cleared
    cases cleared
  · intro started
    exact absurd rfl started

/-- Nothing is done to freed memory, and it is freed once, when nobody has it any more. -/
structure Safe (resource : Resource) : Prop where
  used : resource.misuses = 0
  once : resource.frees ≤ 1
  gone : resource.frees = 1 ↔ resource.session.pipesocket = .released ∧ resource.terms = 0 ∧ resource.calls = 0

theorem own_eq_zero {pipesocket : Pipesocket} : own pipesocket = 0 ↔ pipesocket = .released := by
  cases pipesocket <;> decide

theorem Held.safe (held : Held resource) : Safe resource := by
  have free : holders resource = 0 ↔ resource.session.pipesocket = .released ∧ resource.terms = 0 ∧ resource.calls = 0 := by
    rw [holders, Nat.add_eq_zero_iff, Nat.add_eq_zero_iff, own_eq_zero, and_assoc]
  refine ⟨held.used, ?_, ?_⟩
  · rw [held.frees]
    split <;> omega
  · rw [← free, held.frees]
    split
    next none => exact iff_of_true rfl none
    next some => exact iff_of_false Nat.zero_ne_one some

section Loop

/-- What no loop has come to. -/
structure Waiting (resource : Resource) : Prop where
  baton : resource.session.baton = .active
  pipesocket : resource.session.pipesocket = .active

def loop_event : Event → Bool
  | .session event => in_loop event
  | _ => false

private theorem waiting_step (waiting : Waiting resource) (idle : loop_event event = false)
    (taken : resource.step event = some next) : Waiting next := by
  obtain ⟨baton, pipesocket⟩ := waiting
  cases event with
  | session event =>
    obtain ⟨session, moved, rfl⟩ := Option.map_eq_some_iff.mp taken
    have same : (resource.moved event session).session = session := by
      simp only [Resource.moved]
      split <;> rfl
    suffices kept : session.baton = resource.session.baton ∧ session.pipesocket = resource.session.pipesocket by
      exact ⟨by rw [same, kept.1, baton], by rw [same, kept.2, pipesocket]⟩
    cases event with
    | after_waitpid | after_close | after_pipesocket | free_pipesocket_process | release_pipesocket => cases idle
    | output | child_exit | waitpid | send_exit | free_baton_process | clear_baton_process | post_baton | erase | read | send_data
    | end_of_file | post_pipesocket =>
      simp only [Session.step] at moved
      split at moved <;> cases moved
      exact ⟨rfl, rfl⟩
  | copy_term | drop_term | enter | access | leave =>
    simp only [Resource.step] at taken
    split at taken <;> cases taken
    exact ⟨baton, pipesocket⟩

end Loop

section Freed

/-- The steps that bring a session to its end: no output, no new term and no new call. -/
def finishing : Event → Bool
  | .session (.output _) | .session .child_exit | .copy_term | .enter | .access => false
  | _ => true

def reader_rank (session : Session) : Nat :=
  match session.reader with
  | .polling => 2 + 2 * session.buffer.length
  | .sending _ => 3 + 2 * session.buffer.length
  | .ended => 1
  | .posted => 0

def callback_rank : Pipesocket → Nat
  | .active => 3
  | .closing => 2
  | .freed => 1
  | .released => 0

def rank (resource : Resource) : Nat :=
  reader_rank resource.session + callback_rank resource.session.pipesocket + resource.terms + 2 * resource.calls

private theorem rank_moved (event : OwnerCell.Event) (session : Session) :
    rank (resource.moved event session) =
      reader_rank session + callback_rank session.pipesocket + resource.terms + 2 * resource.calls := by
  simp only [Resource.moved]
  split <;> split <;> rfl

def Falls (resource : Resource) : Prop :=
  ∃ event next, finishing event = true ∧ resource.step event = some next ∧ rank next < rank resource

private theorem falls_session (event : OwnerCell.Event) {session : Session} (fits : finishing (.session event) = true)
    (taken : resource.session.step event = some session)
    (lower : reader_rank session + callback_rank session.pipesocket <
      reader_rank resource.session + callback_rank resource.session.pipesocket) : Falls resource := by
  refine ⟨.session event, resource.moved event session, fits, ?_, ?_⟩
  · rw [Resource.step, taken]
    rfl
  · rw [rank_moved, rank]
    omega

private theorem reader_falls (running : resource.session.reader ≠ .posted) : Falls resource := by
  cases reader : resource.session.reader with
  | polling =>
    cases buffer : resource.session.buffer with
    | nil =>
      apply falls_session .end_of_file rfl (if_pos ⟨reader, buffer⟩)
      simp only [reader_rank, reader]
      omega
    | cons byte rest =>
      have one : 1 ≤ resource.session.buffer.length := by
        rw [buffer]
        exact Nat.le_add_left 1 _
      apply falls_session (.read 1) rfl (if_pos ⟨reader, Nat.one_pos, by omega, one⟩)
      simp only [reader_rank, reader, List.length_drop]
      omega
  | sending data =>
    have taken : resource.session.step .send_data = some { resource.session.send (.data data) with reader := .polling } := by
      simp only [Session.step, reader]
    apply falls_session _ rfl taken
    simp only [reader_rank, reader, Session.send]
    omega
  | ended =>
    apply falls_session .post_pipesocket rfl (if_pos reader)
    simp only [reader_rank, reader]
    omega
  | posted => exact absurd reader running

private theorem callback_falls (reader : resource.session.reader = .posted)
    (running : resource.session.pipesocket ≠ .released) : Falls resource := by
  cases callback : resource.session.pipesocket with
  | active =>
    apply falls_session .after_pipesocket rfl (if_pos ⟨callback, reader⟩)
    simp only [reader_rank, reader, callback, callback_rank]
    omega
  | closing =>
    apply falls_session .free_pipesocket_process rfl (if_pos callback)
    simp only [reader_rank, Session.free, reader, callback, callback_rank]
    omega
  | freed =>
    apply falls_session .release_pipesocket rfl (if_pos callback)
    simp only [reader_rank, reader, callback, callback_rank]
    omega
  | released => exact absurd callback running

/-- Until the memory is freed, the reader, the loop, a call or the collector can go on. -/
private theorem progress (held : Held resource) (kept : resource.frees ≠ 1) : Falls resource := by
  by_cases posted : resource.session.reader = .posted
  · by_cases released : resource.session.pipesocket = .released
    · by_cases calling : resource.calls > 0
      · refine ⟨.leave, _, rfl, if_pos calling, ?_⟩
        simp only [rank]
        omega
      · have terms : resource.terms > 0 := by
          apply Nat.pos_of_ne_zero
          intro none
          exact kept (held.safe.gone.mpr ⟨released, none, by omega⟩)
        refine ⟨.drop_term, _, rfl, if_pos terms, ?_⟩
        simp only [rank, Resource.release]
        omega
    · exact callback_falls posted released
  · exact reader_falls posted

theorem can_be_freed (held : Held resource) :
    ∃ events final, exec Resource.step resource events = some final ∧ final.frees = 1 ∧
      ∀ event ∈ events, finishing event = true := by
  apply reaches_of_rank rank Held
  · intro state holds kept
    obtain ⟨event, next, fits, taken, lower⟩ := progress holds kept
    exact ⟨event, next, fits, taken, held_step holds taken, lower⟩
  · exact held

end Freed

/-- The memory of a session outlives everyone who has a pointer into it, in every order of
the reader, the loop, the native calls and the collector. It goes exactly once, with the
last of them, and can go from every state, but only with the loop: where that is never run
nothing is freed, not even when no term is left. -/
theorem memory_outlives_users (events : List Event) :
    Always Resource.step
        (fun resource => Safe resource ∧ ∃ finish final, exec Resource.step resource finish = some final ∧ final.frees = 1 ∧
          ∀ event ∈ finish, finishing event = true) {} events ∧
      ((∀ event ∈ events, loop_event event = false) → Always Resource.step (·.frees = 0) {} events) := by
  constructor
  · have always : Always Resource.step Held {} events :=
      Always.of_invariant (fun _ _ _ holds taken => held_step holds taken) events held_start
    refine always.mono fun resource held => ?_
    exact ⟨held.safe, can_be_freed held⟩
  · intro idle
    have idling : Along Resource.step (fun _ event => loop_event event = false) {} events := by
      intro taken event rest state next same _ _
      exact idle event (by rw [same]; exact List.mem_append_right _ (.head _))
    have kept (state : Resource) (event : Event) (next : Resource) (holds : Held state ∧ Waiting state)
        (fits : loop_event event = false) (taken : state.step event = some next) : Held next ∧ Waiting next :=
      ⟨held_step holds.1 taken, waiting_step holds.2 fits taken⟩
    have always : Always Resource.step (fun state => Held state ∧ Waiting state) {} events :=
      Always.of_along kept ⟨held_start, rfl, rfl⟩ idling
    refine always.mono fun resource ⟨held, waiting⟩ => ?_
    apply held.live
    rw [holders, waiting.pipesocket]
    simp only [own]
    omega

/-- A session whose reader has ended and whose last term is collected. -/
theorem forgotten_session_kept :
    Always Resource.step (·.frees = 0) {}
      [.session .child_exit, .session .end_of_file, .session .post_pipesocket, .enter, .leave, .drop_term] :=
  (memory_outlives_users _).2 (by decide)

end ExPTY.Proofs.ResourceLifetime
