import ExPTY.OwnerCell

/-! When the owner cell is used after it is freed. Each side frees the cell once it is
done with its own pointer, so the cell survives one side only: nothing may be sent, and
nothing freed, by the other side after that. -/

namespace ExPTY.Proofs.OwnerCellLifetime
open OwnerCell Runs

def waiterFreed : Waiter → Bool
  | .waiting | .reaped | .sent => false
  | .freed | .cleared | .posted | .erased => true

def callbackFreed : Pipesocket → Bool
  | .active | .closing => false
  | .freed | .released => true

def payload : Message → List UInt8
  | .data data => data
  | .exit => []

/-- What the reader has taken from the terminal and not yet sent. -/
def inHand : Reader → List UInt8
  | .sending data => data
  | _ => []

/-- One free at most, no message lost, and no output either: what the owner has not been
sent is still to be read. -/
structure Sound (session : Session) : Prop where
  once : session.frees ≤ 1
  live : session.lost = []
  whole : session.output = session.delivered.flatMap payload ++ inHand session.reader ++ session.buffer

/-- No side sends or frees after the other side's free. -/
def InOrder (session : Session) : Event → Prop
  | .send_exit | .free_baton_process => callbackFreed session.pipesocket = false
  | .send_data | .free_pipesocket_process => waiterFreed session.waiter = false
  | _ => True

structure Counted (session : Session) : Prop where
  frees : session.frees = (waiterFreed session.waiter).toNat + (callbackFreed session.pipesocket).toNat
  baton : session.baton_process = false → waiterFreed session.waiter = true
  pipesocket : session.pipesocket_process = false → callbackFreed session.pipesocket = true
  reader : session.pipesocket ≠ .active → session.reader = .posted

variable {session next : Session} {event : Event}

theorem Counted.unfreed (counted : Counted session) (waiter : waiterFreed session.waiter = false)
    (callback : callbackFreed session.pipesocket = false) : session.frees = 0 := by
  rw [counted.frees, waiter, callback]
  rfl

theorem Counted.freed (counted : Counted session)
    (freed : waiterFreed session.waiter = true ∨ callbackFreed session.pipesocket = true) : session.frees ≠ 0 := by
  rw [counted.frees]
  rcases freed with freed | freed <;> simp [freed]

private theorem Counted.baton_held (counted : Counted session) (waiter : waiterFreed session.waiter = false) :
    session.baton_process = true := by
  rw [← Bool.not_eq_false]
  intro cleared
  rw [counted.baton cleared] at waiter
  cases waiter

private theorem Counted.pipesocket_held (counted : Counted session) (callback : callbackFreed session.pipesocket = false) :
    session.pipesocket_process = true := by
  rw [← Bool.not_eq_false]
  intro cleared
  rw [counted.pipesocket cleared] at callback
  cases callback

theorem step_counted (counted : Counted session) (taken : session.step event = some next) : Counted next := by
  obtain ⟨frees, baton, pipesocket, reader⟩ := counted
  cases event with
  | output data | child_exit =>
    simp only [Session.step] at taken
    split at taken <;> cases taken
    exact ⟨frees, baton, pipesocket, reader⟩
  | after_waitpid | after_close =>
    simp only [Session.step] at taken
    split at taken <;> cases taken
    exact ⟨frees, baton, pipesocket, reader⟩
  | waitpid =>
    simp only [Session.step] at taken
    split at taken <;> cases taken
    next here =>
      rw [here.1] at frees baton
      exact ⟨frees, baton, pipesocket, reader⟩
  | send_exit | post_baton | erase =>
    simp only [Session.step] at taken
    split at taken <;> cases taken
    next here =>
      rw [here] at frees baton
      exact ⟨frees, baton, pipesocket, reader⟩
  | free_baton_process =>
    simp only [Session.step] at taken
    split at taken <;> cases taken
    next here =>
      have held := Counted.baton_held ⟨frees, baton, pipesocket, reader⟩ (by rw [here]; rfl)
      refine ⟨?_, fun _ => rfl, pipesocket, reader⟩
      simp only [Session.free, held, frees, here, waiterFreed, Bool.toNat_true, Bool.toNat_false]
      omega
  | clear_baton_process =>
    simp only [Session.step] at taken
    split at taken <;> cases taken
    next here =>
      rw [here] at frees
      exact ⟨frees, fun _ => rfl, pipesocket, reader⟩
  | read count =>
    simp only [Session.step] at taken
    split at taken <;> cases taken
    next here =>
      refine ⟨frees, baton, pipesocket, fun used => ?_⟩
      cases here.1.symm.trans (reader used)
  | send_data =>
    simp only [Session.step] at taken
    split at taken <;> cases taken
    next data here =>
      refine ⟨frees, baton, pipesocket, fun used => ?_⟩
      cases here.symm.trans (reader used)
  | end_of_file =>
    simp only [Session.step] at taken
    split at taken <;> cases taken
    next here =>
      refine ⟨frees, baton, pipesocket, fun used => ?_⟩
      cases here.1.symm.trans (reader used)
  | post_pipesocket =>
    simp only [Session.step] at taken
    split at taken <;> cases taken
    exact ⟨frees, baton, pipesocket, fun _ => rfl⟩
  | after_pipesocket =>
    simp only [Session.step] at taken
    split at taken <;> cases taken
    next here =>
      rw [here.1] at frees pipesocket
      exact ⟨frees, baton, pipesocket, fun _ => here.2⟩
  | free_pipesocket_process =>
    simp only [Session.step] at taken
    split at taken <;> cases taken
    next here =>
      have held := Counted.pipesocket_held ⟨frees, baton, pipesocket, reader⟩ (by rw [here]; rfl)
      refine ⟨?_, baton, fun _ => rfl, fun _ => reader (by rw [here]; nofun)⟩
      simp only [Session.free, held, frees, here, callbackFreed, Bool.toNat_true, Bool.toNat_false, Nat.add_zero]
  | release_pipesocket =>
    simp only [Session.step] at taken
    split at taken <;> cases taken
    next here =>
      rw [here] at frees
      exact ⟨frees, baton, fun _ => rfl, fun _ => reader (by rw [here]; nofun)⟩

/-- A message sent through the cell survives exactly when neither side has freed it. -/
private theorem send_live_iff (counted : Counted session) (sound : Sound session) (message : Message) :
    (session.send message).lost = [] ↔
      waiterFreed session.waiter = false ∧ callbackFreed session.pipesocket = false := by
  simp only [Session.send]
  constructor
  · intro live
    refine ⟨?_, ?_⟩
    · rw [← Bool.not_eq_true]
      intro freed
      rw [if_neg (counted.freed (Or.inl freed))] at live
      exact List.append_ne_nil_of_right_ne_nil _ (List.cons_ne_nil _ _) live
    · rw [← Bool.not_eq_true]
      intro freed
      rw [if_neg (counted.freed (Or.inr freed))] at live
      exact List.append_ne_nil_of_right_ne_nil _ (List.cons_ne_nil _ _) live
  · intro ⟨waiter, callback⟩
    rw [if_pos (counted.unfreed waiter callback)]
    exact sound.live

private theorem send_delivered (counted : Counted session) (waiter : waiterFreed session.waiter = false)
    (callback : callbackFreed session.pipesocket = false) (message : Message) :
    (session.send message).delivered.flatMap payload = session.delivered.flatMap payload ++ payload message := by
  simp only [Session.send]
  rw [if_pos (counted.unfreed waiter callback), List.flatMap_append, List.flatMap_singleton]

private theorem active_unfreed (counted : Counted session) (reader : session.reader ≠ .posted) :
    callbackFreed session.pipesocket = false := by
  have active : session.pipesocket = .active := by
    by_cases active : session.pipesocket = .active
    · exact active
    · exact absurd (counted.reader active) reader
  rw [active]
  rfl

/-- A free is the first one exactly when the other side has not freed. -/
private theorem free_once_iff {process freed : Bool} (held : process = true) (frees : session.frees = freed.toNat) :
    (session.free process).frees ≤ 1 ↔ freed = false := by
  simp only [Session.free, held, frees]
  cases freed <;> simp

theorem sound_iff_inOrder (counted : Counted session) (sound : Sound session) (taken : session.step event = some next) :
    Sound next ↔ InOrder session event := by
  obtain ⟨once, live, whole⟩ := sound
  cases event with
  | output data =>
    simp only [Session.step] at taken
    split at taken <;> cases taken
    refine iff_of_true ⟨once, live, ?_⟩ trivial
    change session.output ++ data = _ ++ (session.buffer ++ data)
    rw [whole, List.append_assoc _ session.buffer]
  | send_exit =>
    simp only [Session.step] at taken
    split at taken <;> cases taken
    next here =>
      have waiter : waiterFreed session.waiter = false := by rw [here]; rfl
      have alive := send_live_iff counted ⟨once, live, whole⟩ .exit
      constructor
      · intro after
        exact (alive.mp after.live).2
      · intro callback
        refine ⟨once, alive.mpr ⟨waiter, callback⟩, ?_⟩
        change session.output = _ ++ inHand session.reader ++ session.buffer
        rw [send_delivered counted waiter callback, whole]
        simp [payload]
  | free_baton_process =>
    simp only [Session.step] at taken
    split at taken <;> cases taken
    next here =>
      have waiter : waiterFreed session.waiter = false := by rw [here]; rfl
      have frees : session.frees = (callbackFreed session.pipesocket).toNat := by
        rw [counted.frees, waiter, Bool.toNat_false, Nat.zero_add]
      have second := free_once_iff (counted.baton_held waiter) frees
      exact ⟨fun after => second.mp after.once, fun callback => ⟨second.mpr callback, live, whole⟩⟩
  | read count =>
    simp only [Session.step] at taken
    split at taken <;> cases taken
    next here =>
      refine iff_of_true ⟨once, live, ?_⟩ trivial
      change session.output = _ ++ session.buffer.take count ++ session.buffer.drop count
      rw [whole, here.1, List.append_assoc, List.append_assoc, List.take_append_drop]
      rfl
  | send_data =>
    simp only [Session.step] at taken
    split at taken <;> cases taken
    next data here =>
      have callback := active_unfreed counted (by rw [here]; nofun)
      have alive := send_live_iff counted ⟨once, live, whole⟩ (.data data)
      constructor
      · intro after
        exact (alive.mp after.live).1
      · intro waiter
        refine ⟨once, alive.mpr ⟨waiter, callback⟩, ?_⟩
        change session.output = _ ++ _ ++ session.buffer
        rw [send_delivered counted waiter callback, whole, here]
        simp [payload, inHand]
  | end_of_file | post_pipesocket =>
    simp only [Session.step] at taken
    split at taken <;> cases taken
    next here =>
      refine iff_of_true ⟨once, live, ?_⟩ trivial
      change session.output = _ ++ [] ++ session.buffer
      rw [whole]
      simp [here, inHand]
  | free_pipesocket_process =>
    simp only [Session.step] at taken
    split at taken <;> cases taken
    next here =>
      have callback : callbackFreed session.pipesocket = false := by rw [here]; rfl
      have frees : session.frees = (waiterFreed session.waiter).toNat := by
        rw [counted.frees, callback, Bool.toNat_false, Nat.add_zero]
      have second := free_once_iff (counted.pipesocket_held callback) frees
      exact ⟨fun after => second.mp after.once, fun waiter => ⟨second.mpr waiter, live, whole⟩⟩
  | _ =>
    simp only [Session.step] at taken
    split at taken <;> cases taken
    exact iff_of_true ⟨once, live, whole⟩ trivial

theorem start_counted : Counted {} := ⟨rfl, nofun, nofun, fun active => absurd rfl active⟩

/-- In every run the cell is freed at most once, every message goes through it while it
is alive, and no output is lost, exactly when neither side sends or frees after the
other side's free. -/
theorem lifetime_iff (events : List Event) :
    Always Session.step Sound {} events ↔ Along Session.step InOrder {} events := by
  apply always_iff_along Counted
  · intro session event next counted taken
    exact step_counted counted taken
  · intro session event next counted sound taken
    exact sound_iff_inOrder counted sound taken
  · exact start_counted
  · exact ⟨Nat.zero_le 1, rfl, rfl⟩

/-- A command that prints one byte and ends, with a waiter faster than the reader. -/
def shortCommand : List Event :=
  [.output [97], .child_exit, .waitpid, .send_exit, .free_baton_process, .read 1, .send_data]

theorem short_command_loses_output :
    ∃ final, exec Session.step {} shortCommand = some final ∧ final.frees = 1 ∧ final.delivered = [.exit] ∧
      final.lost = [.data [97]] ∧ ¬ Always Session.step Sound {} shortCommand := by
  refine ⟨_, rfl, rfl, rfl, rfl, ?_⟩
  intro always
  cases (always.final rfl).live

end ExPTY.Proofs.OwnerCellLifetime
