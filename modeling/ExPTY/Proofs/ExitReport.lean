import ExPTY.Proofs.MessageClauses
import ExPTY.WaitThread

/-! What the waiter tells the session about the end of its child. It always sends one
message. Only where the last `waitpid` succeeds is the status word in it one that a
`waitpid` has returned. -/

namespace ExPTY.Proofs.ExitReport
open Runs WaitThread
open MessageClauses (Sends)
open Server (Info)

/-- What a status word says of a child that has ended. -/
structure Decodes (stat_loc : Status) (exit_code signal_code : Int) : Prop where
  exited : WIFEXITED stat_loc = true → exit_code = WEXITSTATUS stat_loc ∧ signal_code = 0
  signaled : WIFSIGNALED stat_loc = true → exit_code = 0 ∧ signal_code = WTERMSIG stat_loc

/-- The thread returns after it has sent exactly one exit message. -/
def SendsOne (pid : Int) (outcomes : Outcomes) (exit_code signal_code : Int) : Prop :=
  ∃ done, pty_waitpid { pid } outcomes.frames = some done ∧ done.sent = [.exit exit_code (some signal_code)]

/-- The codes in the message are those of a status word that a `waitpid` returned. -/
def Reports (pid : Int) (outcomes : Outcomes) : Prop :=
  ∃ exit_code signal_code, SendsOne pid outcomes exit_code signal_code ∧
    ∃ stat_loc ∈ outcomes.reaped, Decodes stat_loc exit_code signal_code

def exit_code (stat_loc : Status) : Int := if WIFEXITED stat_loc then WEXITSTATUS stat_loc else 0

def signal_code (stat_loc : Status) : Int := if WIFSIGNALED stat_loc then WTERMSIG stat_loc else 0

theorem decodes (stat_loc : Status) : Decodes stat_loc (exit_code stat_loc) (signal_code stat_loc) := by
  refine ⟨?_, ?_⟩
  · intro exited
    have alive : WIFSIGNALED stat_loc = false := by
      have zero : WTERMSIG stat_loc = 0 := of_decide_eq_true exited
      simp [WIFSIGNALED, zero]
    simp [exit_code, signal_code, exited, alive]
  · intro signaled
    have killed : WIFEXITED stat_loc = false := by
      have nonzero := (Bool.and_eq_true_iff.mp signaled).1
      simpa [WIFEXITED] using nonzero
    simp [exit_code, signal_code, signaled, killed]

def waits (pid : Int) (count : Nat) : List Effect := (List.replicate count [.signal_SIGCHLD_SIG_DFL, .waitpid pid]).flatten

private theorem waits_silent {α : Type} {f : Effect → Option α} {pid : Int} (signal : f .signal_SIGCHLD_SIG_DFL = none)
    (waitpid : f (.waitpid pid) = none) (count : Nat) : (waits pid count).filterMap f = [] := by
  apply List.filterMap_eq_nil_iff.mpr
  intro effect member
  obtain ⟨pair, copies, inside⟩ := List.mem_flatten.mp member
  rw [List.eq_of_mem_replicate copies] at inside
  rcases List.mem_cons.mp inside with rfl | inside
  · exact signal
  · rw [List.mem_singleton.mp inside]
    exact waitpid

/-- The frames before the last one leave the codes of the baton alone. -/
private theorem interrupted_calls (baton : Baton) (interrupted : List Status) (last : Frame)
    (final : last.waited ≠ .failed EINTR) :
    pty_waitpid baton (interrupted.map (fun unset => ⟨unset, .failed EINTR⟩) ++ [last]) =
      some ((baton.did (waits baton.pid (interrupted.length + 1))).report last.stat_loc) := by
  induction interrupted generalizing baton with
  | nil => simp [pty_waitpid, final, waits]
  | cons unset interrupted ih =>
    rw [List.map_cons, List.cons_append, pty_waitpid, if_pos rfl, ih]
    simp [Baton.did, waits, List.replicate_succ]

section Calls
variable (pid : Int) (outcomes : Outcomes)

def finished : Baton :=
  Baton.report (Baton.did { pid } (waits pid (outcomes.interrupted.length + 1))) outcomes.last.stat_loc

theorem returns : pty_waitpid { pid } outcomes.frames = some (finished pid outcomes) :=
  interrupted_calls { pid } outcomes.interrupted outcomes.last outcomes.final

/-- After the calls of `waitpid`: the message, and then the statements of the waiter that
free the cell, wake the loop and erase the entry. -/
theorem finished_effects :
    (finished pid outcomes).effects = waits pid (outcomes.interrupted.length + 1) ++
      [.enif_send (.exit (exit_code outcomes.last.stat_loc) (some (signal_code outcomes.last.stat_loc))),
        .enif_free_process, .clear_process, .uv_async_send, .erase pid] := by
  simp only [finished, Baton.report, Baton.did, exit_code, signal_code]
  split <;> split <;> simp

theorem finished_sent :
    (finished pid outcomes).sent =
      [.exit (exit_code outcomes.last.stat_loc) (some (signal_code outcomes.last.stat_loc))] := by
  rw [Baton.sent, finished_effects, List.filterMap_append, waits_silent rfl rfl]
  rfl

/-- It is a message that the Unix session has a clause for. -/
theorem finished_sends : ∀ message ∈ (finished pid outcomes).sent, Sends .unix message := by
  intro message member
  rw [finished_sent] at member
  rw [List.mem_singleton.mp member]
  exact .pty_waitpid _ _

/-- The waiter of `ExPTY.OwnerCell` takes the rest of the function in its order. -/
theorem waiter_follows {session : OwnerCell.Session} (reaped : session.waiter = .reaped) :
    ∃ next, exec OwnerCell.Session.step session ((finished pid outcomes).effects.filterMap Effect.event?) = some next ∧
      next.waiter = .erased := by
  rw [finished_effects, List.filterMap_append, waits_silent rfl rfl]
  simp [Effect.event?, exec, OwnerCell.Session.step, reaped, OwnerCell.Session.send, OwnerCell.Session.free]

private theorem sends_one : SendsOne pid outcomes (exit_code outcomes.last.stat_loc) (signal_code outcomes.last.stat_loc) :=
  ⟨_, returns pid outcomes, finished_sent pid outcomes⟩

theorem mem_reaped (stat_loc : Status) : stat_loc ∈ outcomes.reaped ↔ outcomes.last.waited = .status stat_loc := by
  have none_before : (outcomes.interrupted.map fun unset => (⟨unset, .failed EINTR⟩ : Frame)).filterMap Frame.reaped = [] := by
    rw [List.filterMap_map]
    apply List.filterMap_eq_nil_iff.mpr
    intro unset _
    rfl
  rw [Outcomes.reaped, Outcomes.frames, List.filterMap_append, none_before, List.nil_append]
  cases waited : outcomes.last.waited <;> simp [Frame.reaped, waited, eq_comm]

end Calls

/-- The thread always sends one exit message, and reports the end of its child exactly when
the `waitpid` that is not interrupted succeeds. When it fails, the codes are what the
macros make of the word that its frame has found on the stack. -/
theorem exit_report_iff (pid : Int) (outcomes : Outcomes) :
    (∃ exit_code signal_code, SendsOne pid outcomes exit_code signal_code) ∧
      (Reports pid outcomes ↔ ∃ stat_loc, outcomes.last.waited = .status stat_loc) ∧
        ∀ errno, outcomes.last.waited = .failed errno →
          SendsOne pid outcomes (exit_code outcomes.last.unset) (signal_code outcomes.last.unset) := by
  refine ⟨⟨_, _, sends_one pid outcomes⟩, ⟨?_, ?_⟩, ?_⟩
  · intro ⟨_, _, _, stat_loc, reaped, _⟩
    exact ⟨stat_loc, (mem_reaped outcomes stat_loc).mp reaped⟩
  · intro ⟨stat_loc, succeeded⟩
    have written : outcomes.last.stat_loc = stat_loc := by rw [Frame.stat_loc, succeeded]
    refine ⟨_, _, sends_one pid outcomes, stat_loc, (mem_reaped outcomes stat_loc).mpr succeeded, ?_⟩
    rw [written]
    exact decodes stat_loc
  · intro errno failed
    have unwritten : outcomes.last.stat_loc = outcomes.last.unset := by rw [Frame.stat_loc, failed]
    rw [← unwritten]
    exact sends_one pid outcomes

/-- The process was reaped by somebody else, and the stack held the number 0x300. -/
def stolen : Outcomes := { interrupted := [], last := { unset := 0x300, waited := .failed ECHILD }, final := by simp [ECHILD, EINTR] }

/-- The child is reported to have ended with the code 3, which no `waitpid` has returned. -/
theorem unset_status_reported : SendsOne 1 stolen 3 0 ∧ ¬ Reports 1 stolen := by
  refine ⟨⟨_, returns 1 stolen, rfl⟩, ?_⟩
  intro ⟨_, _, _, stat_loc, reaped, _⟩
  cases (mem_reaped stolen stat_loc).mp reaped

end ExPTY.Proofs.ExitReport
