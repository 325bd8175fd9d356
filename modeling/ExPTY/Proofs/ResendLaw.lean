import ExPTY.Runs
import ExPTY.WriteCall

/-! What a call of `pty_pipesocket::write` that returns has written. The two counters of the
loop always add up to the length of the data, and what the descriptor accepted is the
part of the data before the first of them, wherever the reader stops the loop. -/

namespace ExPTY.Proofs.ResendLaw
open NativeCalls Runs WriteCall
open Termios (Header)
open Server (Binary Reply)

variable {header : Header} {data : Binary}

/-- A request for at most 1024 bytes, all of them bytes of the data. -/
def Inside (data : Binary) : Syscall header → Prop
  | .write source offset nbytes => source = data ∧ offset + nbytes ≤ data.length ∧ nbytes ≤ 1024
  | _ => False

/-- No subtraction from `bytes_to_write` was larger than what it is subtracted from. -/
def Balanced (data : Binary) : Call header → Prop
  | .looping loop | .writing loop | .unlocking loop => loop.bytes_written + loop.bytes_to_write = data.length
  | _ => True

/-- The loop's variables against what the descriptor has accepted. -/
structure Kept (data : Binary) (loop : Loop) (accepted : Binary) : Prop where
  source : loop.data = data
  balanced : loop.bytes_written + loop.bytes_to_write = data.length
  accepted : accepted = data.take loop.bytes_written

def Answered (data : Binary) (reply : Reply) (accepted : Binary) : Prop :=
  ∃ count ≤ data.length, accepted = data.take count ∧ reply = if count = data.length then .ok else .accepted count

def Control (data accepted : Binary) : Call header → Prop
  | .entered source | .locking source => source = data ∧ accepted = []
  | .looping loop | .writing loop | .unlocking loop => Kept data loop accepted
  | .returned reply => Answered data reply accepted
  | _ => False

structure Sound (data : Binary) (attempt : Attempt header) : Prop where
  requests : ∀ call ∈ attempt.requests, Inside data call
  control : Control data attempt.accepted attempt.call

theorem Kept.answered {loop : Loop} {accepted : Binary} (kept : Kept data loop accepted) :
    Answered data loop.reply accepted := by
  have balanced := kept.balanced
  refine ⟨loop.bytes_written, by omega, kept.accepted, ?_⟩
  rw [Loop.reply, kept.source]

theorem kept_start (data : Binary) : Kept data (.start data) [] :=
  ⟨rfl, Nat.zero_add data.length, (List.take_zero (l := data)).symm⟩

/-- A write that takes no more than was asked for keeps the two counters and the data together. -/
theorem Kept.accept {loop : Loop} {accepted : Binary} {count : Nat} (kept : Kept data loop accepted)
    (within : count ≤ loop.nbytes) : Kept data (loop.accept count) (accepted ++ (data.drop loop.bytes_written).take count) := by
  have balanced := kept.balanced
  have asked := loop.nbytes_le.1
  refine ⟨kept.source, ?_, ?_⟩
  · change loop.bytes_written + count + (loop.bytes_to_write - count) = data.length
    omega
  · rw [kept.accepted]
    exact List.take_add.symm

private theorem after_write_control {loop : Loop} {accepted : Binary} (kept : Kept data loop accepted) (result : Option Nat)
    (within : ∀ count ∈ result, count ≤ loop.nbytes) :
    Control data (accepted ++ (loop.data.drop loop.bytes_written).take (result.getD 0))
      (after_write loop result : Call header) := by
  have refused : Kept data loop.refuse accepted := ⟨kept.source, kept.balanced, kept.accepted⟩
  match result with
  | none | some 0 =>
    simp only [Option.getD_none, Option.getD_some, List.take_zero, List.append_nil]
    exact refused
  | some (count + 1) =>
    have next := kept.accept (within (count + 1) rfl)
    rw [kept.source]
    simp only [after_write]
    split
    · exact next
    · exact next

private theorem step_sound {attempt next : Attempt header} {answer : Answer} (sound : Sound data attempt)
    (taken : attempt.step answer = some next) : Sound data next := by
  obtain ⟨call, locked, requests, accepted⟩ := attempt
  obtain ⟨inside, control⟩ := sound
  cases call with
  | entered source =>
    obtain ⟨rfl, rfl⟩ := control
    cases taken
    refine ⟨inside, ?_⟩
    cases answer.fd_closed with
    | true => exact (kept_start source).answered
    | false => exact ⟨rfl, rfl⟩
  | locking source =>
    obtain ⟨rfl, rfl⟩ := control
    cases taken
    exact ⟨inside, kept_start source⟩
  | looping loop =>
    cases taken
    refine ⟨inside, ?_⟩
    cases answer.fd_closed with
    | true => exact control
    | false => exact control
  | writing loop =>
    simp only [Attempt.step, Call.next, Option.ite_none_right_eq_some] at taken
    obtain ⟨within, taken⟩ := taken
    cases taken
    have balanced := control.balanced
    have asked := loop.nbytes_le
    refine ⟨?_, after_write_control control answer.result within⟩
    intro call member
    obtain old | new := List.mem_append.mp member
    · exact inside call old
    · rw [List.mem_singleton.mp new]
      exact ⟨control.source, by omega, asked.2⟩
  | unlocking loop =>
    cases taken
    exact ⟨inside, control.answered⟩
  | returned reply => cases taken
  | ioctl | tcgetattr | tcsetattr | control => cases control

private theorem run_sound (data : Binary) (answers : List Answer) :
    Always Attempt.step (Sound data) (.start data : Attempt header) answers :=
  Always.of_invariant (fun _ _ _ => step_sound) answers ⟨by simp [Attempt.start], rfl, rfl⟩

private theorem control_balanced {accepted : Binary} {call : Call header} (control : Control data accepted call) :
    Balanced data call := by
  cases call with
  | looping loop | writing loop | unlocking loop => exact Kept.balanced control
  | _ => trivial

/-- What the descriptor accepts from a caller that sends again, from the position that the
answer names, until the answer is `:ok`. Each call has a run of its own. -/
inductive Resent (header : Header) : Binary → Binary → Prop where
  | ok {data : Binary} (answers : List Answer) (attempt : Attempt header)
      (ran : exec Attempt.step (.start data) answers = some attempt) (returned : attempt.call = .returned .ok) :
      Resent header data attempt.accepted
  | resend {data rest : Binary} (answers : List Answer) (attempt : Attempt header) (count : Nat)
      (ran : exec Attempt.step (.start data) answers = some attempt)
      (returned : attempt.call = .returned (.accepted count)) (later : Resent header (data.drop count) rest) :
      Resent header data (attempt.accepted ++ rest)

private theorem returned_answered {answers : List Answer} {attempt : Attempt header} {reply : Reply}
    (ran : exec Attempt.step (.start data) answers = some attempt) (returned : attempt.call = .returned reply) :
    Answered data reply attempt.accepted := by
  have control := ((run_sound data answers).final ran).control
  rw [returned] at control
  exact control

private theorem resent_eq {stream : Binary} (resent : Resent header data stream) : stream = data := by
  induction resent with
  | @ok data answers attempt ran returned =>
    obtain ⟨count, _, accepted, reply⟩ := returned_answered ran returned
    have all : count = data.length := by
      by_cases all : count = data.length
      · exact all
      · rw [if_neg all] at reply
        cases reply
    rw [accepted, all, List.take_length]
  | @resend data rest answers attempt count ran returned later ih =>
    obtain ⟨taken, _, accepted, reply⟩ := returned_answered ran returned
    have same : count = taken := by
      split at reply
      · cases reply
      · exact Int.ofNat_inj.mp (Reply.accepted.inj reply)
    rw [accepted, ih, same, List.take_append_drop]

/-- Every request of a call lies in the data, a call that returns has written a prefix of
it and says how long that is, and a caller that resends gets the data written once. -/
theorem write_accepts_exactly :
    (∀ (data : Binary) (answers : List Answer) (attempt : Attempt header),
      exec Attempt.step (.start data) answers = some attempt →
        (∀ call ∈ attempt.requests, Inside data call) ∧ Balanced data attempt.call ∧
          ∀ reply, attempt.call = .returned reply → ∃ count ≤ data.length, attempt.accepted = data.take count ∧
            (reply = .ok ↔ count = data.length) ∧ (reply = .accepted count ↔ count ≠ data.length)) ∧
      ∀ data stream : Binary, Resent header data stream → stream = data := by
  refine ⟨?_, fun _ _ resent => resent_eq resent⟩
  intro data answers attempt ran
  have sound := (run_sound data answers).final ran
  refine ⟨sound.requests, control_balanced sound.control, ?_⟩
  intro reply returned
  obtain ⟨count, within, accepted, rfl⟩ := returned_answered ran returned
  refine ⟨count, within, accepted, ?_⟩
  by_cases all : count = data.length <;> simp [all]

/-- Two bytes of three before the reader sees the end of the file, and the third in a second call. -/
def stopped : List Answer := [⟨false, none⟩, ⟨false, none⟩, ⟨false, none⟩, ⟨false, some 2⟩, ⟨true, none⟩, ⟨true, none⟩]

def finished : List Answer := [⟨false, none⟩, ⟨false, none⟩, ⟨false, none⟩, ⟨false, some 1⟩, ⟨false, none⟩]

theorem resent_three_bytes :
    (∃ attempt : Attempt Header.linux, exec Attempt.step (.start [1, 2, 3]) stopped = some attempt ∧
      attempt.call = .returned (.accepted 2) ∧ ∀ call ∈ attempt.requests, Inside [1, 2, 3] call) ∧
      ∃ stream, Resent Header.linux [1, 2, 3] stream ∧ stream = [1, 2, 3] := by
  refine ⟨⟨_, rfl, rfl, (write_accepts_exactly.1 [1, 2, 3] stopped _ rfl).1⟩, ?_⟩
  have first : ∃ attempt : Attempt Header.linux, exec Attempt.step (.start [1, 2, 3]) stopped = some attempt ∧
      attempt.call = .returned (.accepted 2) := ⟨_, rfl, rfl⟩
  have second : ∃ attempt : Attempt Header.linux, exec Attempt.step (.start [3]) finished = some attempt ∧
      attempt.call = .returned .ok := ⟨_, rfl, rfl⟩
  obtain ⟨attempt, ran, returned⟩ := first
  obtain ⟨later, ranLater, returnedLater⟩ := second
  have resent := Resent.resend stopped attempt 2 ran returned (.ok finished later ranLater returnedLater)
  exact ⟨_, resent, write_accepts_exactly.2 [1, 2, 3] _ resent⟩

end ExPTY.Proofs.ResendLaw
