import Mathlib.Data.Nat.Find
import ExPTY.WriteCall

/-! When `pty_pipesocket::write` returns while the session stays open. The loop ends where
all bytes are accepted after a write, and nowhere else: `retry` is counted down and
looked at, but never ends it, and for no data there is no such write. -/

namespace ExPTY.Proofs.WriteTermination
open NativeCalls WriteCall
open Termios (Header)
open Server (Binary Reply)

section Rule
variable (results : Results) (data : Binary)

/-- All of the data is accepted, or one more write accepted nothing than `retry` allows for. -/
def Due (writes : Nat) : Prop :=
  results.written data.length writes = data.length ∨ (Loop.start data).retry.toNat < results.refused data.length writes

/-- `expty_write` has answered after so many writes, and the mutex is free. -/
def Returns (header : Header) (writes : Nat) : Prop :=
  ∃ (steps : Nat) (attempt : Attempt header), Attempt.after results steps (.start data) = some attempt ∧
    attempt.requests.length = writes ∧ attempt.locked = false ∧
      attempt.call = .returned (if results.written data.length writes = data.length then .ok else .accepted (results.written data.length writes))

def Stops (header : Header) : Prop :=
  ∃ writes, Due results data writes ∧ (∀ earlier < writes, ¬ Due results data earlier) ∧ Returns results data header writes

def Leaves (writes : Nat) : Prop := data ≠ [] ∧ results.written data.length writes = data.length

end Rule

variable {header : Header} {results : Results} {data : Binary}

/-- The loop's variables after `writes` turns, none of which was the last. -/
structure Turned (results : Results) (data : Binary) (writes : Nat) (loop : Loop) : Prop where
  source : loop.data = data
  written : loop.bytes_written = results.written data.length writes
  rest : loop.bytes_to_write = data.length - loop.bytes_written
  retry : loop.retry = 3 - BitVec.ofNat 64 (results.refused data.length writes)
  going : ∀ earlier < writes, ¬ Leaves results data earlier

def Control (results : Results) (data : Binary) (attempt : Attempt header) : Prop :=
  match attempt.call with
  | .entered source | .locking source => source = data ∧ attempt.requests = [] ∧ attempt.locked = false
  | .looping loop | .writing loop =>
    Turned results data attempt.requests.length loop ∧ ¬ Leaves results data attempt.requests.length
  | .unlocking loop => Turned results data attempt.requests.length loop ∧ Leaves results data attempt.requests.length
  | .returned reply =>
    reply = .ok ∧ attempt.locked = false ∧ Leaves results data attempt.requests.length ∧
      ∀ earlier < attempt.requests.length, ¬ Leaves results data earlier
  | _ => False

/-- The steps that are left until a call returns that leaves its loop after `last` writes. -/
def rank (last : Nat) (attempt : Attempt header) : Nat :=
  match attempt.call with
  | .entered _ => 2 * last + 4
  | .locking _ => 2 * last + 3
  | .looping _ => 2 * (last - attempt.requests.length) + 2
  | .writing _ => 2 * (last - attempt.requests.length) + 1
  | .unlocking _ => 1
  | _ => 0

private theorem turned_start : Turned results data 0 (.start data) ∧ ¬ Leaves results data 0 := by
  refine ⟨⟨rfl, rfl, rfl, by simp [Loop.start, Results.refused], fun _ impossible => absurd impossible (Nat.not_lt_zero _)⟩, ?_⟩
  intro ⟨nonempty, complete⟩
  exact nonempty (List.length_eq_zero_iff.mp complete.symm)

private theorem next_eq {writes : Nat} {loop : Loop} (turned : Turned results data writes loop) :
    results.next data.length writes (results.written data.length writes) = (results.result writes loop.nbytes).getD 0 := by
  rw [Results.next, Loop.nbytes, turned.rest, turned.written]

private theorem after_write_control {writes : Nat} {loop : Loop} (turned : Turned results data writes loop)
    (inside : ¬ Leaves results data writes) :
    (∃ next, after_write loop (results.result writes loop.nbytes) = (.looping next : Call header) ∧
        Turned results data (writes + 1) next ∧ ¬ Leaves results data (writes + 1)) ∨
      ∃ next, after_write loop (results.result writes loop.nbytes) = (.unlocking next : Call header) ∧
        Turned results data (writes + 1) next ∧ Leaves results data (writes + 1) := by
  have going : ∀ earlier < writes + 1, ¬ Leaves results data earlier := by
    intro earlier before
    obtain before | rfl := Nat.lt_succ_iff_lt_or_eq.mp before
    · exact turned.going earlier before
    · exact inside
  have turn := next_eq turned
  have more : results.written data.length (writes + 1) =
      results.written data.length writes + (results.result writes loop.nbytes).getD 0 :=
    congrArg (results.written data.length writes + ·) turn
  have less : results.refused data.length (writes + 1) =
      results.refused data.length writes + if (results.result writes loop.nbytes).getD 0 = 0 then 1 else 0 := by
    rw [← turn]
    rfl
  match answered : results.result writes loop.nbytes with
  | none | some 0 =>
    rw [answered] at more less
    refine .inl ⟨loop.refuse, rfl, ⟨turned.source, ?_, turned.rest, ?_, going⟩, ?_⟩
    · exact turned.written.trans more.symm
    · simp only [less, Loop.refuse, turned.retry, Option.getD, if_true]
      bv_omega
    · rw [Leaves, more]
      exact inside
  | some (count + 1) =>
    rw [answered] at more less
    have within := results.bounded writes loop.nbytes (count + 1) answered
    have asked := loop.nbytes_le.1
    have next : Turned results data (writes + 1) (loop.accept (count + 1)) := by
      refine ⟨turned.source, ?_, ?_, ?_, going⟩
      · rw [more, Loop.accept, turned.written, Option.getD_some]
      · have rest := turned.rest
        change loop.bytes_to_write - (count + 1) = data.length - (loop.bytes_written + (count + 1))
        omega
      · rw [less]
        exact turned.retry
    simp only [after_write]
    split
    next complete =>
      refine .inr ⟨_, rfl, next, ?_, ?_⟩
      · intro empty
        have rest := turned.rest
        rw [empty, List.length_nil] at rest
        omega
      · rw [← next.written, complete, next.source]
    next short =>
      refine .inl ⟨_, rfl, next, ?_⟩
      intro leaves
      apply short
      rw [next.written, next.source, leaves.2]

private theorem step_writing (results : Results) (loop : Loop) (locked : Bool) (requests : List (Syscall header))
    (accepted : Binary) :
    (⟨.writing loop, locked, requests, accepted⟩ : Attempt header).step (results.answer ⟨.writing loop, locked, requests, accepted⟩) =
      some
        { call := after_write loop (results.result requests.length loop.nbytes)
          locked
          requests := requests ++ [.write loop.data loop.bytes_written loop.nbytes]
          accepted := accepted ++ (loop.data.drop loop.bytes_written).take ((results.result requests.length loop.nbytes).getD 0) } :=
  if_pos (results.bounded requests.length loop.nbytes)

private theorem step_control {attempt : Attempt header} (control : Control results data attempt) :
    (∃ reply, attempt.call = .returned reply) ∨
      ∃ next, attempt.step (results.answer attempt) = some next ∧ Control results data next ∧
        ∀ last, Leaves results data last → rank last next < rank last attempt := by
  obtain ⟨call, locked, requests, accepted⟩ := attempt
  cases call with
  | entered source =>
    obtain ⟨rfl, rfl, rfl⟩ := control
    refine .inr ⟨_, rfl, ⟨rfl, rfl, rfl⟩, ?_⟩
    intro last _
    exact Nat.lt_succ_self _
  | locking source =>
    obtain ⟨rfl, rfl, rfl⟩ := control
    refine .inr ⟨_, rfl, turned_start, ?_⟩
    intro last _
    exact Nat.lt_succ_self _
  | looping loop =>
    refine .inr ⟨_, rfl, control, ?_⟩
    intro last _
    exact Nat.lt_succ_self _
  | writing loop =>
    obtain ⟨turned, inside⟩ := control
    have before : ∀ last, Leaves results data last → requests.length < last := by
      intro last leaves
      apply Nat.lt_of_not_le
      intro after
      obtain earlier | rfl := Nat.lt_or_eq_of_le after
      · exact turned.going last earlier leaves
      · exact inside leaves
    have grown (call : Syscall header) : (requests ++ [call]).length = requests.length + 1 := List.length_append
    refine .inr ⟨_, step_writing results loop locked requests accepted, ?_⟩
    obtain ⟨next, again, turned, inside⟩ | ⟨next, last, turned, leaves⟩ := @after_write_control header results data _ _ turned inside
    · rw [again]
      refine ⟨?_, ?_⟩
      · rw [Control, grown]
        exact ⟨turned, inside⟩
      · intro last leaves
        have left := before last leaves
        simp only [rank, grown]
        omega
    · rw [last]
      refine ⟨?_, ?_⟩
      · rw [Control, grown]
        exact ⟨turned, leaves⟩
      · intro last leaves
        have left := before last leaves
        simp only [rank]
        omega
  | unlocking loop =>
    obtain ⟨turned, leaves⟩ := control
    refine .inr ⟨_, rfl, ⟨?_, rfl, leaves, turned.going⟩, ?_⟩
    · rw [Loop.reply, turned.source, turned.written, if_pos leaves.2]
    · intro last _
      exact Nat.lt_succ_self _
  | returned reply => exact .inl ⟨reply, rfl⟩
  | ioctl | tcgetattr | tcsetattr | control => cases control

private theorem after_control {attempt reached : Attempt header} {steps : Nat} (control : Control results data attempt)
    (ran : Attempt.after results steps attempt = some reached) : Control results data reached := by
  induction steps generalizing attempt with
  | zero =>
    cases ran
    exact control
  | succ steps ih =>
    obtain ⟨next, taken, ran⟩ := Option.bind_eq_some_iff.mp ran
    obtain ⟨reply, returned⟩ | ⟨other, stepped, later, _⟩ := step_control control
    · simp [Attempt.step, returned, Call.next] at taken
    · cases stepped.symm.trans taken
      exact ih later ran

/-- A call that can leave its loop returns. By induction on its rank. -/
private theorem returns {last : Nat} (leaves : Leaves results data last) :
    ∀ (left : Nat) (attempt : Attempt header), rank last attempt ≤ left → Control results data attempt →
      ∃ steps reached reply, Attempt.after results steps attempt = some reached ∧ reached.call = .returned reply := by
  intro left
  induction left with
  | zero =>
    intro attempt bound control
    obtain ⟨reply, returned⟩ | ⟨next, _, _, falls⟩ := step_control control
    · exact ⟨0, attempt, reply, rfl, returned⟩
    · have less := falls last leaves
      omega
  | succ left ih =>
    intro attempt bound control
    obtain ⟨reply, returned⟩ | ⟨next, taken, later, falls⟩ := step_control control
    · exact ⟨0, attempt, reply, rfl, returned⟩
    · have less := falls last leaves
      obtain ⟨steps, reached, reply, ran, returned⟩ := ih next (by omega) later
      refine ⟨steps + 1, reached, reply, ?_, returned⟩
      rw [Attempt.after, taken]
      exact ran

private theorem start_control (results : Results) (data : Binary) : Control results data (.start data : Attempt header) :=
  ⟨rfl, rfl, rfl⟩

/-- The call returns after the first writes that its loop can be left behind, and no others. -/
private theorem returns_iff (writes : Nat) :
    Returns results data header writes ↔
      Leaves results data writes ∧ ∀ earlier < writes, ¬ Leaves results data earlier := by
  constructor
  · intro ⟨steps, attempt, ran, made, _, returned⟩
    have control := after_control (start_control results data) ran
    rw [Control, returned, made] at control
    exact ⟨control.2.2.1, control.2.2.2⟩
  · intro ⟨leaves, first⟩
    obtain ⟨steps, attempt, reply, ran, returned⟩ := returns leaves _ (.start data : Attempt header) (Nat.le_refl _) (start_control results data)
    have control := after_control (start_control results data) ran
    rw [Control, returned] at control
    obtain ⟨rfl, unlocked, left, going⟩ := control
    have made : attempt.requests.length = writes := by
      obtain less | same | more := Nat.lt_trichotomy attempt.requests.length writes
      · exact absurd left (first _ less)
      · exact same
      · exact absurd leaves (going _ more)
    refine ⟨steps, attempt, ran, made, unlocked, ?_⟩
    rw [if_pos leaves.2]
    exact returned

theorem refused_mono (results : Results) (len : Nat) {first second : Nat} (before : first ≤ second) :
    results.refused len first ≤ results.refused len second := by
  induction before with
  | refl => exact Nat.le_refl _
  | step _ ih => exact Nat.le_trans ih (Nat.le_add_right _ _)

/-- The call returns as it should exactly when there is something to write and all of it is
accepted before a fourth write accepts nothing. -/
theorem write_stops_iff (results : Results) (data : Binary) (header : Header) :
    Stops results data header ↔
      data ≠ [] ∧ ∃ writes, results.written data.length writes = data.length ∧ results.refused data.length writes ≤ 3 := by
  constructor
  · intro ⟨writes, due, early, returned⟩
    obtain ⟨⟨nonempty, complete⟩, going⟩ := (returns_iff writes).mp returned
    refine ⟨nonempty, writes, complete, ?_⟩
    cases writes with
    | zero => exact Nat.zero_le 3
    | succ writes =>
      obtain ⟨short, unspent⟩ := not_or.mp (early writes (Nat.lt_succ_self writes))
      have budget : results.refused data.length writes ≤ 3 := Nat.le_of_not_lt unspent
      have accepts : results.next data.length writes (results.written data.length writes) ≠ 0 := by
        intro nothing
        have same : results.written data.length (writes + 1) = results.written data.length writes := by
          rw [Results.written, nothing, Nat.add_zero]
        exact short (same.symm.trans complete)
      rw [Results.refused, if_neg accepts]
      exact budget
  · intro ⟨nonempty, late, complete, within⟩
    have exists_complete : ∃ writes, results.written data.length writes = data.length := ⟨late, complete⟩
    obtain ⟨writes, ⟨least, first⟩⟩ : ∃ writes, results.written data.length writes = data.length ∧
        ∀ earlier < writes, results.written data.length earlier ≠ data.length :=
      ⟨Nat.find exists_complete, Nat.find_spec exists_complete, fun _ => Nat.find_min exists_complete⟩
    have soon : writes ≤ late := Nat.le_of_not_lt fun later => first late later complete
    refine ⟨writes, .inl least, ?_, (returns_iff writes).mpr ⟨⟨nonempty, least⟩, ?_⟩⟩
    · intro earlier before due
      obtain done | spent := due
      · exact first earlier before done
      · have kept := refused_mono results data.length (Nat.le_of_lt (Nat.lt_of_lt_of_le before soon))
        have budget : 3 < results.refused data.length earlier := spent
        omega
    · intro earlier before leaves
      exact first earlier before leaves.2

/-- A child that reads nothing behind a full input queue. -/
def full : Results := { result := fun _ _ => none, bounded := by simp }

private theorem full_writes_nothing (len writes : Nat) : full.written len writes = 0 := by
  induction writes with
  | zero => rfl
  | succ writes ih => rw [Results.written, ih, Results.next, full, Option.getD_none]

/-- Neither a byte that is never accepted nor an empty binary is ever answered. -/
theorem write_never_returns :
    (∀ writes, ¬ Returns full [104] Header.linux writes) ∧ (∀ writes, ¬ Returns full [] Header.linux writes) ∧
      ¬ Stops full [104] Header.linux ∧ ¬ Stops full [] Header.linux := by
  have byte (writes : Nat) : ¬ Returns full [104] Header.linux writes := by
    intro returned
    have complete := ((returns_iff writes).mp returned).1.2
    rw [full_writes_nothing] at complete
    cases complete
  have empty (writes : Nat) : ¬ Returns full [] Header.linux writes := by
    intro returned
    exact ((returns_iff writes).mp returned).1.1 rfl
  refine ⟨byte, empty, ?_, ?_⟩
  · intro ⟨writes, _, _, returned⟩
    exact byte writes returned
  · intro ⟨writes, _, _, returned⟩
    exact empty writes returned

end ExPTY.Proofs.WriteTermination
