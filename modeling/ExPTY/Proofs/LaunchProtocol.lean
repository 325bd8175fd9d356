import ExPTY.Launch

/-! What the parent may conclude from the comm pipe. A whole record always becomes the
right error. Anything else is taken for a success, which is right only once `execvp` has
closed the helper's end: a helper that dies without a record closes it as well, and an
interrupted or short read says nothing at all. -/

namespace ExPTY.Proofs.LaunchProtocol
open Runs Launch

def named : Call → String
  | .chdir => "chdir() failed: "
  | .setuid => "setuid() failed: "
  | .setgid => "setgid() failed: "
  | .exec => "exec() failed: "

structure Launched (strerror : Int → String) (state : State) : Prop where
  success : state.parent = .returned .session → state.helper = .replaced
  failure : state.helper.failed = true → ∀ result, state.parent = .returned result → ∃ text, result = .error text
  reason : ∀ text written, state.parent = .returned (.error text) → state.written = some written →
    written.bytes = 8 → text = named written.call ++ strerror written.errno

/-- The read returns a whole record, or the helper has already been replaced. -/
def Truthful (state : State) : Event → Prop
  | .read read => (∃ helper_error, read = .record helper_error) ∨ state.helper = .replaced
  | _ => True

theorem reason_names (strerror : Int → String) (call : Call) (errno : Int) :
    reason strerror ⟨call.type, errno⟩ = named call ++ strerror errno := by
  cases call <;> rfl

variable {strerror : Int → String} {state next : State}

/-- What the parent has concluded holds of the helper. -/
def Agrees (strerror : Int → String) (state : State) : Prop :=
  match state.parent with
  | .starting => state.helper = .absent
  | .reading => True
  | .closing (.record helper_error) =>
    ∃ written, state.written = some written ∧ helper_error = ⟨written.call.type, written.errno⟩
  | .closing _ | .naming | .nonblocking | .returned .session => state.helper = .replaced
  | .returned (.error text) => state.helper = .absent ∨ state.helper = .replaced ∨
      ∃ written, state.written = some written ∧ text = named written.call ++ strerror written.errno

structure Sound (strerror : Int → String) (state : State) : Prop where
  unwritten : state.helper ≠ .exiting → state.helper ≠ .dead → state.written = none
  agrees : Agrees strerror state

theorem Sound.launched (sound : Sound strerror state) : Launched strerror state := by
  have agrees := sound.agrees
  refine ⟨?_, ?_, ?_⟩
  · intro returned
    simpa only [Agrees, returned] using agrees
  · intro failed result returned
    cases result with
    | error text => exact ⟨text, rfl⟩
    | session =>
      have replaced : state.helper = .replaced := by simpa only [Agrees, returned] using agrees
      rw [replaced] at failed
      cases failed
  · intro text written returned held _
    simp only [Agrees, returned] at agrees
    rcases agrees with absent | replaced | ⟨other, found, same⟩
    · have blank := sound.unwritten (by rw [absent]; nofun) (by rw [absent]; nofun)
      rw [held] at blank
      cases blank
    · have blank := sound.unwritten (by rw [replaced]; nofun) (by rw [replaced]; nofun)
      rw [held] at blank
      cases blank
    · cases held.symm.trans found
      exact same

/-- The helper can move only between `posix_spawn` and `execvp`, and what it has
written stays. -/
private theorem helper_agrees (agrees : Agrees strerror state) (parent : next.parent = state.parent)
    (present : state.helper ≠ .absent) (running : state.helper ≠ .replaced)
    (kept : ∀ written, state.written = some written → next.written = some written) : Agrees strerror next := by
  unfold Agrees at agrees ⊢
  rw [parent]
  split at agrees
  · exact absurd agrees present
  · trivial
  · obtain ⟨written, held, same⟩ := agrees
    exact ⟨written, kept written held, same⟩
  · exact absurd agrees running
  · exact absurd agrees running
  · exact absurd agrees running
  · exact absurd agrees running
  · rcases agrees with absent | replaced | ⟨written, held, same⟩
    · exact absurd absent present
    · exact absurd replaced running
    · exact Or.inr (Or.inr ⟨written, kept written held, same⟩)

private theorem attempt_keeps (made : Bool) (call : Call) (outcome : Option Int) (helper : Helper) :
    (state.attempt made call outcome helper).parent = state.parent ∧
      (state.attempt made call outcome helper).written = state.written := by
  unfold State.attempt
  split <;> exact ⟨rfl, rfl⟩

private theorem attempt_sound (sound : Sound strerror state) {here : Helper} (current : state.helper = here)
    (present : here ≠ .absent ∧ here ≠ .replaced ∧ here ≠ .exiting ∧ here ≠ .dead)
    (made : Bool) (call : Call) (outcome : Option Int) (helper : Helper) :
    Sound strerror (state.attempt made call outcome helper) := by
  subst current
  obtain ⟨parent, written⟩ := @attempt_keeps state made call outcome helper
  have blank := sound.unwritten present.2.2.1 present.2.2.2
  refine ⟨fun _ _ => written.trans blank, helper_agrees sound.agrees parent present.1 present.2.1 ?_⟩
  intro record held
  rw [written]
  exact held

private theorem read_sound (sound : Sound strerror state) {read : Read} (readable : state.Readable read)
    (truthful : Truthful state (.read read)) : Sound strerror { state with parent := .closing read } := by
  refine ⟨sound.unwritten, ?_⟩
  cases read with
  | record helper_error =>
    obtain ⟨written, held, _, same⟩ := readable
    exact ⟨written, held, same⟩
  | short _ | eof | interrupted => exact truthful.resolve_left nofun

private theorem close_sound (sound : Sound strerror state) (taken : state.step strerror .close = some next) :
    Sound strerror next := by
  have agrees := sound.agrees
  simp only [State.step] at taken
  split at taken
  next helper_error parent =>
    cases taken
    simp only [Agrees, parent] at agrees
    obtain ⟨written, held, rfl⟩ := agrees
    exact ⟨sound.unwritten, Or.inr (Or.inr ⟨written, held, reason_names strerror written.call written.errno⟩)⟩
  next read whole parent =>
    cases taken
    refine ⟨sound.unwritten, ?_⟩
    cases read with
    | record helper_error => exact absurd rfl (whole helper_error)
    | short _ | eof | interrupted => simpa only [Agrees, parent] using agrees
  next => cases taken

theorem step_sound {event : Event} (sound : Sound strerror state) (truthful : Truthful state event)
    (taken : state.step strerror event = some next) : Sound strerror next := by
  have agrees := sound.agrees
  cases event with
  | posix_spawn outcome =>
    cases outcome <;> simp only [State.step] at taken <;> split at taken <;> cases taken <;>
      simp only [Agrees, *] at agrees
    · exact ⟨fun _ _ => sound.unwritten (by rw [agrees]; nofun) (by rw [agrees]; nofun), trivial⟩
    · exact ⟨sound.unwritten, Or.inl agrees⟩
  | read read =>
    simp only [State.step] at taken
    split at taken <;> cases taken
    next condition => exact read_sound sound condition.2 truthful
  | close => exact close_sound sound taken
  | ptsname outcome =>
    simp only [State.step] at taken
    split at taken <;> cases taken
    simp only [Agrees, *] at agrees
    cases outcome with
    | none => exact ⟨sound.unwritten, agrees⟩
    | some _ => exact ⟨sound.unwritten, Or.inr (Or.inl agrees)⟩
  | pty_nonblock outcome =>
    simp only [State.step] at taken
    split at taken <;> cases taken
    simp only [Agrees, *] at agrees
    cases outcome with
    | none => exact ⟨sound.unwritten, agrees⟩
    | some _ => exact ⟨sound.unwritten, Or.inr (Or.inl agrees)⟩
  | ioctl outcome =>
    simp only [State.step] at taken
    split at taken <;> cases taken
    next here =>
      have blank := sound.unwritten (by rw [here]; nofun) (by rw [here]; nofun)
      exact ⟨fun _ _ => blank, helper_agrees agrees rfl (by rw [here]; nofun) (by rw [here]; nofun) fun _ held => held⟩
  | chdir outcome | setuid outcome | setgid outcome | execvp outcome =>
    simp only [State.step] at taken
    split at taken <;> cases taken
    next here => exact attempt_sound sound here ⟨nofun, nofun, nofun, nofun⟩ _ _ _ _
  | write bytes =>
    simp only [State.step] at taken
    split at taken <;> try contradiction
    next call errno here =>
    have blank := sound.unwritten (by rw [here]; nofun) (by rw [here]; nofun)
    have moved (written : Option Written) : Sound strerror { state with helper := .exiting, written } := by
      refine ⟨fun exiting _ => absurd rfl exiting, ?_⟩
      exact helper_agrees agrees rfl (by rw [here]; nofun) (by rw [here]; nofun) fun _ held =>
        nomatch blank.symm.trans held
    split at taken
    · cases taken
      exact moved state.written
    · split at taken <;> cases taken
      exact moved _
  | exit =>
    simp only [State.step] at taken
    split at taken <;> cases taken
    next here =>
      exact ⟨fun _ dead => absurd rfl dead,
        helper_agrees agrees rfl (by rw [here]; nofun) (by rw [here]; nofun) fun _ held => held⟩
  | signal =>
    simp only [State.step] at taken
    split at taken <;> cases taken
    next running =>
      refine ⟨fun _ dead => absurd rfl dead, helper_agrees agrees rfl ?_ ?_ fun _ held => held⟩
      · intro absent
        rw [absent] at running
        cases running
      · intro replaced
        rw [replaced] at running
        cases running

theorem start_sound (request : Request) : Sound strerror { request } := ⟨fun _ _ => rfl, rfl⟩

/-- Once a read has misled the parent, its other calls need only succeed. -/
private theorem misled (strerror : Int → String) {read : Read} (whole : ∀ helper_error, read ≠ .record helper_error)
    (state : State) (parent : state.parent = .closing read) :
    exec (State.step strerror) state [.close, .ptsname none, .pty_nonblock none] =
      some { state with parent := .returned .session } := by
  cases read with
  | record helper_error => exact absurd rfl (whole helper_error)
  | short _ | eof | interrupted => simp [exec, State.step, parent]

/-- The protocol keeps its promise in every run whose reads are truthful, and after any
other read the parent can go on to return a session for a helper that is not running
the program. -/
theorem launched_if_truthful (strerror : Int → String) (request : Request) :
    (∀ events, Along (State.step strerror) Truthful { request } events →
      Always (State.step strerror) (Launched strerror) { request } events) ∧
    ∀ events state event next, exec (State.step strerror) { request } events = some state →
      state.step strerror event = some next → ¬ Truthful state event →
      ¬ Always (State.step strerror) (Launched strerror) { request }
        (events ++ [event, .close, .ptsname none, .pty_nonblock none]) := by
  refine ⟨?_, ?_⟩
  · intro events truthful
    have sound : Always (State.step strerror) (Sound strerror) { request } events :=
      Always.of_along (fun _ _ _ => step_sound) (start_sound request) truthful
    exact sound.mono fun _ => Sound.launched
  · intro events state event next reached taken misleading always
    cases event with
    | read read =>
      simp only [Truthful, not_or, not_exists] at misleading
      obtain ⟨whole, running⟩ := misleading
      simp only [State.step] at taken
      split at taken <;> cases taken
      next readable =>
      have stepped : state.step strerror (.read read) = some { state with parent := .closing read } := if_pos readable
      have final : exec (State.step strerror) { request }
          (events ++ [.read read, .close, .ptsname none, .pty_nonblock none]) =
            some { state with parent := .returned .session } := by
        rw [exec_append, reached, Option.bind_some, exec_cons _ _ stepped]
        exact misled strerror whole { state with parent := .closing read } rfl
      exact running ((always.final final).success rfl)
    | _ => exact misleading trivial

def plainLaunch : List Event :=
  [.posix_spawn none, .ioctl none, .chdir none, .setuid none, .setgid none, .execvp none, .read .eof, .close,
    .ptsname none, .pty_nonblock none]

theorem plain_launch_succeeds :
    Always (State.step fun _ => "") (Launched fun _ => "") { request := ⟨[], 0, 0⟩ } plainLaunch := by
  apply (launched_if_truthful (fun _ => "") ⟨[], 0, 0⟩).1
  refine .cons rfl trivial <| .cons rfl trivial <| .cons rfl trivial <| .cons rfl trivial <| .cons rfl trivial <|
    .cons rfl trivial <| .cons rfl (Or.inr rfl) ?_
  exact .cons rfl trivial <| .cons rfl trivial <| .cons rfl trivial along_nil

/-- `TIOCSCTTY` fails, so the helper exits without a record. -/
def noTerminal : List Event :=
  [.posix_spawn none, .ioctl (some 1), .read .eof, .close, .ptsname none, .pty_nonblock none]

theorem no_terminal_returns_session :
    ∃ final, exec (State.step fun _ => "EPERM") { request := ⟨[], 0, 0⟩ } noTerminal = some final ∧
      final.parent = .returned .session ∧ final.helper = .dead ∧
      ¬ Always (State.step fun _ => "EPERM") (Launched fun _ => "EPERM") { request := ⟨[], 0, 0⟩ } noTerminal := by
  refine ⟨_, rfl, rfl, rfl, ?_⟩
  intro always
  cases (always.final rfl).success rfl

end ExPTY.Proofs.LaunchProtocol
