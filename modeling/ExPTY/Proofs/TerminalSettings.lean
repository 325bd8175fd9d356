import ExPTY.Proofs.TerminalRuns

/-! The settings after any number of successful changes. Pausing and resuming own two bits
of `c_iflag`, `set_echo` owns five of `c_lflag`, and each call sets or clears all that
it owns. No call records what was there before, so a resume undoes a pause only
where the pause found its bits clear. -/

namespace ExPTY.Proofs.TerminalSettings
open NativeCalls Runs Terminal TerminalRuns
open Termios (Header Change)
open Server (Binary Reply Request Nif.Call)

section Words
variable {width : Nat} (flags : BitVec width)

/-- A word with all of the flags set or all of them clear. -/
def put (set : Bool) (word : BitVec width) : BitVec width := if set then word ||| flags else word &&& ~~~flags

theorem put_in (set : Bool) (word : BitVec width) : put flags set word &&& flags = if set then flags else 0 := by
  cases set with
  | true => exact Termios.or_and_within (BitVec.and_self) word
  | false => exact Termios.and_not_within (BitVec.and_self) word

theorem put_out (set : Bool) (word : BitVec width) : put flags set word &&& ~~~flags = word &&& ~~~flags := by
  ext index bound
  cases set <;> cases held : flags[index] <;> simp [put, held]

theorem put_put (first second : Bool) (word : BitVec width) :
    put flags second (put flags first word) = put flags second word := by
  ext index bound
  cases first <;> cases second <;> cases held : flags[index] <;> simp [put, held]

theorem put_false_eq_iff (word : BitVec width) : put flags false word = word ↔ word &&& flags = 0 := by
  constructor
  · intro same
    rw [← same]
    exact put_in flags false word
  · intro clear
    ext index bound
    have bit : (word[index] && flags[index]) = false := by
      rw [← BitVec.getElem_and, clear]
      simp
    cases held : flags[index] with
    | true =>
      rw [held, Bool.and_true] at bit
      simp [put, held, bit]
    | false => simp [put, held]

end Words

variable {header : Header}

/-- The bits of `c_iflag` that pausing and resuming change. -/
def flow_flags (header : Header) : BitVec header.width := header.IXON ||| header.IXOFF

section NormalForm

def flow? : Change → Option Bool
  | .pause => some true
  | .resume => some false
  | .set_echo _ => none

def echo? : Change → Option Bool
  | .set_echo echo => some echo
  | _ => none

/-- What the last change of a group of flags made of them. -/
def last (group : Change → Option Bool) (changes : List Change) : Option Bool := (changes.filterMap group).getLast?

def settle (flags : BitVec header.width) (set : Option Bool) (word : BitVec header.width) : BitVec header.width :=
  match set with
  | some set => put flags set word
  | none => word

/-- The settings with the two groups of bits as the last changes left them. -/
def normal (settings : Termios.T header) (changes : List Change) : Termios.T header :=
  { settings with
    c_iflag := settle (flow_flags header) (last flow? changes) settings.c_iflag
    c_lflag := settle header.echo_flags (last echo? changes) settings.c_lflag }

theorem last_cons (group : Change → Option Bool) (change : Change) (rest : List Change) :
    last group (change :: rest) = (last group rest).or (group change) := by
  cases said : group change with
  | none => simp [last, said]
  | some set =>
    simp only [last, List.filterMap_cons, said, List.getLast?_cons]
    cases (rest.filterMap group).getLast? <;> rfl

theorem settle_settle (flags : BitVec header.width) (first second : Option Bool) (word : BitVec header.width) :
    settle flags second (settle flags first word) = settle flags (second.or first) word := by
  cases second with
  | none => rfl
  | some second =>
    cases first with
    | none => rfl
    | some first => exact put_put flags first second word

theorem apply_eq (settings : Termios.T header) (change : Change) :
    change.apply settings =
      { settings with
        c_iflag := settle (flow_flags header) (flow? change) settings.c_iflag
        c_lflag := settle header.echo_flags (echo? change) settings.c_lflag } := by
  rcases change with _ | _ | echo
  · rfl
  · rfl
  · cases echo <;> rfl

theorem foldl_apply (settings : Termios.T header) (changes : List Change) :
    changes.foldl Change.apply settings = normal settings changes := by
  induction changes generalizing settings with
  | nil => rfl
  | cons change rest ih =>
    rw [List.foldl_cons, ih, apply_eq]
    simp only [normal, settle_settle, last_cons]

end NormalForm

section Runs

def asked : Request → Option Change
  | .pause => some .pause
  | .resume => some .resume
  | .set_echo echo? => some (.set_echo echo?)
  | _ => none

def Succeeded (world : World header) : Prop :=
  ∃ entry call, world.log.getLast? = some entry ∧ entry.native = [(call, .ok)]

/-- A run of requests for these changes, all of them successful. -/
inductive Settles : World header → List Change → World header → Prop where
  | nil (world : World header) : Settles world [] world
  | cons {world next final : World header} {event : Event} {change : Change} {rest : List Change}
      (asks : asked event.request = some change) (taken : world.step event = some next) (succeeded : Succeeded next)
      (later : Settles next rest final) : Settles world (change :: rest) final

/-- Such a run on an open session took the first settings to the second ones. -/
def After (settings : Termios.T header) (changes : List Change) (settled : Termios.T header) : Prop :=
  ∃ world final : World header, Open world.session ∧ world.tty.settings = settings ∧ Settles world changes final ∧
    final.tty.settings = settled

variable {world next : World header} {event : Event} {change : Change}

private theorem issued_asked (world : World header) (asks : asked event.request = some change) :
    ∃ call, issued world.session event.request = some call ∧ change? call = some change := by
  cases request : event.request <;> rw [request] at asks <;> cases asks <;> exact ⟨_, rfl, rfl⟩

private theorem step_asked (ready : Open world.session) (taken : world.step event = some next)
    (asks : asked event.request = some change) (succeeded : Succeeded next) :
    next.tty.settings = change.apply world.tty.settings := by
  obtain ⟨call, issues, changes⟩ := issued_asked world asks
  obtain ⟨_, ⟨none, _, _⟩ | ⟨other, result, same, returned, reply, log⟩⟩ := step_cases ready taken
  · rw [issues] at none
    cases none
  · cases issues.symm.trans same
    obtain ⟨id, handle⟩ := ready.issued issues
    obtain ⟨entry, native, last, ok⟩ := succeeded
    rw [log, List.getLast?_append, List.getLast?_singleton] at last
    cases last
    cases ok
    exact (native_change changes handle returned).applied

theorem settles_eq {final : World header} {changes : List Change} (ready : Open world.session)
    (settles : Settles world changes final) : final.tty.settings = normal world.tty.settings changes := by
  rw [← foldl_apply]
  induction settles with
  | nil world => rfl
  | cons asks taken succeeded later ih =>
    rw [ih (step_open ready taken), step_asked ready taken asks succeeded, List.foldl_cons]

private theorem after_eq {settings settled : Termios.T header} {changes : List Change}
    (after : After settings changes settled) : settled = normal settings changes := by
  obtain ⟨world, final, ready, rfl, settles, rfl⟩ := after
  exact settles_eq ready settles

end Runs

section Laws

/-- The groups of flags as the last calls for them left them, all the rest as it was. -/
structure Settled (settings : Termios.T header) (changes : List Change) (settled : Termios.T header) : Prop where
  echo : settled.c_lflag &&& header.echo_flags =
    match last echo? changes with
    | some echo => if echo then header.echo_flags else 0
    | none => settings.c_lflag &&& header.echo_flags
  flow : settled.c_iflag &&& flow_flags header =
    match last flow? changes with
    | some paused => if paused then flow_flags header else 0
    | none => settings.c_iflag &&& flow_flags header
  c_iflag : settled.c_iflag &&& ~~~flow_flags header = settings.c_iflag &&& ~~~flow_flags header
  c_lflag : settled.c_lflag &&& ~~~header.echo_flags = settings.c_lflag &&& ~~~header.echo_flags
  c_oflag : settled.c_oflag = settings.c_oflag
  c_cflag : settled.c_cflag = settings.c_cflag
  c_cc : settled.c_cc = settings.c_cc

theorem settle_in (flags : BitVec header.width) (set : Option Bool) (word : BitVec header.width) :
    settle flags set word &&& flags =
      match set with
      | some set => if set then flags else 0
      | none => word &&& flags := by
  cases set with
  | none => rfl
  | some set => exact put_in flags set word

theorem settle_out (flags : BitVec header.width) (set : Option Bool) (word : BitVec header.width) :
    settle flags set word &&& ~~~flags = word &&& ~~~flags := by
  cases set with
  | none => rfl
  | some set => exact put_out flags set word

private theorem settled_normal (settings : Termios.T header) (changes : List Change) :
    Settled settings changes (normal settings changes) :=
  ⟨settle_in _ _ _, settle_in _ _ _, settle_out _ _ _, settle_out _ _ _, rfl, rfl, rfl⟩

/-- The two flag sets of the source, the one of `expty_spawn` and the one of `expty_set_echo`. -/
private theorem c_lflag_spawned (is_utf8 echo : Bool) (ibaudrate obaudrate : Int) :
    (header.spawned is_utf8 echo ibaudrate obaudrate).c_lflag =
      put header.echo_flags echo (header.ICANON ||| header.ISIG ||| header.IEXTEN) := by
  cases echo with
  | true => rfl
  | false => exact ((put_false_eq_iff _ _).mpr (Termios.echo_flags_disjoint header)).symm

theorem set_echo_spawned (is_utf8 echo echo' : Bool) (ibaudrate obaudrate : Int) :
    (Change.set_echo echo').apply (header.spawned is_utf8 echo ibaudrate obaudrate) =
      header.spawned is_utf8 echo' ibaudrate obaudrate := by
  have lflag : put header.echo_flags echo' (header.spawned is_utf8 echo ibaudrate obaudrate).c_lflag =
      (header.spawned is_utf8 echo' ibaudrate obaudrate).c_lflag := by
    rw [c_lflag_spawned, put_put, c_lflag_spawned]
  rw [apply_eq]
  simp only [settle, flow?, echo?, lflag]
  rfl

/-- Every run of successful changes leaves the settings in normal form. So `set_echo` commutes
with the other two, no call does more when it is repeated, and `set_echo` gives what
`expty_spawn` installs with the same echo. -/
theorem settings_normal_form :
    (∀ (settings settled : Termios.T header) (changes : List Change), After settings changes settled →
      Settled settings changes settled) ∧
    (∀ (settings first second : Termios.T header) (echo : Bool) (flow : Change), flow = .pause ∨ flow = .resume →
      After settings [.set_echo echo, flow] first → After settings [flow, .set_echo echo] second → first = second) ∧
    (∀ (settings once twice : Termios.T header) (change : Change), After settings [change] once →
      After settings [change, change] twice → once = twice) ∧
    ∀ (is_utf8 echo echo' : Bool) (ibaudrate obaudrate : Int) (settled : Termios.T header),
      After (header.spawned is_utf8 echo ibaudrate obaudrate) [.set_echo echo'] settled →
        settled = header.spawned is_utf8 echo' ibaudrate obaudrate := by
  refine ⟨?_, ?_, ?_, ?_⟩
  · intro settings settled changes after
    rw [after_eq after]
    exact settled_normal settings changes
  · intro settings first second echo flow paused before after
    rw [after_eq before, after_eq after]
    obtain rfl | rfl := paused <;> rfl
  · intro settings once twice change first second
    have same (group : Change → Option Bool) : last group [change] = last group [change, change] := by
      simp only [last_cons]
      cases group change <;> rfl
    rw [after_eq first, after_eq second, normal, normal, same, same]
  · intro is_utf8 echo echo' ibaudrate obaudrate settled after
    rw [after_eq after, ← foldl_apply]
    exact set_echo_spawned is_utf8 echo echo' ibaudrate obaudrate

def installed (echo : Bool) : Termios.T Header.linux := Header.linux.spawned true echo 38400 38400

private theorem after_two (first second : Request) (change change' : Change) (asks : asked first = some change)
    (asks' : asked second = some change')
    (runs : ∃ middle final, terminal.step ⟨first, willing⟩ = some middle ∧ Succeeded middle ∧
      middle.step ⟨second, willing⟩ = some final ∧ Succeeded final) :
    ∃ settled, After (installed false) [change, change'] settled := by
  obtain ⟨middle, final, taken, succeeded, taken', succeeded'⟩ := runs
  exact ⟨_, terminal, final, open_spawned shell 0 1 [] (installed false), rfl,
    .cons asks taken succeeded (.cons asks' taken' succeeded' (.nil final)), rfl⟩

private theorem after_one (first : Request) (change : Change) (asks : asked first = some change)
    (runs : ∃ final, terminal.step ⟨first, willing⟩ = some final ∧ Succeeded final) :
    ∃ settled, After (installed false) [change] settled := by
  obtain ⟨final, taken, succeeded⟩ := runs
  exact ⟨_, terminal, final, open_spawned shell 0 1 [] (installed false), rfl,
    .cons asks taken succeeded (.nil final), rfl⟩

theorem settings_settle_after_spawn :
    (∃ settled, Settled (installed false) [.set_echo true] settled ∧ settled = installed true) ∧
      (∃ once, After (installed false) [.pause, .pause] once ∧ After (installed false) [.pause] once) ∧
        ∃ settled, After (installed false) [.set_echo true, .pause] settled ∧ After (installed false) [.pause, .set_echo true] settled := by
  obtain ⟨echoed, echo⟩ := after_one (.set_echo true) (.set_echo true) rfl ⟨_, rfl, _, _, rfl, rfl⟩
  obtain ⟨paused, once⟩ := after_one .pause .pause rfl ⟨_, rfl, _, _, rfl, rfl⟩
  obtain ⟨again, twice⟩ := after_two .pause .pause .pause .pause rfl rfl ⟨_, _, rfl, ⟨_, _, rfl, rfl⟩, rfl, _, _, rfl, rfl⟩
  obtain ⟨first, before⟩ := after_two (.set_echo true) .pause (.set_echo true) .pause rfl rfl
    ⟨_, _, rfl, ⟨_, _, rfl, rfl⟩, rfl, _, _, rfl, rfl⟩
  obtain ⟨second, after⟩ := after_two .pause (.set_echo true) .pause (.set_echo true) rfl rfl
    ⟨_, _, rfl, ⟨_, _, rfl, rfl⟩, rfl, _, _, rfl, rfl⟩
  obtain ⟨normal, commutes, idempotent, spawned⟩ := @settings_normal_form Header.linux
  refine ⟨⟨echoed, normal _ _ _ echo, spawned true false true 38400 38400 _ echo⟩, ⟨again, twice, ?_⟩, first, before, ?_⟩
  · rw [← idempotent _ paused again .pause once twice]
    exact once
  · rw [commutes _ first second true .pause (.inl rfl) before after]
    exact after

end Laws

section Inverse

/-- The bits of `c_iflag` that no call changes. -/
def rest (settings : Termios.T header) : BitVec header.width := settings.c_iflag &&& ~~~flow_flags header

theorem rest_apply (settings : Termios.T header) (change : Change) : rest (change.apply settings) = rest settings := by
  rw [apply_eq]
  exact settle_out _ _ _

private theorem step_rest {world next : World header} {event : Event} (ready : Open world.session)
    (taken : world.step event = some next) : rest next.tty.settings = rest world.tty.settings := by
  obtain same | ⟨change, applied⟩ := step_settings ready taken
  · rw [same]
  · rw [applied, rest_apply]

private theorem run_rest {world final : World header} {events : List Event} (ready : Open world.session)
    (ran : exec World.step world events = some final) :
    Open final.session ∧ rest final.tty.settings = rest world.tty.settings := by
  have always : Always World.step (fun state => Open state.session ∧ rest state.tty.settings = rest world.tty.settings)
      world events := by
    apply Always.of_invariant
    · intro state event next ⟨stays, same⟩ taken
      exact ⟨step_open stays taken, (step_rest stays taken).trans same⟩
    · exact ⟨ready, rfl⟩
  exact always.final ran

/-- A successful resume gives back the `c_iflag` from before the pause exactly when the pause
found both of its bits clear, whatever calls were made in between. -/
theorem pause_resume_iff {world paused middle resumed : World header} {answers answers' : List Answer}
    {between : List Event} (ready : Open world.session) (pauses : world.step ⟨.pause, answers⟩ = some paused)
    (ran : exec World.step paused between = some middle) (resumes : middle.step ⟨.resume, answers'⟩ = some resumed)
    (succeeded : Succeeded resumed) :
    resumed.tty.settings.c_iflag = world.tty.settings.c_iflag ↔
      world.tty.settings.c_iflag &&& flow_flags header = 0 := by
  obtain ⟨stays, same⟩ := run_rest (step_open ready pauses) ran
  have cleared : resumed.tty.settings.c_iflag = put (flow_flags header) false world.tty.settings.c_iflag := by
    rw [step_asked stays resumes rfl succeeded]
    exact same.trans (step_rest ready pauses)
  rw [cleared, put_false_eq_iff]

/-- A session that somebody has taken software flow control away from. -/
def raw : World Header.linux := .spawned shell 0 1 [] { Header.linux.spawned true false 38400 38400 with c_iflag := 0x100 }

def calls : List Event := [⟨.write [108], willing⟩, ⟨.set_echo true, willing⟩, ⟨.resize 100 40, willing⟩]

theorem pause_resume_raw :
    ∃ paused middle resumed : World Header.linux, raw.step ⟨.pause, willing⟩ = some paused ∧
      exec World.step paused calls = some middle ∧ middle.step ⟨.resume, willing⟩ = some resumed ∧
        resumed.tty.settings.c_iflag = raw.tty.settings.c_iflag := by
  have isOpen : Open raw.session := open_spawned shell 0 1 [] _
  have runs : ∃ paused middle resumed, raw.step ⟨.pause, willing⟩ = some paused ∧ exec World.step paused calls = some middle ∧
      middle.step ⟨.resume, willing⟩ = some resumed ∧ Succeeded resumed :=
    ⟨_, _, _, rfl, rfl, rfl, _, _, rfl, rfl⟩
  obtain ⟨paused, middle, resumed, pauses, ran, resumes, succeeded⟩ := runs
  have clear : raw.tty.settings.c_iflag &&& flow_flags Header.linux = 0 := by decide
  exact ⟨paused, middle, resumed, pauses, ran, resumes,
    (pause_resume_iff isOpen pauses ran resumes succeeded).mpr clear⟩

/-- On what `expty_spawn` installs, the resume takes away the IXON that the pause found. -/
theorem resume_drops_ixon :
    ∃ paused resumed : World Header.linux, terminal.step ⟨.pause, willing⟩ = some paused ∧ Succeeded paused ∧
      paused.step ⟨.resume, willing⟩ = some resumed ∧ Succeeded resumed ∧
        terminal.tty.settings.c_iflag = 0x6d02 ∧ resumed.tty.settings.c_iflag = 0x6902 :=
  ⟨_, _, rfl, ⟨_, _, rfl, rfl⟩, rfl, ⟨_, _, rfl, rfl⟩, by decide, by decide⟩

end Inverse

end ExPTY.Proofs.TerminalSettings
