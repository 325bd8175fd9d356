import ExPTY.Start
import ExPTY.WindowSize

/-! Which sizes reach the terminal as they are. The calls compare an `int` with zero and
then keep 16 bits of it, so that a size passes that the terminal has no numbers for. -/

namespace ExPTY.Proofs.WindowSizes
open Elixir (Keyword Value)
open Handover (accepts)
open NativeCalls (Call Errno expty_resize ioctl_reply is_int with_resource)
open Server (OsType Reply T Term handle_call)
open Start (Answers Handled Native Pack init init_unix init_win32 spawn)
open Termios (Header)
open WindowSize

/-- The call is answered with an error and the size is as it was before, or the terminal
was given the size that was asked for. -/
def Kept (before : Option Size) (asked : Size) (outcome : Outcome) : Prop :=
  (outcome.answer.refused = true ∧ outcome.size = before) ∨ outcome.handed = some asked

def before (system : System) (request : Request) : Option Size := if request.isSpawn then none else system.size

/-- Both numbers fit the fields of the platform. -/
def Fits : OsType → Size → Prop
  | .unix, size => size.cols ≤ 65535 ∧ size.rows ≤ 65535
  | .win32, size => size.cols ≤ 32767 ∧ size.rows ≤ 32767

/-- Nothing stops the call with an error. A spawn on Windows that is given no `int` is not
stopped: it goes on with a result that it has not got. -/
def Passes (system : System) : Request → Prop
  | .spawn_unix request => accepts request ∧ system.openpty = true ∧ system.rest = none
  | .spawn_win32 file cols rows =>
    is_int cols ∧ is_int rows →
      (∃ shellpath, ShellPath.expty_spawn system.host file = .ok shellpath) ∧ system.CreatePseudoConsole = true ∧
        system.rest = none
  | .resize session cols rows =>
    match session.os_type with
    | .unix => (∃ id, session.pipesocket = .reference id) ∧ is_int cols ∧ is_int rows ∧ system.TIOCSWINSZ = none
    | .win32 =>
      (∃ pty_id ∈ system.ptyHandles, is_int pty_id ∧ session.pty = .integer pty_id) ∧ is_int cols ∧ is_int rows ∧
        system.LoadLibraryExW = true ∧ system.GetProcAddress = true

private theorem unsigned_eq_iff {value : Int} (positive : 0 < value) :
    ((BitVec.ofInt 16 value).toNat : Int) = value ↔ value ≤ 65535 := by
  rw [BitVec.toNat_ofInt]
  omega

private theorem signed_eq_iff {value : Int} (positive : 0 < value) : (BitVec.ofInt 16 value).toInt = value ↔ value ≤ 32767 := by
  rw [BitVec.toInt_ofInt]
  change Int.bmod value 0x10000 = value ↔ value ≤ 32767
  constructor
  · intro same
    have below : Int.bmod value 0x10000 < ((0x10000 : Nat) + 1) / 2 := Int.bmod_lt (by omega)
    omega
  · intro small
    apply Int.bmod_eq_of_le <;> omega

private theorem winsize_eq_iff {cols rows : Int} (cols_positive : 0 < cols) (rows_positive : 0 < rows) :
    winsize ⟨.ofInt 16 cols, .ofInt 16 rows⟩ = ⟨cols, rows⟩ ↔ Fits .unix ⟨cols, rows⟩ := by
  rw [winsize, Size.mk.injEq, unsigned_eq_iff cols_positive, unsigned_eq_iff rows_positive, Fits]

private theorem coord_eq_iff {cols rows : Int} (cols_positive : 0 < cols) (rows_positive : 0 < rows) :
    Coord.size ⟨.ofInt 16 cols, .ofInt 16 rows⟩ = ⟨cols, rows⟩ ↔ Fits .win32 ⟨cols, rows⟩ := by
  rw [Coord.size, Size.mk.injEq, signed_eq_iff cols_positive, signed_eq_iff rows_positive, Fits]

private theorem fits_int {os_type : OsType} {size : Size} (fits : Fits os_type size) (cols_positive : 0 < size.cols)
    (rows_positive : 0 < size.rows) : is_int size.cols ∧ is_int size.rows := by
  cases os_type with
  | unix =>
    obtain ⟨cols, rows⟩ := fits
    refine ⟨⟨?_, ?_⟩, ?_, ?_⟩ <;> omega
  | win32 =>
    obtain ⟨cols, rows⟩ := fits
    refine ⟨⟨?_, ?_⟩, ?_, ?_⟩ <;> omega

section Calls
variable (system : System)

private theorem kept_refused {size : Option Size} {asked : Size} {answer : Answer} {handed : Option Size}
    (refused : answer.refused = true) : Kept size asked { answer, handed, size } :=
  .inl ⟨refused, rfl⟩

/-- A spawn that has its terminal gives it the size, and is answered with an error or not. -/
private theorem kept_opened (size asked : Size) :
    Kept none asked (system.opened size) ↔ (system.rest = none → size = asked) := by
  unfold System.opened
  cases system.rest with
  | none => simp [Kept, Answer.refused]
  | some reason =>
    refine iff_of_true (kept_refused rfl) ?_
    intro impossible
    cases impossible

private theorem spawn_unix_kept (request : Server.SpawnUnix) (cols_positive : 0 < request.cols) (rows_positive : 0 < request.rows) :
    Kept none ⟨request.cols, request.rows⟩ (System.Unix.expty_spawn system request) ↔
      (accepts request ∧ system.openpty = true ∧ system.rest = none → Fits .unix ⟨request.cols, request.rows⟩) := by
  unfold System.Unix.expty_spawn
  split
  next accepted =>
    simp only [accepted, true_and]
    cases system.openpty with
    | true =>
      simp only [if_true, true_and]
      rw [kept_opened, winsize_eq_iff cols_positive rows_positive]
    | false => simpa using kept_refused rfl
  next rejected =>
    refine iff_of_true (kept_refused rfl) ?_
    intro passes
    exact absurd passes.1 rejected

private theorem spawn_win32_kept (file : Server.Binary) {cols rows : Int} (cols_positive : 0 < cols) (rows_positive : 0 < rows) :
    Kept none ⟨cols, rows⟩ (System.Win32.expty_spawn system file cols rows) ↔
      (Passes system (.spawn_win32 file cols rows) → Fits .win32 ⟨cols, rows⟩) := by
  unfold System.Win32.expty_spawn Passes
  split
  next ints =>
    obtain ⟨cols_int, _, rows_int, _⟩ := ints
    simp only [cols_int, rows_int, and_self, forall_const]
    cases ShellPath.expty_spawn system.host file with
    | error why shellpath => simpa using kept_refused rfl
    | ok shellpath =>
      cases system.CreatePseudoConsole with
      | true =>
        rw [if_pos rfl, kept_opened, coord_eq_iff cols_positive rows_positive]
        simp
      | false => simpa using kept_refused rfl
  next others =>
    have not_ints : ¬ (is_int cols ∧ is_int rows) := fun ints => others ⟨ints.1, cols_positive, ints.2, rows_positive⟩
    have not_kept : ¬ Kept none ⟨cols, rows⟩ { answer := .undefined, size := none } := by simp [Kept, Answer.refused]
    refine iff_of_false not_kept ?_
    intro fits
    exact not_ints (fits_int (fits fun ints => absurd ints not_ints) cols_positive rows_positive)

private theorem ioctl_refused (errno : Errno) : (Answer.of (ioctl_reply (some errno))).refused = true := by
  cases errno <;> rfl

private theorem resize_unix_kept (pipesocket : Term) {cols rows : Int} (cols_positive : 0 < cols) (rows_positive : 0 < rows) :
    Kept system.size ⟨cols, rows⟩ (System.Unix.expty_resize system pipesocket cols rows) ↔
      ((∃ id, pipesocket = .reference id) ∧ is_int cols ∧ is_int rows ∧ system.TIOCSWINSZ = none →
        Fits .unix ⟨cols, rows⟩) := by
  unfold System.Unix.expty_resize
  split
  next id =>
    simp only [Term.reference.injEq, exists_eq', true_and]
    split
    next ints =>
      obtain ⟨cols_int, _, rows_int, _⟩ := ints
      simp only [cols_int, rows_int, true_and]
      cases system.TIOCSWINSZ with
      | none =>
        rw [← winsize_eq_iff cols_positive rows_positive]
        simp [Kept, Answer.of, ioctl_reply, Answer.refused]
      | some errno => simpa using kept_refused (ioctl_refused errno)
    next others =>
      refine iff_of_true (kept_refused rfl) ?_
      intro passes
      obtain ⟨cols_int, rows_int, -⟩ := passes
      exact absurd ⟨cols_int, cols_positive, rows_int, rows_positive⟩ others
  next foreign =>
    refine iff_of_true (kept_refused rfl) ?_
    intro passes
    obtain ⟨⟨id, same⟩, -⟩ := passes
    exact absurd same (foreign id)

private theorem resize_win32_kept (pty : Term) {cols rows : Int} (cols_positive : 0 < cols) (rows_positive : 0 < rows) :
    Kept system.size ⟨cols, rows⟩ (System.Win32.expty_resize system pty cols rows) ↔
      ((∃ pty_id ∈ system.ptyHandles, is_int pty_id ∧ pty = .integer pty_id) ∧ is_int cols ∧ is_int rows ∧
        system.LoadLibraryExW = true ∧ system.GetProcAddress = true → Fits .win32 ⟨cols, rows⟩) := by
  unfold System.Win32.expty_resize
  split
  next pty_id =>
    split
    next ints =>
      obtain ⟨id_int, cols_int, _, rows_int, _⟩ := ints
      split
      next unknown =>
        refine iff_of_true (kept_refused rfl) ?_
        intro passes
        obtain ⟨⟨other, member, -, same⟩, -⟩ := passes
        cases same
        exact absurd member unknown
      next known =>
        have found : ∃ other ∈ system.ptyHandles, is_int other ∧ Term.integer pty_id = .integer other :=
          ⟨pty_id, not_not.mp known, id_int, rfl⟩
        simp only [found, cols_int, rows_int, true_and]
        cases system.LoadLibraryExW with
        | false => simpa using kept_refused rfl
        | true =>
          cases system.GetProcAddress with
          | false => simpa using kept_refused rfl
          | true =>
            rw [← coord_eq_iff cols_positive rows_positive]
            simp [Kept, Answer.refused]
    next others =>
      refine iff_of_true (kept_refused rfl) ?_
      intro passes
      obtain ⟨⟨other, -, other_int, same⟩, cols_int, rows_int, -⟩ := passes
      cases same
      exact absurd ⟨other_int, cols_int, cols_positive, rows_int, rows_positive⟩ others
  next foreign =>
    refine iff_of_true (kept_refused rfl) ?_
    intro passes
    obtain ⟨⟨pty_id, -, -, same⟩, -⟩ := passes
    exact absurd same (foreign pty_id)

end Calls

section Layers

/-- The server's clause gives the native function of its platform the numbers it was given. -/
theorem resize_forwarded (answer : Server.Nif.Call → Reply) (session : T) (cols rows : Int) (system : System) :
    ∃ terminal,
      handle_call answer (.resize cols rows) session =
          some { reply := answer (.resize terminal cols rows), state := session, calls := [.resize terminal cols rows] } ∧
        system.run (.resize session cols rows) =
          match session.os_type with
          | .unix => System.Unix.expty_resize system terminal cols rows
          | .win32 => System.Win32.expty_resize system terminal cols rows := by
  simp only [handle_call, System.run]
  cases session.os_type with
  | unix => exact ⟨session.pipesocket, rfl, rfl⟩
  | win32 => exact ⟨session.pty, rfl, rfl⟩

/-- The same function with its control states asks the kernel for that size, or returns
before it asks. -/
theorem resize_call {header : Header} (system : System) (pipesocket : Term) (cols rows : Int) :
    let outcome := System.Unix.expty_resize system pipesocket cols rows
    (∃ winp, (expty_resize pipesocket cols rows : Call header) = .ioctl winp ∧
        outcome.answer = .of (ioctl_reply system.TIOCSWINSZ) ∧ outcome.handed = some (winsize winp)) ∨
      ∃ reply, (expty_resize pipesocket cols rows : Call header) = .returned reply ∧
        outcome = { answer := .of reply, size := system.size } := by
  unfold System.Unix.expty_resize expty_resize with_resource
  cases pipesocket with
  | reference id =>
    by_cases ints : is_int cols ∧ cols > 0 ∧ is_int rows ∧ rows > 0
    · refine .inl ⟨_, if_pos ints, ?_, ?_⟩ <;> rw [if_pos ints]
    · exact .inr ⟨_, if_neg ints, if_neg ints⟩
  | nil | integer _ | binary _ => exact .inr ⟨_, rfl, rfl⟩

def asks : Native → Option (Value × Value)
  | .spawn_unix _ _ _ _ cols rows .. | .spawn_win32 _ cols rows .. => some (cols, rows)
  | .connect_win32 .. => none

private theorem init_size {host : Start.Host} {file args : Value} {options : Keyword} {pack : Pack}
    (accepted : init host file args (some options) = some pack) {cols rows : Value} (cols_given : options.lookup "cols" = some cols)
    (rows_given : options.lookup "rows" = some rows) : pack.common.cols = cols ∧ pack.common.rows = rows := by
  simp only [init, Option.bind_eq_bind, Option.bind_eq_some_iff, Option.some.injEq] at accepted
  obtain ⟨defaults, -, _, rfl, cwd, -, accepted⟩ := accepted
  split at accepted
  next =>
    obtain ⟨unix, built, rfl⟩ := Option.map_eq_some_iff.mp accepted
    simp only [init_unix, Option.bind_eq_bind, Option.bind_eq_some_iff, Option.pure_def, Option.some.injEq] at built
    obtain ⟨_, -, _, -, _, -, _, -, rfl⟩ := built
    simp [Pack.common, Keyword.access_merge, cols_given, rows_given]
  next =>
    obtain ⟨win32, built, rfl⟩ := Option.map_eq_some_iff.mp accepted
    simp only [init_win32, Option.bind_eq_bind, Option.bind_eq_some_iff, Option.pure_def, Option.some.injEq] at built
    obtain ⟨_, -, rfl⟩ := built
    simp [Pack.common, Keyword.access_merge, cols_given, rows_given]

private theorem do_spawn_size (host : Start.Host) (answers : Answers) (pack : Pack) :
    ∀ call ∈ (pack.do_spawn host answers).calls, ∀ size ∈ asks call, size = (pack.common.cols, pack.common.rows) := by
  cases pack with
  | unix pack => simp [Pack.do_spawn, Start.UnixPack.do_spawn, asks, Pack.common]
  | win32 pack =>
    simp only [Pack.do_spawn, Start.Win32Pack.do_spawn]
    cases answers.spawn_win32 with
    | value given => cases Start.args_to_command_line host pack.file pack.args <;> simp [asks, Pack.common]
    | error _ | badarg => simp [asks, Pack.common]

private theorem outcome_calls (handled : Handled) : handled.outcome.calls = handled.calls := by
  unfold Handled.outcome
  split <;> rfl

theorem spawn_size {host : Start.Host} {answers : Answers} {file args : Value} {options : Keyword} {cols rows : Value}
    (cols_given : options.lookup "cols" = some cols) (rows_given : options.lookup "rows" = some rows) :
    ∀ call ∈ (spawn host answers file args (some options)).calls, ∀ size ∈ asks call, size = (cols, rows) := by
  unfold spawn
  split
  next => nofun
  next pack accepted =>
    obtain ⟨rfl, rfl⟩ := init_size accepted cols_given rows_given
    rw [outcome_calls]
    exact do_spawn_size host answers pack

end Layers

/-- A size that is asked for is kept exactly when something stops the call with an error or
both numbers fit the platform. -/
theorem sizes_kept_iff (system : System) (request : Request) (cols_positive : 0 < request.asked.cols)
    (rows_positive : 0 < request.asked.rows) :
    Kept (before system request) request.asked (system.run request) ↔
      (Passes system request → Fits request.os_type request.asked) := by
  cases request with
  | spawn_unix request => exact spawn_unix_kept system request cols_positive rows_positive
  | spawn_win32 file cols rows => exact spawn_win32_kept system file cols_positive rows_positive
  | resize session cols rows =>
    simp only [System.run, Passes, Request.os_type]
    cases session.os_type with
    | unix => exact resize_unix_kept system session.pipesocket cols_positive rows_positive
    | win32 => exact resize_win32_kept system session.pty cols_positive rows_positive

/-- A system on which nothing fails, with a terminal of 80 columns and 24 rows. -/
def willing : System :=
  { size := some ⟨80, 24⟩
    rest := none
    openpty := true
    TIOCSWINSZ := none
    host :=
      { cwd := []
        GetFileAttributesW := fun _ _ => 0x80
        PathIsRelativeW := fun _ => false
        Path := none
        stale := [] }
    ptyHandles := [1]
    LoadLibraryExW := true
    GetProcAddress := true
    CreatePseudoConsole := true
    ResizePseudoConsole := true }

def unix : T := { os_type := .unix, pipesocket := .reference 0 }

def win32 : T := { os_type := .win32, pty := .integer 1 }

theorem small_sizes_kept :
    (0 < (100 : Int) ∧ 0 < (40 : Int)) ∧
      (Kept (some ⟨80, 24⟩) ⟨100, 40⟩ (willing.run (.resize unix 100 40)) ↔
        (Passes willing (.resize unix 100 40) → Fits .unix ⟨100, 40⟩)) := by
  have cols_positive : (0 : Int) < 100 := by omega
  have rows_positive : (0 : Int) < 40 := by omega
  exact ⟨⟨cols_positive, rows_positive⟩, sizes_kept_iff willing (.resize unix 100 40) cols_positive rows_positive⟩

/-- 65536 columns become none on Unix, and 40000 a negative number on Windows. A spawn on
Windows that is asked for 2147483648 has no answer of its own. -/
theorem wide_sizes_change :
    (willing.run (.resize unix 65536 24) = { answer := .ok, handed := some ⟨0, 24⟩, size := some ⟨0, 24⟩ } ∧
        ¬ Kept (some ⟨80, 24⟩) ⟨65536, 24⟩ (willing.run (.resize unix 65536 24))) ∧
      willing.run (.resize win32 40000 24) = { answer := .ok, handed := some ⟨-25536, 24⟩, size := some ⟨-25536, 24⟩ } ∧
        ¬ Kept (some ⟨80, 24⟩) ⟨40000, 24⟩ (willing.run (.resize win32 40000 24)) ∧
        willing.run (.spawn_win32 [] 2147483648 24) = { answer := .undefined, size := none } ∧
        ¬ Kept none ⟨2147483648, 24⟩ (willing.run (.spawn_win32 [] 2147483648 24)) := by
  have unix_answer : willing.run (.resize unix 65536 24) = { answer := .ok, handed := some ⟨0, 24⟩, size := some ⟨0, 24⟩ } :=
    rfl
  have win32_answer :
      willing.run (.resize win32 40000 24) = { answer := .ok, handed := some ⟨-25536, 24⟩, size := some ⟨-25536, 24⟩ } :=
    rfl
  have spawn_answer : willing.run (.spawn_win32 [] 2147483648 24) = { answer := .undefined, size := none } := rfl
  rw [unix_answer, win32_answer, spawn_answer]
  refine ⟨⟨rfl, ?_⟩, rfl, ?_, rfl, ?_⟩ <;> simp [Kept, Answer.refused]

end ExPTY.Proofs.WindowSizes
