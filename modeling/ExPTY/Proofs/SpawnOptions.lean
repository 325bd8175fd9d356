import ExPTY.Proofs.FaithfulHandover
import ExPTY.Proofs.TermDecoding
import ExPTY.SpawnPath

/-! What a Unix spawn starts, from the options of its caller to the ids, the folder, the
arguments and the environment of the program. Every setting is the caller's or else the
default, every text arrives as its C string, and every number as itself. -/

namespace ExPTY.Proofs.SpawnOptions
open Decimal Elixir SpawnPath Start
open Handover (Platform envs_c received strdup to_string)
open NativeCalls (is_int)
open NifTerms (Locals Terms truth)
open Server (Binary)
open TermDecoding

/-- An option of the caller, or else the default. -/
def setting (defaults given : Keyword) (key : String) : Value := ((given.lookup key).or (defaults.lookup key)).getD .nil

variable {maps : Nat → Option (List (Value × Value))} {platform : Platform} {host : Host}

/-- What the settings stand for, in the variables of the native spawn. -/
structure Asked (maps : Nat → Option (List (Value × Value))) (host : Host) (option : String → Value) (file args : Value)
    (locals : Locals) : Prop where
  file : Text (file.or (.text "sh")) locals.file
  args : Texts (args.or .empty) locals.args
  envs : ∃ id pairs, option "env" = .other id ∧ maps id = some pairs ∧ Entries pairs locals.envs
  cwd : host.expand (option "cwd") = some locals.cwd
  cols : Number (option "cols") locals.cols ∧ locals.cols > 0
  rows : Number (option "rows") locals.rows ∧ locals.rows > 0
  ibaudrate : Number ((option "ibaudrate").or (.integer 38400)) locals.ibaudrate ∧ locals.ibaudrate ≥ 0
  obaudrate : Number ((option "obaudrate").or (.integer 38400)) locals.obaudrate ∧ locals.obaudrate ≥ 0
  uid : Number ((option "uid").or (.integer (-2))) locals.uid
  gid : Number ((option "gid").or (.integer (-2))) locals.gid
  is_utf8 : locals.is_utf8 = decide (option "encoding" = .text "utf-8")
  closeFDs : Truth ((option "closeFDs").or (.atom "false")) locals.closeFDs
  echo : Truth ((option "echo?").or (.atom "false")) locals.echo
  helper_path : host.helper_path = some locals.helper_path
  -- what `init` looks at for the session
  handle_flow_control : ((option "handle_flow_control").or (.atom "false")).boolean?.isSome
  flow_control_pause : ((option "flow_control_pause").or (.binary [0x13])).binary?.isSome
  flow_control_resume : ((option "flow_control_resume").or (.binary [0x11])).binary?.isSome

/-- The program with these variables. -/
def run (platform : Platform) (locals : Locals) : Started :=
  { chdir := if (strdup locals.cwd).length ≠ 0 then some (strdup locals.cwd) else none
    uid := if locals.uid = -2 then platform.getuid else locals.uid
    gid := if locals.gid = -2 then platform.getgid else locals.gid
    closeFDs := locals.closeFDs && !platform.HAVE_POSIX_SPAWN_CLOEXEC_DEFAULT
    file := strdup locals.file
    argv := strdup locals.file :: locals.args.map strdup
    environ := locals.envs.map strdup }

section Helper

private theorem read_number {value : Int} (int : is_int value) : stoi (is_int ·) (strdup (to_string value)) = some value := by
  have whole : strdup (to_string value) = format value := FaithfulHandover.strdup_eq_self.mpr (zero_not_mem_format value)
  rw [whole]
  exact stoi_format (decide_eq_true int)

private theorem read_own {own value : Int} (mine : is_int own) (int : is_int value) :
    stoi (is_int ·) (strdup (to_string (if value = -2 then own else value))) = some (if value = -2 then own else value) := by
  apply read_number
  split
  · exact mine
  · exact int

private theorem read_flag (closes : Bool) :
    ∃ number, stoi (is_int ·) (strdup (if closes then [0x31] else [0x30])) = some number ∧ decide (number ≠ 0) = closes := by
  cases closes with
  | false => exact ⟨0, by decide, rfl⟩
  | true => exact ⟨1, by decide, rfl⟩

/-- The numbers survive their way through the helper's arguments. -/
theorem main_launch {locals : Locals} (uid : is_int platform.getuid) (gid : is_int platform.getgid) (user : is_int locals.uid)
    (group : is_int locals.gid) : (locals.launch platform).bind main = some (run platform locals) := by
  have vector := FaithfulHandover.received_own platform locals.request
  have environ := FaithfulHandover.received_envs locals.envs
  obtain ⟨number, closes, flag⟩ := read_flag (locals.closeFDs && !platform.HAVE_POSIX_SPAWN_CLOEXEC_DEFAULT)
  have launched : locals.launch platform = some
      { chdir := if (strdup locals.cwd).length ≠ 0 then some (strdup locals.cwd) else none
        uid := strdup (to_string (if locals.uid = -2 then platform.getuid else locals.uid))
        gid := strdup (to_string (if locals.gid = -2 then platform.getgid else locals.gid))
        closeFDs := strdup (if locals.closeFDs && !platform.HAVE_POSIX_SPAWN_CLOEXEC_DEFAULT then [0x31] else [0x30])
        file := strdup locals.file, argv := strdup locals.file :: locals.args.map strdup
        environ := locals.envs.map strdup } := by
    simp only [Locals.launch, vector, environ, Option.bind_eq_bind, Option.bind_some]
    rfl
  simp only [launched, Option.bind_some, main, Option.bind_eq_bind, read_own uid user, read_own gid group, closes, flag]
  rfl

end Helper

section Calls

variable {answers : Answers} {file args : Value} {opts : Option Keyword}

/-- The terms that a Unix pack is sent as. -/
def packed (pack : UnixPack) : Terms :=
  { file := pack.file, args := pack.args, env := pack.env, cwd := .binary pack.cwd, cols := pack.cols, rows := pack.rows
    ibaudrate := pack.ibaudrate, obaudrate := pack.obaudrate, uid := pack.uid, gid := pack.gid, is_utf8 := truth pack.is_utf8
    closeFDs := pack.closeFDs, echo := pack.echo?, helper_path := .binary pack.helperPath }

theorem outcome_calls (handled : Handled) : handled.outcome.calls = handled.calls := by
  unfold Handled.outcome
  split <;> rfl

theorem init_unix_pack (os : host.os_type = .unix) {pack : Pack} (accepted : init host file args opts = some pack) :
    ∃ unix, pack = .unix unix := by
  simp only [init, os, Option.bind_eq_bind, Option.bind_eq_some_iff] at accepted
  obtain ⟨_, -, _, -, _, -, taken⟩ := accepted
  obtain ⟨unix, -, same⟩ := Option.map_eq_some_iff.mp taken
  exact ⟨unix, same.symm⟩

theorem init_win32_pack (os : host.os_type = .win32) {pack : Pack} (accepted : init host file args opts = some pack) :
    ∃ win32, pack = .win32 win32 := by
  simp only [init, os, Option.bind_eq_bind, Option.bind_eq_some_iff] at accepted
  obtain ⟨_, -, _, -, _, -, taken⟩ := accepted
  obtain ⟨win32, -, same⟩ := Option.map_eq_some_iff.mp taken
  exact ⟨win32, same.symm⟩

/-- On Unix a spawn comes to one native call, if its options are taken at all. -/
theorem mem_started (os : host.os_type = .unix) (program : Started) :
    program ∈ started maps platform (spawn host answers file args opts) ↔
      ∃ pack, init host file args opts = some (.unix pack) ∧
        (NifTerms.expty_spawn maps platform (packed pack)).bind main = some program := by
  unfold spawn
  cases accepted : init host file args opts with
  | none => exact ⟨fun member => absurd member List.not_mem_nil, fun ⟨_, other, _⟩ => by cases other⟩
  | some pack =>
    obtain ⟨pack, rfl⟩ := init_unix_pack os accepted
    simp only [started, outcome_calls, Pack.do_spawn, UnixPack.do_spawn, List.mem_filterMap, List.mem_singleton,
      exists_eq_left]
    exact ⟨fun given => ⟨pack, rfl, given⟩, fun ⟨_, same, given⟩ => by cases same; exact given⟩

theorem text_binary {bytes text : Binary} : Text (.binary bytes) text ↔ text = bytes := by
  constructor
  · intro read
    cases read with
    | binary => rfl
    | characters latin1 => cases latin1
  · rintro rfl
    exact .binary text

theorem truth_truth {held value : Bool} : Truth (truth held) value ↔ value = held := by
  rw [← get_bool_iff]
  cases held <;> cases value <;> decide

/-- `init` and the native spawn take the settings for the same variables. -/
theorem packed_means (os : host.os_type = .unix) (locals : Locals) :
    (∃ pack, init host file args opts = some (.unix pack) ∧ Means maps (packed pack) locals) ↔
      ∃ defaults given, host.default_pty_options = some defaults ∧ opts = some given ∧
        Asked maps host (setting defaults given) file args locals := by
  have settings (defaults given : Keyword) : setting defaults given = (defaults.merge given).access :=
    funext fun key => (Keyword.access_merge defaults given key).symm
  constructor
  · rintro ⟨pack, accepted, means⟩
    simp only [init, os, Option.bind_eq_bind, Option.bind_eq_some_iff, Option.map_eq_some_iff, Pack.unix.injEq,
      exists_eq_right] at accepted
    obtain ⟨defaults, found, given, same, cwd, expanded, taken⟩ := accepted
    simp only [init_unix, Option.bind_eq_bind, Option.bind_eq_some_iff, Option.pure_def, Option.some.injEq] at taken
    obtain ⟨helper, path, flow, flows, pause, pauses, resume, resumes, rfl⟩ := taken
    refine ⟨defaults, given, found, same, ?_⟩
    rw [settings]
    exact
      { means with
        cwd := by rw [text_binary.mp means.cwd]; exact expanded
        is_utf8 := truth_truth.mp means.is_utf8
        helper_path := by rw [text_binary.mp means.helper_path]; exact path
        handle_flow_control := by rw [flows]; rfl
        flow_control_pause := by rw [pauses]; rfl
        flow_control_resume := by rw [resumes]; rfl }
  · rintro ⟨defaults, given, found, rfl, asked⟩
    rw [settings] at asked
    obtain ⟨flow, flows⟩ := Option.isSome_iff_exists.mp asked.handle_flow_control
    obtain ⟨pause, pauses⟩ := Option.isSome_iff_exists.mp asked.flow_control_pause
    obtain ⟨resume, resumes⟩ := Option.isSome_iff_exists.mp asked.flow_control_resume
    simp only [init, init_unix, os, found, asked.cwd, asked.helper_path, flows, pauses, resumes, Option.bind_eq_bind,
      Option.bind_some, Option.pure_def, Option.map_some, Option.some.injEq, Pack.unix.injEq, exists_eq_left']
    exact
      { asked with
        cwd := .binary locals.cwd
        is_utf8 := truth_truth.mpr asked.is_utf8
        helper_path := .binary locals.helper_path }

end Calls

/-- A spawn on Unix starts what its settings stand for and nothing else: no program when
one of them cannot be read, and else the one program with all of them. -/
theorem spawn_starts_exactly (maps : Nat → Option (List (Value × Value))) (platform : Platform) (host : Host)
    (answers : Answers) (file args : Value) (opts : Option Keyword) (os : host.os_type = .unix)
    (uid : is_int platform.getuid) (gid : is_int platform.getgid) (program : Started) :
    program ∈ started maps platform (spawn host answers file args opts) ↔
      ∃ defaults given locals, host.default_pty_options = some defaults ∧ opts = some given ∧
        Asked maps host (setting defaults given) file args locals ∧ program = run platform locals := by
  rw [mem_started os]
  have launched (pack : UnixPack) : (NifTerms.expty_spawn maps platform (packed pack)).bind main = some program ↔
      ∃ locals, Means maps (packed pack) locals ∧ program = run platform locals := by
    rw [NifTerms.expty_spawn, Option.bind_assoc, Option.bind_eq_some_iff]
    apply exists_congr
    intro locals
    rw [read_iff]
    apply and_congr_right
    intro means
    rw [main_launch uid gid means.uid.2 means.gid.2, Option.some.injEq]
    exact eq_comm
  simp only [launched]
  constructor
  · rintro ⟨pack, accepted, locals, means, same⟩
    obtain ⟨defaults, given, found, options, asked⟩ := (packed_means os locals).mp ⟨pack, accepted, means⟩
    exact ⟨defaults, given, locals, found, options, asked, same⟩
  · rintro ⟨defaults, given, locals, found, options, asked, same⟩
    obtain ⟨pack, accepted, means⟩ := (packed_means os locals).mpr ⟨defaults, given, found, options, asked⟩
    exact ⟨pack, accepted, locals, means, same⟩

/-- The variables of a spawn that is asked for nothing. -/
def plain (home helper : Binary) (envs : List Binary) : Locals :=
  { file := [0x73, 0x68], args := [], envs, cwd := home, cols := 80, rows := 24, ibaudrate := 38400, obaudrate := 38400
    uid := -2, gid := -2, is_utf8 := true, closeFDs := false, echo := false, helper_path := helper }

/-- Every default passes the check that is made of it, for a system environment of texts. -/
theorem defaults_asked {home helper : Binary} {envs : List Binary} {id : Nat} {pairs : List (Value × Value)}
    (os : host.os_type = .unix) (unset : ∀ key default, host.get_env key default = default)
    (tilde : host.expand (.text "~") = some home) (absolute : host.expand (.binary home) = some home)
    (path : host.helper_path = some helper) (system : host.system_env = .other id) (found : maps id = some pairs)
    (entries : Entries pairs envs) :
    ∃ defaults, host.default_pty_options = some defaults ∧
      Asked maps host (setting defaults []) .nil .nil (plain home helper envs) := by
  simp only [Host.default_pty_options, tilde, os, unset, system, Option.bind_eq_bind, Option.bind_some, Option.pure_def,
    Option.some.injEq, exists_eq_left']
  have wide : is_int 80 ∧ (80 : Int) > 0 := by decide
  have high : is_int 24 ∧ (24 : Int) > 0 := by decide
  have speed : is_int 38400 := by decide
  have own : is_int (-2) := by decide
  have off : Truth (truth false) false := truth_truth.mpr rfl
  exact
    { file := .binary _, args := .empty, envs := ⟨id, pairs, rfl, found, entries⟩, cwd := absolute
      cols := ⟨⟨rfl, wide.1⟩, wide.2⟩, rows := ⟨⟨rfl, high.1⟩, high.2⟩
      ibaudrate := ⟨⟨rfl, speed⟩, Int.natCast_nonneg 38400⟩, obaudrate := ⟨⟨rfl, speed⟩, Int.natCast_nonneg 38400⟩
      uid := ⟨rfl, own⟩, gid := ⟨rfl, own⟩, is_utf8 := (decide_eq_true rfl).symm, closeFDs := off, echo := off
      helper_path := path, handle_flow_control := rfl, flow_control_pause := rfl, flow_control_resume := rfl }

/-- A machine without a configuration, whose environment is the map 0. -/
def machine : Host :=
  { os_type := .unix, exports := fun _ _ _ => false, get_env := fun _ default => default, system_env := .other 0
    expand := fun path => if path = .text "~" then some [0x2F] else path.binary?
    interpolate := Value.binary?, priv_dir := .binary [0x2F, 0x70], uniform := 1, quoted := List.flatten }

def maps_of_machine (_ : Nat) : Option (List (Value × Value)) := some [(.text "TERM", .text "xterm")]

theorem shell_starts :
    { chdir := some [0x2F], uid := 1000, gid := 100, closeFDs := false, file := [0x73, 0x68], argv := [[0x73, 0x68]]
      environ := [Unicode.utf8 "TERM=xterm".toList] } ∈
      started maps_of_machine ⟨1000, 100, true⟩ (spawn machine ⟨.error "error", .badarg, .badarg⟩ .nil .nil (some [])) := by
  have entries : Entries [(.text "TERM", .text "xterm")] [Unicode.utf8 "TERM=xterm".toList] :=
    .cons (.binary (Unicode.utf8 "TERM".toList)) (.binary (Unicode.utf8 "xterm".toList)) .nil
  obtain ⟨defaults, found, asked⟩ : ∃ defaults, machine.default_pty_options = some defaults ∧
      Asked maps_of_machine machine (setting defaults []) .nil .nil (plain [0x2F] _ _) :=
    defaults_asked rfl (fun _ _ => rfl) rfl rfl rfl rfl rfl entries
  exact (spawn_starts_exactly maps_of_machine ⟨1000, 100, true⟩ machine _ .nil .nil _ rfl (by decide) (by decide) _).mpr
    ⟨defaults, [], _, found, rfl, asked, rfl⟩

end ExPTY.Proofs.SpawnOptions
