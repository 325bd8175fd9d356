import ExPTY.Handover

/-! What reaches the program of what was asked for. The vectors are filled without a gap,
so the only losses are those of C strings and of `name=value` texts. -/

namespace ExPTY.Proofs.FaithfulHandover
open Delimited Handover
open Server (Binary SpawnUnix)

theorem fill_slots (before after : List Slot) (texts : List Binary) :
    fill (before ++ List.replicate texts.length .uninitialized ++ after) before.length texts =
      before ++ texts.map (fun s => .text (strdup s)) ++ after := by
  induction texts generalizing before with
  | nil => simp [fill]
  | cons s texts ih =>
    have step := ih (before ++ [.text (strdup s)])
    simp only [List.length_append, List.length_singleton] at step
    simp only [fill, List.length_cons, List.replicate_succ, List.append_assoc, List.cons_append]
    rw [List.set_append_right _ _ (Nat.le_refl _), Nat.sub_self, List.set_cons_zero]
    simpa using step

theorem received_texts (texts : List Binary) (rest : List Slot) :
    received (texts.map .text ++ .null :: rest) = some texts := by
  induction texts with
  | nil => rfl
  | cons s texts ih => simp [received, ih]

/-- A vector whose first texts are in place and whose null pointer stands at the end. -/
theorem received_fill (own texts : List Binary) :
    received (fill (own.map .text ++ List.replicate texts.length .uninitialized ++ [.null]) own.length texts) =
      some (own ++ texts.map strdup) := by
  have filled := fill_slots (own.map .text) [.null] texts
  rw [List.length_map] at filled
  rw [filled, ← received_texts (own ++ texts.map strdup) []]
  simp [Function.comp_def]

theorem received_envs (envs : List Binary) : received (envs_c envs) = some (envs.map strdup) := by
  have slots : (List.replicate (envs.length + 1) Slot.uninitialized).set envs.length .null =
      List.replicate envs.length .uninitialized ++ [.null] := by
    rw [List.replicate_succ', List.set_append_right _ _ (by simp)]
    simp
  simp only [envs_c, slots]
  exact received_fill [] envs

private theorem slots_argv (argc : Nat) (helper cwd uid gid closeFDs file : Slot) :
    (((((((List.replicate (argc + EXTRA_ARGS + 1) Slot.uninitialized).set 0 helper).set 1 cwd).set 2 uid).set 3 gid).set 4
        closeFDs).set 5 file).set (argc + EXTRA_ARGS + 1 - 1) .null =
      [helper, cwd, uid, gid, closeFDs, file] ++ List.replicate argc .uninitialized ++ [.null] := by
  have shape : List.replicate (argc + EXTRA_ARGS + 1) Slot.uninitialized =
      List.replicate 6 .uninitialized ++ List.replicate argc .uninitialized ++ [.uninitialized] := by
    rw [List.replicate_append_replicate, Nat.add_comm 6, List.replicate_succ']
    rfl
  rw [shape]
  simp [EXTRA_ARGS]

/-- The vector holds the helper's own six arguments and then those of the program. -/
theorem received_argv (platform : Platform) (request : SpawnUnix) :
    ∃ helper uid gid closeFDs, received (argv platform request) =
      some ([helper, strdup request.cwd, uid, gid, closeFDs, strdup request.file] ++ request.args.map strdup) := by
  simp only [argv, slots_argv]
  exact ⟨_, _, _, _, received_fill [_, _, _, _, _, _] request.args⟩

/-- The helper's own arguments, the numbers among them as texts. -/
theorem received_own (platform : Platform) (request : SpawnUnix) :
    received (argv platform request) =
      some ([strdup request.helperPath, strdup request.cwd,
        strdup (to_string (if request.uid = -2 then platform.getuid else request.uid)),
        strdup (to_string (if request.gid = -2 then platform.getgid else request.gid)),
        strdup (if request.closeFDs && !platform.HAVE_POSIX_SPAWN_CLOEXEC_DEFAULT then [0x31] else [0x30]),
        strdup request.file] ++ request.args.map strdup) := by
  simp only [argv, slots_argv]
  exact received_fill [_, _, _, _, _, _] request.args

/-- The program is given what was asked for. -/
structure Faithful (request : SpawnUnix) (program : Program) : Prop where
  chdir : program.chdir = if request.cwd = [] then none else some request.cwd
  file : program.file = request.file
  argv : program.argv = request.file :: request.args
  environ : ∀ name, getenv program.environ name = request.env.lookup name

def CleanEntry (entry : Binary × Binary) : Prop := 0 ∉ entry.1 ∧ 0x3D ∉ entry.1 ∧ 0 ∉ entry.2

/-- No NUL byte anywhere, and no `=` in a name. -/
structure Clean (request : SpawnUnix) : Prop where
  cwd : 0 ∉ request.cwd
  file : 0 ∉ request.file
  args : ∀ arg ∈ request.args, 0 ∉ arg
  env : ∀ entry ∈ request.env, CleanEntry entry

/-- What the program is given in any case: the C strings of it all. -/
structure Copied (request : SpawnUnix) (program : Program) : Prop where
  chdir : program.chdir = if (strdup request.cwd).length ≠ 0 then some (strdup request.cwd) else none
  file : program.file = strdup request.file
  argv : program.argv = strdup request.file :: request.args.map strdup
  environ : program.environ = (get_env request.env).map strdup

theorem handed_over (platform : Platform) {request : SpawnUnix} (accepted : accepts request) :
    ∃ program, expty_spawn platform request = some program ∧ Copied request program := by
  obtain ⟨helper, uid, gid, closeFDs, vector⟩ := received_argv platform request
  have reached : expty_spawn platform request = some
      { chdir := if (strdup request.cwd).length ≠ 0 then some (strdup request.cwd) else none, uid, gid, closeFDs
        file := strdup request.file, argv := strdup request.file :: request.args.map strdup
        environ := (get_env request.env).map strdup } := by
    simp only [expty_spawn, if_pos accepted, vector, received_envs]
    rfl
  exact ⟨_, reached, rfl, rfl, rfl, rfl⟩

theorem strdup_eq_self {s : Binary} : strdup s = s ↔ 0 ∉ s := cut_eq_self

theorem chdir_iff (cwd : Binary) :
    (if (strdup cwd).length ≠ 0 then some (strdup cwd) else none) = (if cwd = [] then none else some cwd) ↔ 0 ∉ cwd := by
  rw [← strdup_eq_self]
  by_cases empty : cwd = []
  · subst cwd
    exact iff_of_true rfl rfl
  · rw [if_neg empty, Option.ite_none_right_eq_some, Option.some.injEq]
    refine ⟨And.right, fun same => ⟨?_, same⟩⟩
    rw [same]
    exact fun length => empty (List.length_eq_zero_iff.mp length)

theorem argv_iff (file : Binary) (args : List Binary) :
    strdup file :: args.map strdup = file :: args ↔ 0 ∉ file ∧ ∀ arg ∈ args, 0 ∉ arg := by
  have each : args.map strdup = args ↔ ∀ arg ∈ args, strdup arg = arg := by
    simpa using List.map_inj_left (l := args) (f := strdup) (g := id)
  simp only [List.cons.injEq, each, strdup_eq_self]

section Environment
variable {env : List (Binary × Binary)}

theorem getenv_clean (clean : ∀ entry ∈ env, CleanEntry entry) (name : Binary) :
    getenv ((get_env env).map strdup) name = env.lookup name := by
  induction env with
  | nil => rfl
  | cons entry env ih =>
    obtain ⟨⟨names, plain, values⟩, rest⟩ := List.forall_mem_cons.mp clean
    have whole : strdup (entry.1 ++ 0x3D :: entry.2) = entry.1 ++ 0x3D :: entry.2 := by
      refine strdup_eq_self.mpr fun member => ?_
      rcases List.mem_append.mp member with member | member
      · exact names member
      · exact (List.mem_cons.mp member).elim nofun values
    have later := ih rest
    simp only [getenv, get_env, List.map_cons, List.findSome?_cons, whole, splitFirst_append plain, Option.bind_some] at later ⊢
    rw [List.lookup_cons]
    by_cases same : entry.1 = name
    · simp [same]
    · have other : (name == entry.1) = false := beq_false_of_ne (Ne.symm same)
      simp only [if_neg same, other]
      exact later

/-- What the program finds under a name has no NUL, and the name neither that nor `=`. -/
theorem getenv_some {name value : Binary} (found : getenv ((get_env env).map strdup) name = some value) :
    CleanEntry (name, value) := by
  obtain ⟨entry, member, found⟩ := List.exists_of_findSome?_eq_some found
  obtain ⟨text, _, rfl⟩ := List.mem_map.mp member
  obtain ⟨⟨key, found'⟩, split, same⟩ := Option.bind_eq_some_iff.mp found
  simp only [Option.ite_none_right_eq_some, Option.some.injEq] at same
  obtain ⟨rfl, rfl⟩ := same
  obtain ⟨plain, shape⟩ := splitFirst_eq_some.mp split
  have absent : 0 ∉ key ++ 0x3D :: found' := shape ▸ not_mem_cut
  exact ⟨fun member => absent (List.mem_append_left _ member), plain,
    fun member => absent (List.mem_append_right _ (.tail _ member))⟩

theorem lookup_entry (env : Env) {entry : Binary × Binary} (member : entry ∈ env.entries) :
    env.entries.lookup entry.1 = some entry.2 := by
  obtain ⟨before, after, shape⟩ := List.append_of_mem member
  have distinct := env.distinct
  rw [shape, List.map_append, List.nodup_append] at distinct
  refine List.lookup_eq_some_iff.mpr ⟨before, after, shape, fun other held => ?_⟩
  have different := distinct.2.2 other.1 (List.mem_map_of_mem held) entry.1 (.head _)
  simpa using Ne.symm different

theorem environ_iff (env : Env) :
    (∀ name, getenv ((get_env env.entries).map strdup) name = env.entries.lookup name) ↔
      ∀ entry ∈ env.entries, CleanEntry entry := by
  constructor
  · intro same entry member
    exact getenv_some ((same entry.1).trans (lookup_entry env member))
  · exact getenv_clean

end Environment

theorem Copied.faithful_iff_clean {request : SpawnUnix} {program : Program} (copied : Copied request program) (env : Env)
    (same : request.env = env.entries) : Faithful request program ↔ Clean request := by
  have argv := argv_iff request.file request.args
  have environ := environ_iff env
  rw [← copied.argv] at argv
  rw [← same, ← copied.environ] at environ
  constructor
  · intro faithful
    obtain ⟨file, args⟩ := argv.mp faithful.argv
    exact ⟨(chdir_iff request.cwd).mp (copied.chdir.symm.trans faithful.chdir), file, args, environ.mp faithful.environ⟩
  · intro clean
    exact ⟨copied.chdir.trans ((chdir_iff request.cwd).mpr clean.cwd),
      copied.file.trans (strdup_eq_self.mpr clean.file), argv.mpr ⟨clean.file, clean.args⟩, environ.mpr clean.env⟩

/-- A request reaches the program as it was made exactly when it is refused or clean. -/
theorem faithful_iff (platform : Platform) (request : SpawnUnix) (env : Env) :
    (∀ program, expty_spawn platform { request with env := env.entries } = some program →
        Faithful { request with env := env.entries } program) ↔
      (accepts request → Clean { request with env := env.entries }) := by
  constructor
  · intro faithful accepted
    have accepted : accepts { request with env := env.entries } := accepted
    obtain ⟨program, reached, copied⟩ := handed_over platform accepted
    exact (copied.faithful_iff_clean env rfl).mp (faithful program reached)
  · intro clean program reached
    have accepted : accepts { request with env := env.entries } := by
      by_contra refused
      rw [expty_spawn, if_neg refused] at reached
      cases reached
    obtain ⟨other, reached', copied⟩ := handed_over platform accepted
    cases reached.symm.trans reached'
    exact (copied.faithful_iff_clean env rfl).mpr (clean accepted)

/-- An empty argument, and one with a NUL byte in it. -/
def nulArgument : SpawnUnix :=
  { file := [0x67], args := [[], [0x61, 0, 0x62]], env := [], cwd := [0x2F], cols := 80, rows := 24
    ibaudrate := 38400, obaudrate := 38400, uid := -2, gid := -2, is_utf8 := true, closeFDs := false, echo? := false
    helperPath := [0x68] }

theorem nul_argument_cut :
    ∃ program, expty_spawn ⟨0, 0, false⟩ nulArgument = some program ∧ program.argv = [[0x67], [], [0x61]] ∧
      ¬ Faithful nulArgument program := by
  refine ⟨_, rfl, rfl, ?_⟩
  intro faithful
  exact absurd faithful.argv (by decide)

end ExPTY.Proofs.FaithfulHandover
