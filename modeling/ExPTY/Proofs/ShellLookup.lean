import ExPTY.ShellPath

/-! Which files the lookup of the shell finds. The directories that the loop splits off
are all but the last one of Path, and the empty answer for a file of the working
directory is the caller's mark of a file that was not found. -/

namespace ExPTY.Proofs.ShellLookup
open Delimited ShellPath
open EnvironmentBlock (Wide to_wstring)
open Server (Binary)

def joined (dirs : List Wide) : Wide := [0x3B].intercalate dirs

def Has (host : Host) (filename dir : Wide) : Prop := host.file_exists (PathCombineW dir filename) = true

instance (host : Host) (filename dir : Wide) : Decidable (Has host filename dir) := inferInstanceAs (Decidable (_ = true))

/-- The first of the directories that has the file. -/
def Earliest (host : Host) (filename : Wide) (dirs : List Wide) (dir : Wide) : Prop :=
  ∃ before after, dirs = before ++ dir :: after ∧ Has host filename dir ∧ ∀ earlier ∈ before, ¬ Has host filename earlier

/-- An existing file is found wherever it is, in Path at its earliest place, and the
error means that it is nowhere. -/
structure Complete (host : Host) (dirs : List Wide) (file : Binary) : Prop where
  found : host.file_exists (to_wstring file) = true ∨ (∃ dir ∈ dirs, Has host (to_wstring file) dir) →
    ∃ shellpath, expty_spawn host file = .ok shellpath ∧ host.file_exists shellpath = true
  ordered : ∀ shellpath, expty_spawn host file = .ok shellpath →
    shellpath = to_wstring file ∨
      ∃ dir, Earliest host (to_wstring file) dirs dir ∧ shellpath = PathCombineW dir (to_wstring file)
  absent : ∀ why shellpath, expty_spawn host file = .error why shellpath →
    host.file_exists (to_wstring file) = false ∧ ∀ dir ∈ dirs, ¬ Has host (to_wstring file) dir

private theorem split_paths_eq (buffer : Wide) : split_paths buffer = (buffer.splitOn 0x3B).dropLast := by
  induction buffer using split_paths.induct with
  | case1 buffer none_left =>
    have whole := List.splitOn_eq_singleton (splitFirst_eq_none.mp none_left)
    have stopped : split_paths buffer = [] := by rw [split_paths, none_left]
    rw [stopped, whole]
    rfl
  | case2 buffer path rest found ih =>
    have erased : split_paths buffer = path :: split_paths rest := by rw [split_paths, found]
    obtain ⟨absent, shape⟩ := splitFirst_eq_some.mp found
    have pieces := List.splitOn_append_cons_self_of_not_mem absent rest
    rw [erased, ih, shape, pieces, List.dropLast_cons_of_ne_nil (List.splitOn_ne_nil _ _)]

private theorem split_paths_joined (dirs : List Wide) (plain : ∀ dir ∈ dirs, 0x3B ∉ dir) :
    split_paths (joined dirs) = dirs.dropLast := by
  by_cases empty : dirs = []
  · subst dirs
    rw [split_paths_eq]
    rfl
  · rw [split_paths_eq, joined, List.splitOn_intercalate 0x3B plain empty]

variable {host : Host} {filename : Wide}

private theorem Earliest.mem {dirs : List Wide} {dir : Wide} (first : Earliest host filename dirs dir) :
    dir ∈ dirs ∧ Has host filename dir := by
  obtain ⟨before, after, rfl, hit, -⟩ := first
  exact ⟨by simp, hit⟩

private theorem Earliest.listed {dirs : List Wide} {dir : Wide} (first : Earliest host filename dirs.dropLast dir) :
    Earliest host filename dirs dir := by
  obtain ⟨before, after, split, hit, missed⟩ := first
  have some_dir : dirs ≠ [] := by
    rintro rfl
    simp at split
  refine ⟨before, after ++ [dirs.getLast some_dir], ?_, hit, missed⟩
  rw [← List.cons_append, ← List.append_assoc, ← split, List.dropLast_concat_getLast]

private theorem search_cases (host : Host) (filename : Wide) (dirs : List Wide) :
    (∃ dir, Earliest host filename dirs dir ∧ search host filename dirs = PathCombineW dir filename) ∨
      (∀ dir ∈ dirs, ¬ Has host filename dir) ∧ search host filename dirs = [] := by
  induction dirs with
  | nil => exact .inr ⟨by simp, rfl⟩
  | cons dir dirs ih =>
    by_cases has : Has host filename dir
    · refine .inl ⟨dir, ⟨[], dirs, rfl, has, by simp⟩, ?_⟩
      exact if_pos has
    · have later : search host filename (dir :: dirs) = search host filename dirs := if_neg has
      rw [later]
      rcases ih with ⟨first, ⟨before, after, rfl, hit, missed⟩, answer⟩ | ⟨missed, answer⟩
      · refine .inl ⟨first, ⟨dir :: before, after, rfl, hit, ?_⟩, answer⟩
        exact List.forall_mem_cons.mpr ⟨has, missed⟩
      · exact .inr ⟨List.forall_mem_cons.mpr ⟨has, missed⟩, answer⟩

private theorem get_shell_path_eq {dirs : List Wide} (path : host.Path = some (joined dirs)) (plain : ∀ dir ∈ dirs, 0x3B ∉ dir)
    (fits : (joined dirs).length < MAX_ENV) (elsewhere : host.file_exists filename = false) :
    get_shell_path host filename = search host filename dirs.dropLast := by
  have buffer : host.GetEnvironmentVariableW MAX_ENV = ((joined dirs).length, joined dirs) := by
    rw [Host.GetEnvironmentVariableW, path]
    exact if_pos fits
  rw [get_shell_path, elsewhere, buffer]
  by_cases empty : (joined dirs).length = 0
  · have no_path : split_paths (joined dirs) = [] := by
      rw [List.eq_nil_of_length_eq_zero empty, split_paths_eq]
      rfl
    simp [empty, ← split_paths_joined dirs plain, no_path, search]
  · simp [empty, split_paths_joined dirs plain]

section
variable {dirs : List Wide} {file : Binary} (path : host.Path = some (joined dirs)) (plain : ∀ dir ∈ dirs, 0x3B ∉ dir)
  (fits : (joined dirs).length < MAX_ENV) (relative : host.PathIsRelativeW (to_wstring file) = true)
include relative

/-- `get_shell_path` answers with the empty path for a file of the working directory. -/
private theorem spawn_present (present : host.file_exists (to_wstring file) = true) :
    expty_spawn host file = .error "File not found: " [] := by
  have answer : get_shell_path host (to_wstring file) = [] := if_pos present
  simp [expty_spawn, relative, answer]

include path plain fits

/-- The lookup of a name that is not in the working directory: the last directory of Path
is not looked at. -/
private theorem spawn_elsewhere (elsewhere : host.file_exists (to_wstring file) = false) :
    (∃ dir, Earliest host (to_wstring file) dirs.dropLast dir ∧
        expty_spawn host file = .ok (PathCombineW dir (to_wstring file))) ∨
      (∀ dir ∈ dirs.dropLast, ¬ Has host (to_wstring file) dir) ∧ expty_spawn host file = .error "File not found: " [] := by
  have searched := get_shell_path_eq path plain fits elsewhere
  rcases search_cases host (to_wstring file) dirs.dropLast with ⟨dir, first, answer⟩ | ⟨missed, answer⟩
  · refine .inl ⟨dir, first, ?_⟩
    have full : (PathCombineW dir (to_wstring file)).isEmpty = false := by simp [PathCombineW]
    have hit : host.file_exists (PathCombineW dir (to_wstring file)) = true := first.mem.2
    simp [expty_spawn, relative, searched, answer, full, hit]
  · refine .inr ⟨missed, ?_⟩
    simp [expty_spawn, relative, searched, answer]

end

private theorem complete_of_hit {dirs : List Wide} {file : Binary} {dir : Wide}
    (first : Earliest host (to_wstring file) dirs dir)
    (answer : expty_spawn host file = .ok (PathCombineW dir (to_wstring file))) : Complete host dirs file := by
  refine ⟨?_, ?_, ?_⟩
  · intro _
    exact ⟨_, answer, first.mem.2⟩
  · intro shellpath result
    cases answer.symm.trans result
    exact .inr ⟨dir, first, rfl⟩
  · intro why shellpath result
    cases answer.symm.trans result

private theorem complete_of_absent {dirs : List Wide} {file : Binary} {why : String} {shellpath : Wide}
    (elsewhere : host.file_exists (to_wstring file) = false) (nowhere : ∀ dir ∈ dirs, ¬ Has host (to_wstring file) dir)
    (answer : expty_spawn host file = .error why shellpath) : Complete host dirs file := by
  refine ⟨?_, ?_, ?_⟩
  · rintro (present | ⟨dir, member, has⟩)
    · cases elsewhere.symm.trans present
    · exact absurd has (nowhere dir member)
  · intro found result
    cases answer.symm.trans result
  · intro _ _ _
    exact ⟨elsewhere, nowhere⟩

/-- The lookup meets its purpose exactly when the file is not in the working directory,
and in a directory of Path other than the last one if it is in Path at all. -/
theorem shell_lookup_iff (host : Host) (dirs : List Wide) (file : Binary) (path : host.Path = some (joined dirs))
    (plain : ∀ dir ∈ dirs, 0x3B ∉ dir) (fits : (joined dirs).length < MAX_ENV)
    (relative : host.PathIsRelativeW (to_wstring file) = true) :
    Complete host dirs file ↔
      host.file_exists (to_wstring file) = false ∧
        ((∃ dir ∈ dirs.dropLast, Has host (to_wstring file) dir) ∨ ∀ dir ∈ dirs, ¬ Has host (to_wstring file) dir) := by
  constructor
  · intro complete
    have elsewhere : host.file_exists (to_wstring file) = false := by
      apply Bool.eq_false_iff.mpr
      intro present
      obtain ⟨shellpath, answer, -⟩ := complete.found (.inl present)
      cases (spawn_present relative present).symm.trans answer
    refine ⟨elsewhere, ?_⟩
    rcases spawn_elsewhere path plain fits relative elsewhere with ⟨dir, first, -⟩ | ⟨-, answer⟩
    · exact .inl ⟨dir, first.mem⟩
    · exact .inr (complete.absent _ _ answer).2
  · rintro ⟨elsewhere, listed⟩
    rcases spawn_elsewhere path plain fits relative elsewhere with ⟨dir, first, answer⟩ | ⟨missed, answer⟩
    · exact complete_of_hit first.listed answer
    · apply complete_of_absent elsewhere _ answer
      rcases listed with ⟨dir, member, has⟩ | nowhere
      · exact absurd has (missed dir member)
      · exact nowhere

/-- A system that holds these files and lists these directories in Path. -/
def disk (files dirs : List Wide) : Host where
  cwd := []
  GetFileAttributesW _ name := if name ∈ files then 0x80 else 0xFFFFFFFF
  PathIsRelativeW name := name[0]? != some 0x5C && name[1]? != some 0x3A
  Path := some (joined dirs)
  stale := []

/-- `a` in the first of the directories `B:` and `C:`. -/
theorem first_directory_found :
    Complete (disk [[0x42, 0x3A, 0x5C, 0x61]] [[0x42, 0x3A], [0x43, 0x3A]]) [[0x42, 0x3A], [0x43, 0x3A]] [0x61] := by
  refine (shell_lookup_iff _ _ _ rfl (by decide) (by decide) (by decide)).mpr ⟨by decide, .inl ?_⟩
  exact ⟨[0x42, 0x3A], by simp, by decide⟩

private theorem last_directory_missed (host : Host) (dir : Wide) (file : Binary) (path : host.Path = some dir)
    (plain : 0x3B ∉ dir) (fits : dir.length < MAX_ENV) (relative : host.PathIsRelativeW (to_wstring file) = true)
    (elsewhere : host.file_exists (to_wstring file) = false) (has : Has host (to_wstring file) dir) :
    ¬ Complete host [dir] file := by
  intro complete
  have only : joined [dir] = dir := List.append_nil dir
  rcases spawn_elsewhere (by rw [path, only]) (by simpa using plain) (by rwa [only]) relative elsewhere with
    ⟨dir, first, -⟩ | ⟨-, answer⟩
  · exact absurd first.mem.1 List.not_mem_nil
  · exact (complete.absent _ _ answer).2 dir (by simp) has

/-- `a` in the only directory of Path, and `a` in the working directory. -/
theorem shell_missed :
    ¬ Complete (disk [[0x43, 0x3A, 0x5C, 0x61]] [[0x43, 0x3A]]) [[0x43, 0x3A]] [0x61] ∧
      ¬ Complete (disk [[0x61]] [[0x43, 0x3A]]) [[0x43, 0x3A]] [0x61] := by
  constructor
  · apply last_directory_missed <;> decide
  · intro complete
    have answer : expty_spawn (disk [[0x61]] [[0x43, 0x3A]]) [0x61] = .error "File not found: " [] :=
      spawn_present (by decide) (by decide)
    have absent := (complete.absent _ _ answer).1
    exact absurd absent (by decide)

end ExPTY.Proofs.ShellLookup
