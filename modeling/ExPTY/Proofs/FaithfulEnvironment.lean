import ExPTY.EnvironmentBlock
import Mathlib.Data.List.Nodup

/-! Which environment maps reach the program on Windows. A variable arrives exactly when
its name and value are text that the block can hold: an entry that is not converted
becomes empty and ends the block, and the empty map becomes no block at all. -/

namespace ExPTY.Proofs.FaithfulEnvironment
open Delimited EnvironmentBlock Unicode
open Handover (Env get_env)
open NativeCalls (is_int)
open Server (Binary)

/-- The same text in UTF-8 and in UTF-16. -/
def Encodes (bytes : Binary) (wide : Wide) : Prop := ∃ text, utf8 text = bytes ∧ utf16 text = wide

def Encoded (entry : Binary × Binary) (var : Variable) : Prop := Encodes entry.1 var.1 ∧ Encodes entry.2 var.2

/-- The environment holds the variables of the map, and no others. -/
structure SameMap (env : Env) (environment : List Variable) : Prop where
  kept : ∀ entry ∈ env.entries, ∃ var ∈ environment, Encoded entry var
  only : ∀ var ∈ environment, ∃ entry ∈ env.entries, Encoded entry var

/-- The call returns an error, or the client has the environment that was asked for. -/
def Faithful (env : Env) : Option Outcome → Prop
  | none => False
  | some (.ok _ client) => SameMap env client.environment
  | some _ => True

/-- The conversion is given all of the text. From 2^31 bytes on the cast leaves a length that
is right no more, save where it comes out as -1 and the number of units fits. -/
def Whole (text : List Char) : Prop :=
  slen (utf8 text) = (utf8 text).length ∨ slen (utf8 text) = -1 ∧ (utf16 text).length + 1 < 0x80000000

def CleanEntry (entry : Binary × Binary) : Prop :=
  ∃ name value, utf8 name = entry.1 ∧ utf8 value = entry.2 ∧ name ≠ [] ∧ '=' ∉ name.tail ∧ '\x00' ∉ name ∧
    '\x00' ∉ value ∧ Whole (name ++ '=' :: value)

def Starts (system : System) : Prop := system.UpdateProcThreadAttribute = true ∧ system.CreateProcessW.isSome

structure Clean (system : System) (env : Env) : Prop where
  size : env.entries.length < 0x100000000
  empty : Starts system → env.entries = [] → system.environment = []
  entries : Starts system → ∀ entry ∈ env.entries, CleanEntry entry

section Conversion

private theorem nul_utf8 {text : List Char} : 0 ∈ utf8 text ↔ '\x00' ∈ text :=
  mem_utf8 (a := '\x00') (by decide)

private theorem nul_utf16 {text : List Char} : 0 ∈ utf16 text ↔ '\x00' ∈ text :=
  mem_utf16 (a := '\x00') (by decide)

private theorem cut_utf16 {text : List Char} (solid : '\x00' ∉ text) : cut 0 (utf16 text) = utf16 text :=
  cut_eq_self.mpr fun member => solid (nul_utf16.mp member)

private theorem bmod_le (length size : Nat) : Int.bmod length size ≤ length := by
  have small : (length : Int) % size ≤ length := Int.ofNat_le.mpr (Nat.mod_le length size)
  rw [Int.bmod_def]
  split <;> omega

private theorem slen_le (str : Binary) : slen str ≤ str.length := bmod_le str.length 0x100000000

private theorem slen_lt (str : Binary) : slen str < (0x80000000 : Nat) := Int.bmod_lt (by decide)

private def input (str : Binary) : Binary := if slen str = -1 then cut 0 str else str.take (slen str).toNat

private theorem input_prefix (str : Binary) : input str <+: str := by
  unfold input
  split
  · exact List.takeWhile_prefix _
  · exact List.take_prefix _ _

private def size (str : Binary) (output : Wide) : Nat := if slen str = -1 then output.length + 1 else output.length

private theorem whole_of_input {text : List Char} (all : input (utf8 text) = utf8 text)
    (fits : size (utf8 text) (utf16 text) < 0x80000000) (full : text ≠ []) : Whole text := by
  by_cases ended : slen (utf8 text) = -1
  · rw [size, if_pos ended] at fits
    exact .inr ⟨ended, fits⟩
  · rw [input, if_neg ended] at all
    have long := congrArg List.length all
    rw [List.length_take] at long
    have short := slen_le (utf8 text)
    have units := utf16_length_le text
    have some := List.length_pos_iff.mpr (mt utf16_eq_nil.mp full)
    exact .inl (by omega)

/-- What is converted is a prefix of the string, and all of it only when the length is right. -/
private theorem to_wstring_reads (str : Binary) :
    ∃ text, utf8 text <+: str ∧ to_wstring str = cut 0 (utf16 text) ∧ (utf8 text = str → text ≠ [] → Whole text) := by
  have shape : to_wstring str = cut 0 (if size str (((decode (input str)).map utf16).getD []) < 0x80000000 then
      ((decode (input str)).map utf16).getD [] else []) := rfl
  cases decoded : decode (input str) with
  | none =>
    rw [decoded, Option.map_none, Option.getD_none, ite_self] at shape
    exact ⟨[], List.nil_prefix, shape, fun _ full => absurd rfl full⟩
  | some text =>
    have encoded := decode_eq_some.mp decoded
    rw [decoded, Option.map_some, Option.getD_some] at shape
    by_cases fits : size str (utf16 text) < 0x80000000
    · rw [if_pos fits] at shape
      refine ⟨text, encoded ▸ input_prefix str, shape, ?_⟩
      intro same full
      subst same
      exact whole_of_input encoded.symm fits full
    · rw [if_neg fits] at shape
      exact ⟨[], List.nil_prefix, shape, fun _ full => absurd rfl full⟩

theorem to_wstring_whole {text : List Char} (solid : '\x00' ∉ text) (whole : Whole text) :
    to_wstring (utf8 text) = utf16 text := by
  have encoded := decode_eq_some.mpr (rfl : utf8 text = utf8 text)
  have units := utf16_length_le text
  have bound := slen_lt (utf8 text)
  rw [to_wstring, MultiByteToWideChar]
  rcases whole with whole | ⟨ended, fits⟩
  · have other : ((utf8 text).length : Int) ≠ -1 := by omega
    have fits : (utf16 text).length < 0x80000000 := by
      rw [whole, Int.ofNat_lt] at bound
      exact Nat.lt_of_le_of_lt units bound
    simp only [whole, if_neg other, Int.toNat_natCast, List.take_length, encoded, Option.map_some, Option.getD_some, if_pos fits]
    exact cut_utf16 solid
  · have uncut : cut 0 (utf8 text) = utf8 text := cut_eq_self.mpr fun member => solid (nul_utf8.mp member)
    simp only [if_pos ended, uncut, encoded, Option.map_some, Option.getD_some, if_pos fits]
    exact cut_utf16 solid

end Conversion

section Entries

private theorem equals_utf8 {name : List Char} : 0x3D ∈ (utf8 name).tail ↔ '=' ∈ name.tail :=
  mem_utf8_tail (a := '=') (by decide)

private theorem equals_utf16 {name : List Char} : 0x3D ∈ (utf16 name).tail ↔ '=' ∈ name.tail :=
  mem_utf16_tail (a := '=') (by decide)

private theorem utf8_entry (name value : List Char) : utf8 (name ++ '=' :: value) = utf8 name ++ 0x3D :: utf8 value := by
  rw [utf8_append, utf8_cons, utf8_ascii (by decide)]
  rfl

private theorem utf16_entry (name value : List Char) :
    utf16 (name ++ '=' :: value) = utf16 name ++ 0x3D :: utf16 value := by
  rw [utf16_append, utf16_cons, units_ascii (by decide)]
  rfl

theorem splitBehind_text {name value : List Char} {wide : Wide}
    (split : splitBehind 0x3D wide = some (utf16 name, utf16 value)) :
    name ≠ [] ∧ '=' ∉ name.tail ∧ wide = utf16 (name ++ '=' :: value) := by
  obtain ⟨full, plain, shape⟩ := splitBehind_eq_some.mp split
  refine ⟨mt utf16_eq_nil.mpr full, mt equals_utf16.mpr plain, ?_⟩
  rw [utf16_entry]
  exact shape

end Entries

section Blocks

/-- The entries of a block are the strings up to the first that is not converted. -/
theorem entries_envBlock (env_strings : List Binary) :
    entries 0 (envBlock env_strings) = (env_strings.map to_wstring).takeWhile (· ≠ []) := by
  have shape : envBlock env_strings = (env_strings.map to_wstring).flatMap (· ++ [0]) ++ [0] := by
    rw [envBlock, List.flatMap_map]
  rw [shape]
  refine entries_block _ (fun entry member => ?_) []
  obtain ⟨str, -, rfl⟩ := List.mem_map.mp member
  exact not_mem_cut

private def arrivals (env : List (Binary × Binary)) : List Variable :=
  (((get_env env).map to_wstring).takeWhile (· ≠ [])).filterMap (splitBehind 0x3D)

private theorem mem_arrivals {env : List (Binary × Binary)} {var : Variable} (member : var ∈ arrivals env) :
    ∃ entry ∈ env, splitBehind 0x3D (to_wstring (entry.1 ++ 0x3D :: entry.2)) = some var := by
  obtain ⟨wide, held, split⟩ := List.mem_filterMap.mp member
  obtain ⟨str, listed, rfl⟩ := List.mem_map.mp ((List.takeWhile_sublist _).subset held)
  obtain ⟨entry, inside, rfl⟩ := List.mem_map.mp listed
  exact ⟨entry, inside, split⟩

private theorem splitBehind_clean {entry : Binary × Binary} (clean : CleanEntry entry) :
    ∃ var, splitBehind 0x3D (to_wstring (entry.1 ++ 0x3D :: entry.2)) = some var ∧ Encoded entry var := by
  obtain ⟨name, value, first, second, full, plain, solid, valueSolid, whole⟩ := clean
  have absent : '\x00' ∉ name ++ '=' :: value := by
    simp only [List.mem_append, List.mem_cons, not_or]
    exact ⟨solid, by decide, valueSolid⟩
  refine ⟨(utf16 name, utf16 value), ?_, ⟨name, first, rfl⟩, ⟨value, second, rfl⟩⟩
  rw [← first, ← second, ← utf8_entry, to_wstring_whole absent whole, utf16_entry]
  exact splitBehind_eq_some.mpr
    ⟨mt utf16_eq_nil.mp full, mt equals_utf16.mp plain, rfl⟩

private theorem wides_clean {env : List (Binary × Binary)} (clean : ∀ entry ∈ env, CleanEntry entry) :
    ((get_env env).map to_wstring).takeWhile (· ≠ []) = (get_env env).map to_wstring := by
  refine List.takeWhile_eq_self_iff.mpr fun wide member => decide_eq_true fun none => ?_
  obtain ⟨str, listed, rfl⟩ := List.mem_map.mp member
  obtain ⟨entry, inside, rfl⟩ := List.mem_map.mp listed
  obtain ⟨var, split, -⟩ := splitBehind_clean (clean entry inside)
  rw [none] at split
  cases split

theorem sameMap_of_clean (env : Env) (clean : ∀ entry ∈ env.entries, CleanEntry entry) : SameMap env (arrivals env.entries) := by
  constructor
  · intro entry member
    obtain ⟨var, split, encoded⟩ := splitBehind_clean (clean entry member)
    refine ⟨var, List.mem_filterMap.mpr ⟨_, ?_, split⟩, encoded⟩
    rw [wides_clean clean]
    exact List.mem_map_of_mem (List.mem_map_of_mem member)
  · intro var member
    obtain ⟨entry, inside, split⟩ := mem_arrivals member
    obtain ⟨other, split', encoded⟩ := splitBehind_clean (clean entry inside)
    cases split.symm.trans split'
    exact ⟨entry, inside, encoded⟩

/-- An entry that has arrived is text, and some string of the block reads as it does. -/
private theorem arrived {env : Env} (same : SameMap env (arrivals env.entries)) {entry : Binary × Binary}
    (member : entry ∈ env.entries) :
    ∃ name value, (utf8 name, utf8 value) = entry ∧ name ≠ [] ∧ '=' ∉ name.tail ∧ '\x00' ∉ name ++ '=' :: value ∧
      ∃ other ∈ env.entries, to_wstring (other.1 ++ 0x3D :: other.2) = utf16 (name ++ '=' :: value) := by
  obtain ⟨⟨first, second⟩, held, ⟨name, encoded, rfl⟩, value, encoded', rfl⟩ := same.kept entry member
  obtain ⟨other, inside, split⟩ := mem_arrivals held
  obtain ⟨full, plain, shape⟩ := splitBehind_text split
  have solid : 0 ∉ utf16 (name ++ '=' :: value) := shape ▸ not_mem_cut
  exact ⟨name, value, Prod.ext encoded encoded', full, plain, fun nul => solid (nul_utf16.mpr nul), other, inside, shape⟩

private theorem same_entry (env : Env) {entry other : Binary × Binary} (member : entry ∈ env.entries)
    (inside : other ∈ env.entries) (name : entry.1 = other.1) : entry = other :=
  List.inj_on_of_nodup_map env.distinct member inside name

private theorem same_name {name other value more : Binary} (full : name ≠ []) (plain : 0x3D ∉ name.tail)
    (full' : other ≠ []) (plain' : 0x3D ∉ other.tail) (before : name ++ 0x3D :: value <+: other ++ 0x3D :: more) :
    name = other := by
  obtain ⟨rest, shape⟩ := before
  rw [List.append_assoc, List.cons_append] at shape
  have left := splitBehind_eq_some.mpr ⟨full, plain, shape.symm⟩
  have right := splitBehind_eq_some.mpr ⟨full', plain', (rfl : other ++ 0x3D :: more = _)⟩
  cases left.symm.trans right
  rfl

/-- What has arrived can be held by a block: the string that a variable was read from is
that of its own entry, because the names of a map differ. -/
theorem clean_of_sameMap (env : Env) (same : SameMap env (arrivals env.entries)) : ∀ entry ∈ env.entries, CleanEntry entry := by
  intro entry member
  obtain ⟨name, value, rfl, full, plain, solid, other, inside, reads⟩ := arrived same member
  obtain ⟨name', value', rfl, full', plain', solid', -⟩ := arrived same inside
  obtain ⟨text, before, reads', whole⟩ := to_wstring_reads (utf8 name' ++ 0x3D :: utf8 value')
  have absent : '\x00' ∉ text := by
    intro nul
    have held := before.subset (nul_utf8.mpr nul)
    rw [← utf8_entry] at held
    exact solid' (nul_utf8.mp held)
  rw [cut_utf16 absent] at reads'
  obtain rfl := utf16_inj (reads'.symm.trans reads)
  rw [utf8_entry] at before whole
  have named := same_name (mt utf8_eq_nil.mp full) (mt equals_utf8.mp plain) (mt utf8_eq_nil.mp full')
    (mt equals_utf8.mp plain') before
  have own := same_entry env member inside named
  rw [List.mem_append, List.mem_cons, not_or, not_or] at solid
  refine ⟨name, value, rfl, rfl, full, plain, solid.1, solid.2.2, whole ?_ (by simp)⟩
  rw [(Prod.mk.inj own).1, (Prod.mk.inj own).2]

end Blocks

section Calls

variable {system : System} {env : Env}

theorem built_envBlock (entries : List (Binary × Binary)) :
    system.built (envArg (envBlock (get_env entries))) = arrivals entries := by
  have block : envBlock (get_env entries) ≠ [] := List.append_ne_nil_of_right_ne_nil _ (List.cons_ne_nil _ _)
  rw [envArg, if_neg block]
  exact congrArg (List.filterMap (splitBehind 0x3D)) (entries_envBlock (get_env entries))

/-- Without a block it is the environment of the parent that has to be empty. -/
theorem sameMap_nil (none : env.entries = []) {environment : List Variable} : SameMap env environment ↔ environment = [] := by
  constructor
  · intro same
    refine List.eq_nil_iff_forall_not_mem.mpr fun var member => ?_
    obtain ⟨entry, inside, -⟩ := same.only var member
    rw [none] at inside
    exact absurd inside List.not_mem_nil
  · intro same
    subst same
    refine ⟨fun entry member => ?_, fun var member => absurd member List.not_mem_nil⟩
    rw [none] at member
    exact absurd member List.not_mem_nil

private theorem faithful_started {commandLine cwd : Wide} {block : Wide} :
    Faithful env (some (if !system.UpdateProcThreadAttribute then .error "UpdateProcThreadAttribute failed"
      else match system.CreateProcessW with
        | none => .error "Cannot create process"
        | some inner_pid => .ok inner_pid ⟨commandLine, cwd, system.built (envArg block)⟩)) ↔
      (Starts system → SameMap env (system.built (envArg block))) := by
  unfold Starts
  cases system.UpdateProcThreadAttribute with
  | false => simp [Faithful]
  | true => cases system.CreateProcessW <;> simp [Faithful]

theorem env_w_long (long : ¬ env.entries.length < 0x100000000) : env_w (get_env env.entries) = none := by
  have same : (get_env env.entries).length = env.entries.length := List.length_map _
  rw [env_w, same, if_neg (by omega), if_neg long]

end Calls

/-- The environment arrives as it was asked for exactly when the call fails or the map is
one that a block can hold. -/
theorem environment_faithful_iff (system : System) (pty_id : Int) (cmdline cwd : Binary) (env : Env) :
    Faithful env (expty_pty_connect system pty_id cmdline cwd env.entries) ↔
      (is_int pty_id → pty_id ∈ system.ptyHandles → Clean system env) := by
  by_cases int : is_int pty_id
  case neg =>
    rw [expty_pty_connect, if_pos int]
    exact ⟨fun _ known => absurd known int, fun _ => trivial⟩
  by_cases known : pty_id ∈ system.ptyHandles
  case neg =>
    rw [expty_pty_connect, if_neg (not_not.mpr int), if_pos known]
    exact ⟨fun _ _ held => absurd held known, fun _ => trivial⟩
  rw [expty_pty_connect, if_neg (not_not.mpr int), if_neg (not_not.mpr known)]
  have names : (get_env env.entries).length = env.entries.length := List.length_map _
  by_cases size : env.entries.length < 0x100000000
  case neg =>
    rw [env_w_long size]
    exact ⟨False.elim, fun clean => size (clean int known).size⟩
  by_cases empty : env.entries = []
  · have block : env_w (get_env env.entries) = some [] := if_pos (names.trans (List.length_eq_zero_iff.mpr empty))
    rw [block]
    refine faithful_started.trans ⟨fun same _ _ => ⟨size, fun starts _ => ?_, fun _ entry member => ?_⟩, fun clean starts => ?_⟩
    · exact (sameMap_nil empty).mp (same starts)
    · rw [empty] at member
      exact absurd member List.not_mem_nil
    · exact (sameMap_nil empty).mpr ((clean int known).empty starts empty)
  · have block : env_w (get_env env.entries) = some (envBlock (get_env env.entries)) := by
      rw [env_w, names, if_neg (mt List.length_eq_zero_iff.mp empty), if_pos size]
    rw [block]
    refine faithful_started.trans ?_
    rw [built_envBlock]
    refine ⟨fun same _ _ => ⟨size, fun _ none => absurd none empty, fun starts => ?_⟩, fun clean starts => ?_⟩
    · exact clean_of_sameMap env (same starts)
    · exact sameMap_of_clean env ((clean int known).entries starts)

def conpty : System := { ptyHandles := [1], UpdateProcThreadAttribute := true, CreateProcessW := some 7, environment := [] }

/-- `%{"A" => <<0xFF>>, "B" => "x"}` -/
def brokenValue : Env := ⟨[([0x41], [0xFF]), ([0x42], [0x78])], by decide⟩

theorem broken_value_ends_block :
    expty_pty_connect conpty 1 [0x67] [] brokenValue.entries = some (.ok 7 ⟨[0x67], [], []⟩) ∧
      ¬ Faithful brokenValue (expty_pty_connect conpty 1 [0x67] [] brokenValue.entries) := by
  have result : expty_pty_connect conpty 1 [0x67] [] brokenValue.entries = some (.ok 7 ⟨[0x67], [], []⟩) := by decide
  refine ⟨result, fun faithful => ?_⟩
  rw [result] at faithful
  obtain ⟨var, member, -⟩ := faithful.kept _ (.tail _ (.head _))
  exact absurd member List.not_mem_nil

end ExPTY.Proofs.FaithfulEnvironment
