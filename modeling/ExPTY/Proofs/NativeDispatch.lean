import ExPTY.NativeTable
import ExPTY.Proofs.ConsoleStart

/-! Where the native calls go. On Unix each goes to its own implementation. The Windows
table names `spawn_unix` with one argument too few, so that the runtime refuses the whole
library, and no spawn there comes to a session. -/

namespace ExPTY.Proofs.NativeDispatch
open Elixir NativeTable Start

variable {host : Host} {own answers : Answers} {file args : Value} {opts : Option Keyword}

section Tables
variable {functions : List Function} {table : List Entry}

/-- A library loads exactly when the module defines all that its table names. -/
theorem load_nif_iff : load_nif functions true table = .ok () ↔ ∀ entry ∈ table, entry.function ∈ functions := by
  unfold load_nif
  simp only [Bool.not_true, Bool.false_eq_true, if_false]
  split
  next entry found =>
    have member := List.mem_of_find?_eq_some found
    have absent : entry.function ∉ functions := by simpa using List.find?_some found
    exact iff_of_false (fun loaded => by cases loaded) (fun all => absent (all entry member))
  next none =>
    refine iff_of_true rfl ?_
    intro entry member
    have present := List.find?_eq_none.mp none entry member
    simpa using present

theorem load_natives (all : ∀ entry ∈ table, entry.function ∈ functions) :
    Module.load functions true table = .natives table := by
  rw [Module.load, load_nif_iff.mpr all]

/-- Nothing runs in a library that names a function the module does not define. -/
theorem call_refused {entry : Entry} (member : entry ∈ table) (undefined : entry.function ∉ functions) (opened : Bool)
    (function : Function) : (Module.load functions opened table).call function = none := by
  cases opened with
  | false => rfl
  | true =>
    rw [Module.load]
    cases loads : load_nif functions true table with
    | ok => exact absurd (load_nif_iff.mp loads entry member) undefined
    | error reason =>
      cases reason with
      | load_failed | bad_lib => rfl
      | reload =>
        simp only [load_nif, Bool.not_true, Bool.false_eq_true, if_false] at loads
        split at loads <;> cases loads

end Tables

section Unix

private theorem unix_natives : Module.load defined true (nif_functions .unix) = .natives (nif_functions .unix) :=
  load_natives (by decide)

theorem call_own (call : Server.Nif.Call) :
    (Module.load defined true (nif_functions .unix)).call (function call) = some (implementation call) := by
  rw [unix_natives]
  cases call <;> rfl

theorem spawn_own (os : host.os_type = .unix) :
    spawn host ((Module.load defined true (nif_functions .unix)).answers own) file args opts =
      spawn host own file args opts := by
  rw [unix_natives]
  have same : ((Module.natives (nif_functions .unix)).answers own).spawn_unix = own.spawn_unix := rfl
  unfold spawn
  cases accepted : init host file args opts with
  | none => rfl
  | some pack =>
    obtain ⟨pack, rfl⟩ := SpawnOptions.init_unix_pack os accepted
    simp only [Pack.do_spawn, UnixPack.do_spawn, same]

end Unix

section Windows

/-- A spawn without a session, and without a client whatever the machine is. -/
structure Fails (outcome : Outcome) : Prop where
  server : outcome.server = none
  returned : outcome.returned = .init_error ∨ outcome.returned = .exit
  started : ∀ machine : ConptyPath.Machine, machine.started outcome = []

/-- No session without a native spawn. -/
theorem spawn_fails (os : host.os_type = .win32) (raises : answers.spawn_win32 = .badarg) :
    Fails (spawn host answers file args opts) := by
  unfold spawn
  cases accepted : init host file args opts with
  | none => exact ⟨rfl, .inl rfl, fun _ => rfl⟩
  | some pack =>
    obtain ⟨pack, rfl⟩ := SpawnOptions.init_win32_pack os accepted
    simp only [Pack.do_spawn, Win32Pack.do_spawn, raises]
    exact ⟨rfl, .inr rfl, fun _ => rfl⟩

theorem windows_raises (opened : Bool) (function : Function) :
    (Module.load defined opened (nif_functions .win32)).call function = none := by
  have undefined : (⟨"spawn_unix", 13⟩ : Function) ∉ defined := by decide
  exact call_refused (.tail _ (.tail _ (.tail _ (.tail _ (.head _))))) undefined opened function

end Windows

/-- On Unix the library loads and every native call reaches the implementation that is meant
for it. On Windows the library is refused for its entry for `spawn_unix`, so that every
native call raises, whether the library is found or not, and a spawn never comes to a
session or a client. -/
theorem natives_reached (own : Answers) (host : Host) (file args : Value) (opts : Option Keyword) :
    (load_nif defined true (nif_functions .unix) = .ok () ∧
      (∀ call : Server.Nif.Call,
        (Module.load defined true (nif_functions .unix)).call (function call) = some (implementation call)) ∧
      (host.os_type = .unix →
        spawn host ((Module.load defined true (nif_functions .unix)).answers own) file args opts =
          spawn host own file args opts)) ∧
    load_nif defined true (nif_functions .win32) = .error (.bad_lib ⟨"spawn_unix", 13⟩) ∧
      (∀ opened function, (Module.load defined opened (nif_functions .win32)).call function = none) ∧
        (host.os_type = .win32 → ∀ opened,
          Fails (spawn host ((Module.load defined opened (nif_functions .win32)).answers own) file args opts)) := by
  refine ⟨⟨load_nif_iff.mpr (by decide), call_own, spawn_own⟩, rfl, windows_raises, ?_⟩
  intro os opened
  apply spawn_fails os
  simp only [Module.answers, Module.answer, windows_raises]

theorem natives_reached_both :
    (spawn SpawnOptions.machine
        ((Module.load defined true (nif_functions .unix)).answers ⟨.value (0, 7, []), .badarg, .badarg⟩) .nil .nil
        (some [])).returned = .ok ∧
      (spawn ConsoleStart.windows ((Module.load defined true (nif_functions .win32)).answers ConsoleStart.answering) .nil
        .nil (some [])).server = none := by
  constructor
  · rw [(natives_reached _ SpawnOptions.machine .nil .nil (some [])).1.2.2 rfl]
    rfl
  · exact ((natives_reached ConsoleStart.answering ConsoleStart.windows .nil .nil (some [])).2.2.2 rfl true).server

end ExPTY.Proofs.NativeDispatch
