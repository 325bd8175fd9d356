import ExPTY.Decimal
import ExPTY.NifTerms

/-! The way of a Unix spawn from the caller of `ExPTY.spawn/3` to the program: the native
call that the server comes to make, as the terms of its arguments, and after the native
spawn the numbers that the helper reads in its own arguments before it runs the program. -/

namespace ExPTY.SpawnPath
open Decimal
open Elixir (Value)
open Handover (Platform Program)
open NativeCalls (is_int)
open NifTerms (Terms expty_spawn truth)
open Server (Binary)
open Start (Native Outcome)

/-- The arguments of a native spawn. -/
def terms : Native → Option Terms
  | .spawn_unix file args env cwd cols rows ibaudrate obaudrate uid gid is_utf8 closeFDs echo? helperPath =>
    some
      { file, args, env, cwd := .binary cwd, cols, rows, ibaudrate, obaudrate, uid, gid, is_utf8 := truth is_utf8, closeFDs
        echo := echo?, helper_path := .binary helperPath }
  | _ => none

/-- What the helper does to itself before and with `execvp`. -/
structure Started where
  chdir : Option Binary
  uid : Int
  gid : Int
  closeFDs : Bool
  file : Binary
  argv : List Binary
  environ : List Binary
  deriving DecidableEq, Repr

/-- `main` of the helper with the numbers of its arguments, where `std::stoi` may throw. -/
def main (program : Program) : Option Started := do
  let uid ← stoi (is_int ·) program.uid
  let gid ← stoi (is_int ·) program.gid
  let closeFDs ← stoi (is_int ·) program.closeFDs
  return { chdir := program.chdir, uid, gid, closeFDs := closeFDs ≠ 0, file := program.file, argv := program.argv
           environ := program.environ }

/-- What the native calls of a spawn start, when no system call on the way fails. -/
def started (maps : Nat → Option (List (Value × Value))) (platform : Platform) (outcome : Outcome) : List Started :=
  outcome.calls.filterMap fun call => do
    let terms ← terms call
    let program ← expty_spawn maps platform terms
    main program

end ExPTY.SpawnPath
