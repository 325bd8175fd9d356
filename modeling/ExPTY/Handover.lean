import ExPTY.Decimal
import ExPTY.Delimited
import ExPTY.NativeCalls

/-! How `expty_spawn` hands its arguments to the helper, and the helper to the program.
Erlang binaries become `std::string`, then `strdup`ed C strings in pointer vectors, then
the helper's `argv` and `environ`. What the helper asks of the kernel is recorded here;
whether the kernel does it is the matter of the launch protocol. -/

namespace ExPTY.Handover
open Delimited
open NativeCalls (is_int)
open Server (Binary SpawnUnix)

/-- `strdup(s.c_str())` -/
def strdup (s : Binary) : Binary := cut 0 s

/-- An element of a `char **`, which `new char *[n]` leaves as it was. -/
inductive Slot where
  | uninitialized
  | null
  | text (s : Binary)
  deriving DecidableEq, Repr

def fill (slots : List Slot) (offset : Nat) : List Binary → List Slot
  | [] => slots
  | s :: rest => fill (slots.set offset (.text (strdup s))) (offset + 1) rest

/-- A process gets its vectors up to the first null pointer. -/
def received : List Slot → Option (List Binary)
  | .null :: _ => some []
  | .text s :: rest => (received rest).map (s :: ·)
  | _ => none

/-- A map from names to values, in the order in which it is iterated. -/
structure Env where
  entries : List (Binary × Binary)
  distinct : (entries.map Prod.fst).Nodup

/-- `nif::get_env`, over the pairs in the order of the iterator. -/
def get_env (env : List (Binary × Binary)) : List Binary := env.map fun entry => entry.1 ++ 0x3D :: entry.2

def envs_c (envs : List Binary) : List Slot :=
  let envc := envs.length
  fill ((List.replicate (envc + 1) Slot.uninitialized).set envc .null) 0 envs

structure Platform where
  getuid : Int
  getgid : Int
  HAVE_POSIX_SPAWN_CLOEXEC_DEFAULT : Bool

/-- `std::to_string` -/
def to_string (value : Int) : Binary := Decimal.format value

def EXTRA_ARGS : Nat := 6

def argv (platform : Platform) (request : SpawnUnix) : List Slot :=
  let explicitlyCloseFDs := request.closeFDs && !platform.HAVE_POSIX_SPAWN_CLOEXEC_DEFAULT
  let argc := request.args.length
  let argl := argc + EXTRA_ARGS + 1
  let uid := if request.uid = -2 then platform.getuid else request.uid
  let gid := if request.gid = -2 then platform.getgid else request.gid
  let argv := List.replicate argl Slot.uninitialized
  let argv := argv.set 0 (.text (strdup request.helperPath))
  let argv := argv.set 1 (.text (strdup request.cwd))
  let argv := argv.set 2 (.text (strdup (to_string uid)))
  let argv := argv.set 3 (.text (strdup (to_string gid)))
  let argv := argv.set 4 (.text (strdup (if explicitlyCloseFDs then [0x31] else [0x30])))
  let argv := argv.set 5 (.text (strdup request.file))
  let argv := argv.set (argl - 1) .null
  fill argv EXTRA_ARGS request.args

/-- The calls of the helper before and with `execvp`. -/
structure Program where
  chdir : Option Binary
  uid : Binary
  gid : Binary
  closeFDs : Binary
  file : Binary
  argv : List Binary
  environ : List Binary
  deriving DecidableEq, Repr

/-- `main` of the helper. Its numbers are kept as the texts that `std::stoi` reads. -/
def main (argv environ : List Binary) : Option Program := do
  let cwd ← argv[1]?
  let uid ← argv[2]?
  let gid ← argv[3]?
  let closeFDs ← argv[4]?
  let file ← argv[5]?
  return { chdir := if cwd.length ≠ 0 then some cwd else none, uid, gid, closeFDs, file, argv := argv.drop 5, environ }

def accepts (request : SpawnUnix) : Prop :=
  is_int request.cols ∧ request.cols > 0 ∧ is_int request.rows ∧ request.rows > 0 ∧
    is_int request.ibaudrate ∧ request.ibaudrate ≥ 0 ∧ is_int request.obaudrate ∧ request.obaudrate ≥ 0 ∧
    is_int request.uid ∧ is_int request.gid

instance (request : SpawnUnix) : Decidable (accepts request) := inferInstanceAs (Decidable (_ ∧ _))

/-- `expty_spawn` up to the helper's `execvp`, when no step on the way fails. -/
def expty_spawn (platform : Platform) (request : SpawnUnix) : Option Program :=
  if accepts request then do
    let argv ← received (argv platform request)
    let environ ← received (envs_c (get_env request.env))
    main argv environ
  else none

/-- `getenv` of the program: the first entry whose text before its first `=` is the name. -/
def getenv (environ : List Binary) (name : Binary) : Option Binary :=
  environ.findSome? fun entry =>
    (splitFirst 0x3D entry).bind fun sides => if sides.1 = name then some sides.2 else none

end ExPTY.Handover
