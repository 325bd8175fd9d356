import ExPTY.Handover
import ExPTY.Start

/-! How the native code reads its arguments: the functions of src/c_src/nif_utils.h over
Erlang terms, and the condition at the head of `expty_spawn`, which takes its fourteen
terms one after the other and answers an error at the first that it cannot read. -/

namespace ExPTY.NifTerms
open Elixir (Value)
open Handover (Platform Program argv envs_c main received)
open NativeCalls (is_int)
open Server (Binary SpawnUnix)

/-- `enif_get_list_length`, for proper lists only. -/
def enif_get_list_length : Value → Option Nat
  | .empty => some 0
  | .cons _ tail => (enif_get_list_length tail).map (· + 1)
  | _ => none

/-- A character of `ERL_NIF_LATIN1`. -/
def latin1 : Value → Option UInt8
  | .integer value => if 0 ≤ value ∧ value < 256 then some (.ofNat value.toNat) else none
  | _ => none

def characters : Value → Option Binary
  | .empty => some []
  | .cons head tail => do return (← latin1 head) :: (← characters tail)
  | _ => none

/-- `enif_get_string`: the bytes written with the zero at the end, negative for a text that
is cut, and the text in the buffer. -/
def enif_get_string (term : Value) (size : Nat) : Int × Binary :=
  match characters term with
  | none => (0, [])
  | some text =>
    if size < 1 then (0, [])
    else if text.length < size then (text.length + 1, text)
    else (-size, text.take (size - 1))

/-- `nif::get` of a `std::string`, with `none` for a result of 0. -/
def get_string : Value → Option Binary
  | .binary bytes => some bytes
  | term => do
    let len ← enif_get_list_length term
    let (ret, text) := enif_get_string term (len + 1)
    if ret > 0 then some (text.take (ret - 1).toNat)
    else if ret = 0 then none
    -- a text that is cut keeps the length of the buffer
    else some (text ++ List.replicate (len + 1 - text.length) 0)

def get_atom : Value → Option Binary
  | .atom name =>
    if name.toList.all (·.toNat < 256) then some (name.toList.map fun c => .ofNat c.toNat) else none
  | _ => none

/-- The term of a truth value. -/
def truth (value : Bool) : Value := .atom (if value then "true" else "false")

/-- `nif::get` of a `bool`. -/
def get_bool (term : Value) : Option Bool := (get_atom term).map (· = [0x74, 0x72, 0x75, 0x65])

/-- `nif::get` of an `int`. -/
def get_int : Value → Option Int
  | .integer value => if is_int value then some value else none
  | _ => none

/-- The loop over `enif_get_list_cell`. -/
def get_cells : Value → Option (List Binary)
  | .cons (.binary bytes) tail => (get_cells tail).map (bytes :: ·)
  | .cons _ _ => none
  | _ => some []

def get_list (list : Value) : Option (List Binary) := (enif_get_list_length list).bind fun _ => get_cells list

/-- The loop over `enif_map_iterator_get_pair`. -/
def get_pairs : List (Value × Value) → Option (List Binary)
  | [] => some []
  | (key, value) :: rest => do
    let var_name ← get_string key
    let var_value ← get_string value
    return (var_name ++ 0x3D :: var_value) :: (← get_pairs rest)

/-- `nif::get_env`, given the pairs of the terms that are maps. -/
def get_env (maps : Nat → Option (List (Value × Value))) : Value → Option (List Binary)
  | .other id => (maps id).bind get_pairs
  | _ => none

/-- The local variables of `expty_spawn`. -/
structure Locals where
  file : Binary
  args : List Binary
  envs : List Binary
  cwd : Binary
  cols : Int
  rows : Int
  ibaudrate : Int
  obaudrate : Int
  uid : Int
  gid : Int
  is_utf8 : Bool
  closeFDs : Bool
  echo : Bool
  helper_path : Binary
  deriving DecidableEq, Repr

/-- The terms of a call of `ExPTY.Nif.spawn_unix`. -/
structure Terms where
  file : Value
  args : Value
  env : Value
  cwd : Value
  cols : Value
  rows : Value
  ibaudrate : Value
  obaudrate : Value
  uid : Value
  gid : Value
  is_utf8 : Value
  closeFDs : Value
  echo : Value
  helper_path : Value

def at_least (bound value : Int) : Option Unit := if value ≥ bound then some () else none

def Terms.read (maps : Nat → Option (List (Value × Value))) (terms : Terms) : Option Locals := do
  let file ← get_string terms.file
  let args ← get_list terms.args
  let envs ← get_env maps terms.env
  let cwd ← get_string terms.cwd
  let cols ← get_int terms.cols
  at_least 1 cols
  let rows ← get_int terms.rows
  at_least 1 rows
  let ibaudrate ← get_int terms.ibaudrate
  at_least 0 ibaudrate
  let obaudrate ← get_int terms.obaudrate
  at_least 0 obaudrate
  let uid ← get_int terms.uid
  let gid ← get_int terms.gid
  let is_utf8 ← get_bool terms.is_utf8
  let closeFDs ← get_bool terms.closeFDs
  let echo ← get_bool terms.echo
  let helper_path ← get_string terms.helper_path
  return { file, args, envs, cwd, cols, rows, ibaudrate, obaudrate, uid, gid, is_utf8, closeFDs, echo, helper_path }

/-- The request with these locals, of which the environment goes its own way. -/
def Locals.request (locals : Locals) : SpawnUnix :=
  { file := locals.file, args := locals.args, env := [], cwd := locals.cwd, cols := locals.cols, rows := locals.rows
    ibaudrate := locals.ibaudrate, obaudrate := locals.obaudrate, uid := locals.uid, gid := locals.gid
    is_utf8 := locals.is_utf8, closeFDs := locals.closeFDs, echo? := locals.echo, helperPath := locals.helper_path }

/-- The rest of `expty_spawn` and the helper, when no step on the way fails. -/
def Locals.launch (platform : Platform) (locals : Locals) : Option Program := do
  let argv ← received (argv platform locals.request)
  let environ ← received (envs_c locals.envs)
  main argv environ

def expty_spawn (maps : Nat → Option (List (Value × Value))) (platform : Platform) (terms : Terms) : Option Program :=
  (terms.read maps).bind (Locals.launch platform)

end ExPTY.NifTerms
