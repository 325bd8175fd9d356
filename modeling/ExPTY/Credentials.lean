import ExPTY.Launch

/-! The user and group ids of the process that `expty_spawn` starts. The helper changes
the user first and the group after it, and whether the kernel allows the second change
depends on what the first has left. -/

namespace ExPTY.Credentials
open Launch (Call)

structure Ids where
  real : Nat
  effective : Nat
  saved : Nat
  deriving DecidableEq, Repr

def Ids.all (id : Nat) : Ids := ⟨id, id, id⟩

structure Process where
  uid : Ids
  gid : Ids
  /-- The supplementary groups, which neither call looks at. -/
  groups : List Nat := []
  deriving DecidableEq, Repr

def EPERM : Int := 1

/-- The argument as the unsigned number that the kernel gets. -/
def id_t (value : Int) : Nat := (BitVec.ofInt 32 value).toNat

namespace Process

def privileged (process : Process) : Bool := process.uid.effective = 0

/-- The ids after a change: all three by a privileged process, else only the effective one. -/
def change (process : Process) (ids : Ids) (id : Nat) : Except Int Ids :=
  if process.privileged then .ok (.all id)
  else if id = ids.real ∨ id = ids.saved then .ok { ids with effective := id }
  else .error EPERM

def setuid (process : Process) (uid : Int) : Except Int Process :=
  (process.change process.uid (id_t uid)).map fun uid => { process with uid }

def setgid (process : Process) (gid : Int) : Except Int Process :=
  (process.change process.gid (id_t gid)).map fun gid => { process with gid }

/-- A new program, without set-id bits, keeps the effective ids as the saved ones. -/
def exec (process : Process) : Process :=
  { process with
    uid := { process.uid with saved := process.uid.effective }
    gid := { process.gid with saved := process.gid.effective } }

end Process

/-- A helper call that is skipped for -1 and bails out when it fails. -/
def attempt (call : Call) (value : Int) (result : Except Int Process) (process : Process) : Except (Call × Int) Process :=
  if value ≠ -1 then result.mapError (call, ·) else .ok process

/-- The identity changes of the helper's `main`. -/
def main (uid gid : Int) (process : Process) : Except (Call × Int) Process := do
  let process ← attempt .setuid uid (process.setuid uid) process
  attempt .setgid gid (process.setgid gid) process

/-- `expty_spawn` puts the caller's own ids for -2. -/
def own (id : Nat) (value : Int) : Int := if value = -2 then id else value

/-- The helper of a spawn at its `execvp`, when nothing but an identity change fails before. -/
def spawned (caller : Process) (uid gid : Int) : Except (Call × Int) Process :=
  main (own caller.uid.real uid) (own caller.gid.real gid) caller.exec

end ExPTY.Credentials
