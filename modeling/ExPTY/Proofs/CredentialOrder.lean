import ExPTY.Credentials
import ExPTY.NativeCalls

/-! Which credentials the program gets. After `setuid` has given up the effective uid 0,
`setgid` can only choose among the group ids that the helper has, and then it changes
no more than the effective one. -/

namespace ExPTY.Proofs.CredentialOrder
open Credentials Launch Runs
open NativeCalls (is_int)

section Calls
variable {process : Process}

theorem id_t_eq {value : Int} (positive : 0 ≤ value) (bounded : is_int value) : (id_t value : Int) = value := by
  have below : value < 0x80000000 := bounded.2
  rw [id_t, BitVec.toNat_ofInt]
  omega

theorem setuid_privileged (root : process.uid.effective = 0) (uid : Int) :
    process.setuid uid = .ok { process with uid := .all (id_t uid) } := by
  simp [Process.setuid, Process.change, Process.privileged, root, Except.map]

theorem setgid_privileged (root : process.uid.effective = 0) (gid : Int) :
    process.setgid gid = .ok { process with gid := .all (id_t gid) } := by
  simp [Process.setgid, Process.change, Process.privileged, root, Except.map]

theorem setgid_unprivileged (other : process.uid.effective ≠ 0) (gid : Int) :
    process.setgid gid =
      if id_t gid = process.gid.real ∨ id_t gid = process.gid.saved then
        .ok { process with gid := { process.gid with effective := id_t gid } }
      else .error EPERM := by
  simp only [Process.setgid, Process.change, Process.privileged, other, decide_false, Bool.false_eq_true, if_false]
  split <;> rfl

end Calls

section Spawns
variable {caller : Process} {uid gid : Int}

theorem own_eq (id : Nat) {value : Int} (positive : 0 ≤ value) : own id value = value := by
  have other : value ≠ -2 := by omega
  exact if_neg other

/-- The helper of a privileged caller after `setuid`. -/
def identified (caller : Process) (uid : Int) : Process := { caller.exec with uid := .all (id_t uid) }

theorem spawned_eq (root : caller.uid.effective = 0) (positive : 0 ≤ uid) (positive' : 0 ≤ gid) :
    spawned caller uid gid = ((identified caller uid).setgid gid).mapError (Call.setgid, ·) := by
  have made : uid ≠ -1 := by omega
  have made' : gid ≠ -1 := by omega
  have exec_root : caller.exec.uid.effective = 0 := root
  rw [spawned, own_eq _ positive, own_eq _ positive', main, attempt, if_pos made, setuid_privileged exec_root]
  exact if_pos made'

/-- The helper gets to `execvp` with the requested ids, all three of each kind. -/
def Applied (caller : Process) (uid gid : Int) : Prop :=
  ∃ process, spawned caller uid gid = .ok process ∧ process.uid = .all uid.toNat ∧ process.gid = .all gid.toNat

private theorem all_id_t {value : Int} (positive : 0 ≤ value) (bounded : is_int value) :
    Ids.all (id_t value) = .all value.toNat := by
  have same := id_t_eq positive bounded
  have cast : id_t value = value.toNat := by omega
  rw [cast]

private theorem applied_root (root : caller.uid.effective = 0) (positive : 0 ≤ gid) (bounded : is_int gid) :
    Applied caller 0 gid := by
  have zero : id_t 0 = 0 := by decide
  have still : (identified caller 0).uid.effective = 0 := zero
  refine ⟨{ identified caller 0 with gid := .all (id_t gid) }, ?_, congrArg Ids.all zero, all_id_t positive bounded⟩
  rw [spawned_eq root (Int.le_refl 0) positive, setgid_privileged still]
  rfl

/-- A privileged caller gets the requested ids exactly when it asks for uid 0, or its own real
and effective gid are the requested gid already. -/
theorem credentials_applied_iff (root : caller.uid.effective = 0) (positive : 0 ≤ uid) (positive' : 0 ≤ gid)
    (bounded : is_int uid) (bounded' : is_int gid) :
    Applied caller uid gid ↔ uid = 0 ∨ (caller.gid.real : Int) = gid ∧ (caller.gid.effective : Int) = gid := by
  by_cases zero : uid = 0
  · subst zero
    exact iff_of_true (applied_root root positive' bounded') (.inl rfl)
  have other : (identified caller uid).uid.effective ≠ 0 := by
    have same := id_t_eq positive bounded
    change id_t uid ≠ 0
    omega
  have given := id_t_eq positive' bounded'
  have held : (identified caller uid).gid = ⟨caller.gid.real, caller.gid.effective, caller.gid.effective⟩ := rfl
  rw [Applied, spawned_eq root positive positive', setgid_unprivileged other, held]
  constructor
  · intro ⟨process, reached, _, gids⟩
    split at reached
    · cases reached
      have same : caller.gid.real = gid.toNat ∧ id_t gid = gid.toNat ∧ caller.gid.effective = gid.toNat := Ids.mk.inj gids
      exact .inr ⟨by omega, by omega⟩
    · cases reached
  · intro requested
    obtain ⟨real, effective⟩ := requested.resolve_left zero
    have same : caller.gid.real = gid.toNat ∧ caller.gid.effective = gid.toNat ∧ id_t gid = gid.toNat := by omega
    obtain ⟨real, effective, given⟩ := same
    rw [real, effective, given, if_pos (.inl rfl)]
    exact ⟨_, rfl, all_id_t positive bounded, rfl⟩

/-- Root with the gid 1000 throughout, as `setegid` does not leave it. -/
def grouped : Process := { uid := .all 0, gid := .all 1000 }

theorem credentials_applied_grouped : Applied grouped 1000 1000 :=
  (credentials_applied_iff rfl (by decide) (by decide) (by decide) (by decide)).mpr (.inr ⟨rfl, rfl⟩)

/-- Root asks for user and group 1000. The user comes first, and `setgid` is refused. -/
theorem setuid_first_loses_group :
    let root : Process := { uid := .all 0, gid := .all 0 }
    spawned root 1000 1000 = .error (.setgid, EPERM) ∧ ¬ Applied root 1000 1000 := by
  have refused : spawned { uid := .all 0, gid := .all 0 } 1000 1000 = .error (.setgid, EPERM) := rfl
  refine ⟨refused, ?_⟩
  intro ⟨process, reached, _⟩
  cases refused.symm.trans reached

end Spawns

section Launch

/-- How the two changes come out, as events of the launch protocol. -/
def changes (uid gid : Int) (process : Process) : List Event :=
  match main uid gid process with
  | .ok _ => [.setuid none, .setgid none]
  | .error (.setuid, errno) => [.setuid (some errno)]
  | .error (_, errno) => [.setuid none, .setgid (some errno)]

private theorem attempt_error {call failed : Call} {value errno : Int} {result : Except Int Process} {process : Process}
    (bails : attempt call value result process = .error (failed, errno)) : value ≠ -1 ∧ failed = call := by
  unfold attempt at bails
  split at bails
  next made =>
    cases result with
    | error => cases bails; exact ⟨made, rfl⟩
    | ok => cases bails
  next => cases bails

/-- The launch protocol takes the helper where its credentials say: to `execvp`, or to the
report of the change that failed. -/
theorem launch_follows (strerror : Int → String) (request : Request) (process : Process) :
    ∃ state, exec (State.step strerror) { request }
        ([.posix_spawn none, .ioctl none, .chdir none] ++ changes request.uid request.gid process) = some state ∧
      state.helper = match main request.uid request.gid process with
        | .ok _ => .execvp
        | .error (call, errno) => .bail call errno := by
  have middle : exec (State.step strerror) { request } [.posix_spawn none, .ioctl none, .chdir none] =
      some { request, helper := .setuid, parent := .reading } := by
    simp [exec, State.step, State.attempt]
  rw [exec_append, middle, Option.bind_some, changes, main]
  cases user : attempt .setuid request.uid (process.setuid request.uid) process with
  | error failure =>
    obtain ⟨call, errno⟩ := failure
    obtain ⟨made, rfl⟩ := attempt_error user
    refine ⟨{ request, helper := .bail .setuid errno, parent := .reading }, ?_, rfl⟩
    simp [bind, Except.bind, exec, State.step, State.attempt, made]
  | ok process =>
    cases group : attempt .setgid request.gid (process.setgid request.gid) process with
    | error failure =>
      obtain ⟨call, errno⟩ := failure
      obtain ⟨made, rfl⟩ := attempt_error group
      refine ⟨{ request, helper := .bail .setgid errno, parent := .reading }, ?_, ?_⟩
      · simp [bind, Except.bind, group, exec, State.step, State.attempt, made]
      · simp [bind, Except.bind, group]
    | ok process =>
      refine ⟨{ request, helper := .execvp, parent := .reading }, ?_, ?_⟩
      · simp [bind, Except.bind, group, exec, State.step, State.attempt]
      · simp [bind, Except.bind, group]

end Launch

end ExPTY.Proofs.CredentialOrder
