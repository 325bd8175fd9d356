import ExPTY.OwnerCell

/-! The memory of a `pty_pipesocket` of src/c_src/unix/pty.cpp, which the runtime frees when
its last reference goes. The code holds one from `enif_alloc_resource` to
`enif_release_resource`, every Erlang term for it holds one, and a native call keeps its
argument until it returns. -/

namespace ExPTY.SessionResource
open OwnerCell (Session)

/-- A session after `expty_spawn`, which has made the first term. -/
structure Resource where
  session : Session := {}
  refc : Nat := 2
  frees : Nat := 0
  /-- The terms that no native call has for its argument. -/
  terms : Nat := 1
  calls : Nat := 0
  /-- The accesses to the memory after it was freed. -/
  misuses : Nat := 0
  deriving DecidableEq, Repr

inductive Event where
  | session (event : OwnerCell.Event)
  -- the runtime, when a term is sent on or collected
  | copy_term | drop_term
  -- `enif_get_resource` in a native call, and what the call does with it
  | enter | access | leave
  deriving DecidableEq, Repr

/-- The steps of the reader and of the loop that go through the `pty_pipesocket` pointer. The
waiter has the baton only. -/
def touches : OwnerCell.Event → Bool
  | .read _ | .send_data | .end_of_file | .post_pipesocket => true
  | .after_pipesocket | .free_pipesocket_process | .release_pipesocket => true
  | _ => false

/-- The steps of the default loop. -/
def in_loop : OwnerCell.Event → Bool
  | .after_waitpid | .after_close | .after_pipesocket | .free_pipesocket_process | .release_pipesocket => true
  | _ => false

namespace Resource

def use (resource : Resource) : Resource :=
  { resource with misuses := resource.misuses + if resource.frees = 0 then 0 else 1 }

def release (resource : Resource) : Resource :=
  { resource with refc := resource.refc - 1, frees := resource.frees + if resource.refc = 1 then 1 else 0 }

def moved (resource : Resource) (event : OwnerCell.Event) (session : Session) : Resource :=
  let used := if touches event then resource.use else resource
  let next := { used with session }
  if event = .release_pipesocket then next.release else next

def step (resource : Resource) : Event → Option Resource
  | .session event => (resource.session.step event).map (resource.moved event)
  | .copy_term =>
    if resource.terms > 0 then some { resource with refc := resource.refc + 1, terms := resource.terms + 1 } else none
  | .drop_term =>
    if resource.terms > 0 then some { resource.release with terms := resource.terms - 1 } else none
  | .enter =>
    if resource.terms > 0 then some { resource with terms := resource.terms - 1, calls := resource.calls + 1 } else none
  | .access => if resource.calls > 0 then some resource.use else none
  | .leave =>
    if resource.calls > 0 then some { resource with terms := resource.terms + 1, calls := resource.calls - 1 } else none

end Resource

end ExPTY.SessionResource
