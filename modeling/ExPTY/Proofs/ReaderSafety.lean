import ExPTY.ReaderThread
import ExPTY.Runs

/-! What the reader thread hands to `FD_SET`, to the allocator and to the server. `read`
returns a signed number that is kept in an unsigned one, and the descriptor's number
is never compared with the size of an `fd_set`. -/

namespace ExPTY.Proofs.ReaderSafety
open ReaderThread Runs
open Server (Binary)

/-- Every read that returned bytes was sent on as they are, a failing read was not, and no
index or length is outside of what it is used with. -/
structure Clean (thread : Thread) : Prop where
  indices : ∀ index ∈ thread.indices, index < FD_SETSIZE
  sizes : ∀ size ∈ thread.sizes, 1 ≤ size ∧ size ≤ 1024
  messages : thread.sent = (thread.reads.filterMap id).filter fun bytes => !bytes.isEmpty
  payloads : thread.sent.flatten = (thread.reads.filterMap id).flatten

/-- Whether the turn gets to its `read`. -/
def reads (turn : Turn) : Bool :=
  match turn.select with
  | .ready | .EINTR true => true
  | .error | .EINTR false => false

/-- The descriptor fits in an `fd_set`, and a read that is made does not fail. -/
def Orderly (fd : Nat) (turn : Turn) : Prop :=
  fd < FD_SETSIZE ∧ (reads turn = true → turn.read ≠ none)

variable {vm : Allocator} {fd : Nat}

private theorem clean_finished {thread : Thread} (clean : Clean thread) (control : Control) :
    Clean { thread with control, reads := thread.reads ++ [some []] } := by
  obtain ⟨indices, sizes, messages, payloads⟩ := clean
  exact ⟨indices, sizes, by simp [messages], by simp [payloads]⟩

private theorem clean_sent {thread : Thread} (clean : Clean thread) {bytes : Binary} (nonempty : bytes ≠ [])
    (bounded : bytes.length ≤ buf_size) :
    Clean
      { thread with
        reads := thread.reads ++ [some bytes]
        sizes := thread.sizes ++ [bytes.length, bytes.length]
        sent := thread.sent ++ [bytes] } := by
  obtain ⟨indices, sizes, messages, payloads⟩ := clean
  refine ⟨indices, ?_, by simp [messages, nonempty], by simp [payloads]⟩
  intro size member
  obtain old | new := List.mem_append.mp member
  · exact sizes size old
  · have same : size = bytes.length := by simpa using new
    have positive := List.length_pos_iff.mpr nonempty
    rw [same]
    exact ⟨positive, bounded⟩

private theorem take_bytes {thread : Thread} {bytes : Binary} (nonempty : bytes ≠ []) (bounded : bytes.length ≤ buf_size) :
    thread.take vm (some bytes) =
      { thread with
        reads := thread.reads ++ [some bytes]
        sizes := thread.sizes ++ [bytes.length, bytes.length]
        sent := thread.sent ++ [bytes] } := by
  have positive : bytes.length ≠ 0 := fun zero => nonempty (List.length_eq_zero_iff.mp zero)
  have allocated := vm.small bytes.length (Nat.pos_of_ne_zero positive) bounded
  have filled : (buffer (some bytes)).take bytes.length = bytes := List.take_left
  simp only [Thread.take, bytes_read, if_neg positive, allocated, if_true, if_pos bounded, filled]

/-- A failed `read` has the allocator asked for nearly all of the address space. -/
private theorem take_failed (thread : Thread) : 0xffffffffffffffff ∈ (thread.take vm none).sizes := by
  have huge : bytes_read none = 0xffffffffffffffff := by decide
  have nonzero : (0xffffffffffffffff : Nat) ≠ 0 := by decide
  have beyond : ¬ 0xffffffffffffffff ≤ buf_size := by decide
  simp only [Thread.take, huge, if_neg nonzero, if_neg beyond]
  split <;> simp

private theorem clean_take {thread : Thread} (clean : Clean thread) (read : Option Binary)
    (bounded : ∀ bytes, read = some bytes → bytes.length ≤ buf_size) :
    Clean (thread.take vm read) ↔ read ≠ none := by
  cases read with
  | none =>
    refine ⟨?_, fun succeeds => absurd rfl succeeds⟩
    intro after
    have within := (after.sizes _ (take_failed thread)).2
    omega
  | some bytes =>
    refine ⟨fun _ => Option.some_ne_none bytes, fun _ => ?_⟩
    by_cases nonempty : bytes = []
    · subst nonempty
      exact clean_finished clean .finished
    · rw [take_bytes nonempty (bounded bytes rfl)]
      exact clean_sent clean nonempty (bounded bytes rfl)

private theorem clean_indexed {thread : Thread} (clean : Clean thread) (control : Control) :
    Clean { thread with control, indices := thread.indices ++ [fd] } ↔ fd < FD_SETSIZE := by
  constructor
  · intro after
    exact after.indices fd (by simp)
  · intro fits
    refine ⟨?_, clean.sizes, clean.messages, clean.payloads⟩
    intro index member
    obtain old | new := List.mem_append.mp member
    · exact clean.indices index old
    · rw [List.mem_singleton.mp new]
      exact fits

private theorem step_clean_iff {thread next : Thread} {turn : Turn} (clean : Clean thread)
    (taken : thread.step vm fd turn = some next) : Clean next ↔ Orderly fd turn := by
  unfold Thread.step at taken
  split at taken
  case isFalse => cases taken
  simp only [] at taken
  split at taken
  case isTrue fits =>
    have indexed := (clean_indexed clean thread.control).mpr fits
    simp only [Orderly, reads, fits, true_and]
    split at taken
    next ready =>
      cases taken
      simpa [ready] using clean_take indexed turn.read turn.bounded
    next interrupted =>
      cases taken
      simpa [interrupted] using clean_take indexed turn.read turn.bounded
    next failed =>
      cases taken
      simpa [failed] using indexed
    next interrupted =>
      cases taken
      simpa [interrupted] using indexed
  case isFalse large =>
    cases taken
    rw [clean_indexed clean]
    exact ⟨fun fits => absurd fits large, fun orderly => orderly.1⟩

/-- A run of the reader is clean throughout exactly when the descriptor's number fits in an
`fd_set` in every turn and no `read` fails. -/
theorem reader_clean_iff (vm : Allocator) (fd : Nat) (turns : List Turn) :
    Always (Thread.step vm fd) Clean {} turns ↔ Along (Thread.step vm fd) (fun _ turn => Orderly fd turn) {} turns := by
  have initial : Clean {} := ⟨by simp, by simp, rfl, rfl⟩
  refine always_iff_along (fun _ => True) (fun _ _ _ _ _ => trivial) ?_ trivial initial
  intro thread turn next _ clean taken
  exact step_clean_iff clean taken

/-- The slave is gone: `select` reports the master as ready, and `read` gives -1 with EIO. -/
def hangup : Turn := { select := .ready, read := none, bounded := by simp }

/-- A virtual machine that has no binary of more than a buffer. -/
def tight : Allocator where
  allocates size := size ≤ buf_size
  small := by simp

def output : Turn := { select := .ready, read := some [104, 105], bounded := by decide }

/-- A failed read at any number, and a number that no `fd_set` holds with any read. -/
theorem failed_read_overruns :
    Thread.step tight 20 {} hangup = some { indices := [20], reads := [none], sizes := [0xffffffffffffffff] } ∧
      ¬ Always (Thread.step tight 20) Clean {} [hangup] ∧ ¬ Always (Thread.step tight 1024) Clean {} [output] := by
  have failed : Thread.step tight 20 {} hangup =
      some { indices := [20], reads := [none], sizes := [0xffffffffffffffff] } := by decide
  have large : Thread.step tight 1024 {} output = some { control := .undefined, indices := [1024] } := by decide
  refine ⟨failed, ?_, ?_⟩
  · intro always
    have clean := ((always_cons.mp always).2 _ failed).start
    exact absurd (clean.sizes _ (List.mem_singleton_self _)).2 (by decide)
  · intro always
    have clean := ((always_cons.mp always).2 _ large).start
    exact absurd (clean.indices _ (List.mem_singleton_self _)) (by decide)

end ExPTY.Proofs.ReaderSafety
