import ExPTY.Termios

/-! The functions of src/c_src/unix/pty.cpp that use a session's descriptor, as control
states with what each of them does next. A write looks at `fd_closed` and holds the
session's mutex; the other four do neither. -/

namespace ExPTY.NativeCalls
open Termios
open Server (Binary Reply Term)

inductive Errno where
  | EBADF | EFAULT | EINVAL | ENOTTY
  | other (number : Int)
  deriving DecidableEq, Repr

structure Winsize where
  ws_col : BitVec 16
  ws_row : BitVec 16
  deriving DecidableEq, Repr

/-- A system call on the descriptor. A write is told by its place in the data. -/
inductive Syscall (header : Header) where
  | write (data : Binary) (offset nbytes : Nat)
  | ioctl (winp : Winsize)
  | tcgetattr
  | tcsetattr (settings : T header)

/-- What the kernel answers to each call if it comes now; `none` for a write is -1. -/
structure Kernel (header : Header) where
  write : Option Nat
  ioctl : Option Errno
  tcgetattr : Option (T header)
  tcsetattr : Bool

/-- The local variables of the loop in `pty_pipesocket::write`. -/
structure Loop where
  data : Binary
  bytes_to_write : Nat
  bytes_written : Nat := 0
  retry : BitVec 64 := 3
  deriving DecidableEq, Repr

namespace Loop

def start (data : Binary) : Loop := { data, bytes_to_write := data.length }

def nbytes (loop : Loop) : Nat := if 1024 > loop.bytes_to_write then loop.bytes_to_write else 1024

theorem nbytes_le (loop : Loop) : loop.nbytes ≤ loop.bytes_to_write ∧ loop.nbytes ≤ 1024 := by
  unfold nbytes
  split <;> omega

def accept (loop : Loop) (bytes_written_cur : Nat) : Loop :=
  { loop with
    bytes_written := loop.bytes_written + bytes_written_cur
    bytes_to_write := loop.bytes_to_write - bytes_written_cur }

/-- `retry-- > 0` counts on below zero, and the loop goes on either way. -/
def refuse (loop : Loop) : Loop := { loop with retry := loop.retry - 1 }

def reply (loop : Loop) : Reply :=
  if loop.bytes_written = loop.data.length then .ok else .accepted loop.bytes_written

end Loop

inductive Call (header : Header) where
  | entered (data : Binary)
  | locking (data : Binary)
  | looping (loop : Loop)
  | writing (loop : Loop)
  | unlocking (loop : Loop)
  | ioctl (winp : Winsize)
  | tcgetattr (change : Change)
  | tcsetattr (change : Change) (settings : T header)
  | control (byte : UInt8)
  | returned (reply : Reply)

/-- What a call does next: it reads `fd_closed`, it uses the mutex or the descriptor. -/
inductive Action (header : Header) where
  | check (after : Bool → Call header)
  | lock (after : Call header)
  | unlock (after : Call header)
  | system (call : Syscall header) (after : Kernel header → Call header)

variable {header : Header}

def ioctl_reply : Option Errno → Reply
  | none => .ok
  | some .EBADF => .error "ioctl(2) failed, EBADF"
  | some .EFAULT => .error "ioctl(2) failed, EFAULT"
  | some .EINVAL => .error "ioctl(2) failed, EINVAL"
  | some .ENOTTY => .error "ioctl(2) failed, ENOTTY"
  | some (.other _) => .error "ioctl(2) failed"

/-- The loop after `::write`, for which 0 is as good as -1. -/
def after_write (loop : Loop) : Option Nat → Call header
  | none | some 0 => .looping loop.refuse
  | some bytes_written_cur =>
    let loop := loop.accept bytes_written_cur
    if loop.bytes_written = loop.data.length then .unlocking loop else .looping loop

def Call.next : Call header → Option (Action header)
  | .entered data => some (.check fun fd_closed =>
      if fd_closed then .returned (Loop.start data).reply else .locking data)
  | .locking data => some (.lock (.looping (.start data)))
  | .looping loop => some (.check fun fd_closed => if fd_closed then .unlocking loop else .writing loop)
  | .writing loop => some (.system (.write loop.data loop.bytes_written loop.nbytes) fun kernel =>
      after_write loop kernel.write)
  | .unlocking loop => some (.unlock (.returned loop.reply))
  | .ioctl winp => some (.system (.ioctl winp) fun kernel => .returned (ioctl_reply kernel.ioctl))
  | .tcgetattr change => some (.system .tcgetattr fun kernel =>
      match kernel.tcgetattr with
      | some settings => .tcsetattr change (change.apply settings)
      | none => .returned (.error "tcgetattr failed.\n"))
  | .tcsetattr change settings => some (.system (.tcsetattr settings) fun kernel =>
      if kernel.tcsetattr then
        match change.control with
        | some byte => .control byte
        | none => .returned .ok
      else .returned (.error "tcsetattr failed.\n"))
  -- the result of this write is not looked at
  | .control byte => some (.system (.write [byte] 0 1) fun _ => .returned .ok)
  | .returned _ => none

/-- The kernel accepts no more of a write than was asked for. -/
def Bounded (kernel : Kernel header) : Syscall header → Prop
  | .write _ _ nbytes => ∀ count ∈ kernel.write, count ≤ nbytes
  | _ => True

instance (kernel : Kernel header) : (call : Syscall header) → Decidable (Bounded kernel call)
  | .write _ _ nbytes => inferInstanceAs (Decidable (∀ count ∈ kernel.write, count ≤ nbytes))
  | .ioctl _ | .tcgetattr | .tcsetattr _ => instDecidableTrue

def accepted (kernel : Kernel header) : Syscall header → Binary
  | .write data offset _ => (data.drop offset).take (kernel.write.getD 0)
  | _ => []

/-- `enif_get_resource` and then the function itself. -/
def with_resource (pipesocket : Term) (call : Call header) : Call header :=
  match pipesocket with
  | .reference _ => call
  | _ => .returned (.error "Cannot get pipesocket resource")

/-- `enif_get_int` -/
def is_int (value : Int) : Prop := -0x80000000 ≤ value ∧ value < 0x80000000

instance (value : Int) : Decidable (is_int value) := inferInstanceAs (Decidable (_ ∧ _))

def expty_write (pipesocket : Term) (data : Binary) : Call header := with_resource pipesocket (.entered data)

/-- The assignments to `ws_col` and `ws_row` keep the low 16 bits. -/
def expty_resize (pipesocket : Term) (cols rows : Int) : Call header :=
  with_resource pipesocket <|
    if is_int cols ∧ cols > 0 ∧ is_int rows ∧ rows > 0 then .ioctl ⟨.ofInt 16 cols, .ofInt 16 rows⟩
    else .returned (.error "Cannot get pipesocket resource")

def expty_pause (pipesocket : Term) : Call header := with_resource pipesocket (.tcgetattr .pause)

def expty_resume (pipesocket : Term) : Call header := with_resource pipesocket (.tcgetattr .resume)

def expty_set_echo (pipesocket : Term) (echo : Bool) : Call header :=
  with_resource pipesocket (.tcgetattr (.set_echo echo))

/-- The call that the server's request starts. `expty_kill` does not use the descriptor. -/
def start : Server.Nif.Call → Option (Call header)
  | .write pipesocket data => some (expty_write pipesocket data)
  | .kill _ _ => none
  | .resize pipesocket cols rows => some (expty_resize pipesocket cols rows)
  | .pause pipesocket => some (expty_pause pipesocket)
  | .resume pipesocket => some (expty_resume pipesocket)
  | .set_echo pipesocket echo? => some (expty_set_echo pipesocket echo?)

end ExPTY.NativeCalls
