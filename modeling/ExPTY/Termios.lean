import ExPTY.Server

/-! The terminal settings as src/c_src/unix/pty.cpp reads and writes them. The values
of the flags belong to <termios.h> of the platform and differ between platforms, and so
does what a baud rate becomes. What the code relies on is only that the flags are bitwise
distinct. -/

namespace ExPTY.Termios
open Server (Binary)

structure Distinct {width : Nat} (flags : List (BitVec width)) : Prop where
  set : ∀ flag ∈ flags, flag ≠ 0
  disjoint : flags.Pairwise fun first second => first &&& second = 0

/-- What `cfsetispeed` and `cfsetospeed` may read and write of the settings. A rate may be kept
in bits of `c_cflag`, and that of the input in one of `c_iflag`. -/
structure Line (width : Nat) where
  c_iflag : BitVec width
  c_cflag : BitVec width
  c_ispeed : Int := 0
  c_ospeed : Int := 0
  deriving DecidableEq, Repr

/-- <termios.h>, as far as the library uses it. -/
structure Header where
  width : Nat
  ICRNL : BitVec width
  IXON : BitVec width
  IXANY : BitVec width
  IXOFF : BitVec width
  IMAXBEL : BitVec width
  BRKINT : BitVec width
  IUTF8 : Option (BitVec width)
  OPOST : BitVec width
  ONLCR : BitVec width
  CREAD : BitVec width
  CS8 : BitVec width
  HUPCL : BitVec width
  ICANON : BitVec width
  ISIG : BitVec width
  IEXTEN : BitVec width
  ECHO : BitVec width
  ECHOE : BitVec width
  ECHOK : BitVec width
  ECHOKE : BitVec width
  ECHOCTL : BitVec width
  apple : Bool
  -- their results are not looked at, so that a rate they refuse changes nothing
  cfsetispeed : Line width → Int → Line width
  cfsetospeed : Line width → Int → Line width
  input_flags : Distinct ([ICRNL, IXON, IXANY, IXOFF, IMAXBEL, BRKINT] ++ IUTF8.toList)
  local_flags : Distinct [ICANON, ISIG, IEXTEN, ECHO, ECHOE, ECHOK, ECHOKE, ECHOCTL]

/-- The indices of `c_cc`. -/
inductive Control where
  | VEOF | VEOL | VEOL2 | VERASE | VWERASE | VKILL | VREPRINT | VINTR | VQUIT | VSUSP
  | VSTART | VSTOP | VLNEXT | VDISCARD | VMIN | VTIME | VDSUSP | VSTATUS
  deriving DecidableEq, Repr

structure T (header : Header) where
  c_iflag : BitVec header.width
  c_oflag : BitVec header.width
  c_cflag : BitVec header.width
  c_lflag : BitVec header.width
  c_cc : Control → UInt8
  c_ispeed : Int
  c_ospeed : Int

namespace Header

/-- `ECHO | ECHOE | ECHOK | ECHOKE | ECHOCTL` -/
def echo_flags (header : Header) : BitVec header.width :=
  header.ECHO ||| header.ECHOE ||| header.ECHOK ||| header.ECHOKE ||| header.ECHOCTL

/-- The control characters that `expty_spawn` installs. -/
def control (header : Header) : Control → UInt8
  | .VEOF => 4
  | .VEOL | .VEOL2 => 255
  | .VERASE => 0x7f
  | .VWERASE => 23
  | .VKILL => 21
  | .VREPRINT => 18
  | .VINTR => 3
  | .VQUIT => 0x1c
  | .VSUSP => 26
  | .VSTART => 17
  | .VSTOP => 19
  | .VLNEXT => 22
  | .VDISCARD => 15
  | .VMIN => 1
  | .VTIME => 0
  | .VDSUSP => if header.apple then 25 else 0
  | .VSTATUS => if header.apple then 20 else 0

def spawned (header : Header) (is_utf8 echo : Bool) (ibaudrate obaudrate : Int) : T header :=
  let c_iflag := header.ICRNL ||| header.IXON ||| header.IXANY ||| header.IMAXBEL ||| header.BRKINT
  let c_lflag := header.ICANON ||| header.ISIG ||| header.IEXTEN
  let line : Line header.width :=
    { c_iflag := if is_utf8 then c_iflag ||| header.IUTF8.getD 0 else c_iflag
      c_cflag := header.CREAD ||| header.CS8 ||| header.HUPCL }
  let line := header.cfsetispeed line ibaudrate
  let line := header.cfsetospeed line obaudrate
  { c_iflag := line.c_iflag
    c_oflag := header.OPOST ||| header.ONLCR
    c_cflag := line.c_cflag
    c_lflag := if echo then c_lflag ||| header.echo_flags else c_lflag
    c_cc := header.control
    c_ispeed := line.c_ispeed
    c_ospeed := line.c_ospeed }

end Header

variable {header : Header}

/-- The line discipline takes START and STOP for flow control. -/
def T.ixon (settings : T header) : Bool := settings.c_iflag &&& header.IXON ≠ 0

def T.echo (settings : T header) : Bool := settings.c_lflag &&& header.ECHO ≠ 0

/-- The functions of the library that read the settings, change them and set them. -/
inductive Change where
  | pause
  | resume
  | set_echo (echo : Bool)
  deriving DecidableEq, Repr

def Change.apply (settings : T header) : Change → T header
  | .pause => { settings with c_iflag := settings.c_iflag ||| (header.IXON ||| header.IXOFF) }
  | .resume => { settings with c_iflag := settings.c_iflag &&& ~~~(header.IXON ||| header.IXOFF) }
  | .set_echo true => { settings with c_lflag := settings.c_lflag ||| header.echo_flags }
  | .set_echo false => { settings with c_lflag := settings.c_lflag &&& ~~~header.echo_flags }

def XOFF : UInt8 := 0x13
def XON : UInt8 := 0x11

/-- The byte that the function writes to the master at the end. -/
def Change.control : Change → Option UInt8
  | .pause => some XOFF
  | .resume => some XON
  | .set_echo _ => none

section Words
variable {width : Nat} {word flag : BitVec width}

/-- A word that holds a flag sets it in every union and clears it in every difference. -/
theorem or_and_within (within : word &&& flag = flag) (rest : BitVec width) : (rest ||| word) &&& flag = flag := by
  rw [← within]
  ext index bound
  simp only [BitVec.getElem_and, BitVec.getElem_or]
  cases word[index] <;> simp

theorem and_not_within (within : word &&& flag = flag) (rest : BitVec width) : (rest &&& ~~~word) &&& flag = 0 := by
  rw [← within]
  ext index bound
  simp only [BitVec.getElem_and, BitVec.getElem_not, BitVec.ofNat_eq_ofNat, BitVec.getElem_zero]
  cases word[index] <;> simp

end Words

theorem ixon_within : (header.IXON ||| header.IXOFF) &&& header.IXON = header.IXON := by
  ext index bound
  simp only [BitVec.getElem_and, BitVec.getElem_or]
  cases header.IXON[index] <;> simp

theorem echo_within : header.echo_flags &&& header.ECHO = header.ECHO := by
  ext index bound
  cases set : header.ECHO[index] <;> simp [Header.echo_flags, set]

theorem IXON_set (header : Header) : header.IXON ≠ 0 := header.input_flags.set _ (by simp)

theorem ECHO_set (header : Header) : header.ECHO ≠ 0 := header.local_flags.set _ (by simp)

section Changes
variable (settings : T header)

@[simp] theorem ixon_pause : (Change.pause.apply settings).ixon = true := by
  simp only [T.ixon, Change.apply, or_and_within ixon_within]
  exact decide_eq_true (IXON_set header)

@[simp] theorem ixon_resume : (Change.resume.apply settings).ixon = false := by
  simp only [T.ixon, Change.apply, and_not_within ixon_within]
  exact decide_eq_false (· rfl)

@[simp] theorem echo_set_echo (echo : Bool) : ((Change.set_echo echo).apply settings).echo = echo := by
  cases echo with
  | true =>
    simp only [T.echo, Change.apply, or_and_within echo_within]
    exact decide_eq_true (ECHO_set header)
  | false =>
    simp only [T.echo, Change.apply, and_not_within echo_within]
    exact decide_eq_false (· rfl)

@[simp] theorem c_cc_apply (change : Change) : (change.apply settings).c_cc = settings.c_cc := by
  rcases change with _ | _ | echo
  · rfl
  · rfl
  · cases echo <;> rfl

end Changes

/-- None of the flags that `expty_spawn` always sets is one of the echo. -/
theorem echo_flags_disjoint (header : Header) :
    (header.ICANON ||| header.ISIG ||| header.IEXTEN) &&& header.echo_flags = 0 := by
  have disjoint := header.local_flags.disjoint
  simp only [List.pairwise_cons, List.mem_cons, forall_eq_or_imp] at disjoint
  simp [Header.echo_flags, BitVec.and_or_distrib_left, BitVec.and_or_distrib_right, disjoint]

@[simp] theorem echo_spawned (is_utf8 echo : Bool) (ibaudrate obaudrate : Int) :
    (header.spawned is_utf8 echo ibaudrate obaudrate).echo = echo := by
  cases echo with
  | true =>
    simp only [T.echo, Header.spawned, if_true, or_and_within echo_within]
    exact decide_eq_true (ECHO_set header)
  | false =>
    have clear : (header.ICANON ||| header.ISIG ||| header.IEXTEN) &&& header.ECHO = 0 := by
      rw [← echo_within, ← BitVec.and_assoc, echo_flags_disjoint]
      exact BitVec.zero_and
    simp only [T.echo, Header.spawned, Bool.false_eq_true, if_false, clear]
    exact decide_eq_false (· rfl)

section Linux

def CBAUD : BitVec 32 := 0x100F

/-- The codes of the rates, from B0 to B4000000, keep to these bits. A rate itself, such as
38400, does not. -/
def is_code (speed : Int) : Bool := .ofInt 32 speed &&& ~~~CBAUD = 0

/-- `cfsetispeed` of the GNU C library, which has a bit in `c_iflag` for B0. -/
def linux_cfsetispeed (line : Line 32) (speed : Int) : Line 32 :=
  if !is_code speed then line
  else if speed = 0 then { line with c_iflag := line.c_iflag ||| 0x80000000, c_ispeed := 0 }
  else
    { line with
      c_iflag := line.c_iflag &&& ~~~0x80000000
      c_cflag := line.c_cflag &&& ~~~CBAUD ||| .ofInt 32 speed
      c_ispeed := speed }

def linux_cfsetospeed (line : Line 32) (speed : Int) : Line 32 :=
  if !is_code speed then line
  else { line with c_cflag := line.c_cflag &&& ~~~CBAUD ||| .ofInt 32 speed, c_ospeed := speed }

/-- <asm-generic/termbits.h> -/
def Header.linux : Header where
  width := 32
  ICRNL := 0x100
  IXON := 0x400
  IXANY := 0x800
  IXOFF := 0x1000
  IMAXBEL := 0x2000
  BRKINT := 0x2
  IUTF8 := some 0x4000
  OPOST := 0x1
  ONLCR := 0x4
  CREAD := 0x80
  CS8 := 0x30
  HUPCL := 0x400
  ICANON := 0x2
  ISIG := 0x1
  IEXTEN := 0x8000
  ECHO := 0x8
  ECHOE := 0x10
  ECHOK := 0x20
  ECHOKE := 0x800
  ECHOCTL := 0x200
  apple := false
  cfsetispeed := linux_cfsetispeed
  cfsetospeed := linux_cfsetospeed
  input_flags := ⟨by simp, by simp⟩
  local_flags := ⟨by simp, by simp⟩

/-- The default rates are refused, and 15 is taken as B38400. -/
example :
    let settings rate := Header.linux.spawned true false rate rate
    (settings 38400).c_cflag = 0x4B0 ∧ (settings 38400).c_ospeed = 0 ∧ (settings 15).c_cflag = 0x4BF := by decide

end Linux

end ExPTY.Termios
