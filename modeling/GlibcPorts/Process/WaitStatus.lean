import GlibcPorts.Lib.BitFields
import Mathlib.Data.Nat.Bitwise

/-!
# `GlibcPorts.Process.WaitStatus`: what a status of `wait` says

The macros of `bits/waitstatus.h`. The first group takes a status apart, the second puts one
together, and `union wait` is a third view of the same word, by bit fields. `statusOf` is the word
that the macros make for a change of state of a child. `report` is a caller of `wait` that asks the
macros in the usual order.

`__WIFCONTINUED` is there because `bits/waitflags.h` defines `WCONTINUED`.
-/

set_option autoImplicit false

namespace GlibcPorts.Process

open Lib

/-! ### The macros -/

/-- `__WEXITSTATUS (status)`: the mask leaves the sign bit out. -/
def WEXITSTATUS (status : BitVec 32) : BitVec 32 := (status &&& 0xff00).sshiftRight 8

/-- `__WTERMSIG (status)`. -/
def WTERMSIG (status : BitVec 32) : BitVec 32 := status &&& 0x7f

/-- `__WSTOPSIG (status)`: the same byte as the exit code. -/
def WSTOPSIG (status : BitVec 32) : BitVec 32 := WEXITSTATUS status

/-- `__WIFEXITED (status)`. -/
def WIFEXITED (status : BitVec 32) : Prop := WTERMSIG status = 0

/-- `__WIFSIGNALED (status)`, `((signed char) ((status & 0x7f) + 1) >> 1) > 0`: the shift is on the
promoted `int`. -/
def WIFSIGNALED (status : BitVec 32) : Prop :=
  0 < (((((status &&& 0x7f) + 1).setWidth 8).signExtend 32).sshiftRight 1).toInt

/-- `__WIFSTOPPED (status)`. -/
def WIFSTOPPED (status : BitVec 32) : Prop := status &&& 0x7f = 0x7f

/-- `__W_CONTINUED`: BSD uses the number of `SIGCONT`. -/
def W_CONTINUED : BitVec 32 := 0x13

/-- `__WCOREFLAG`. -/
def WCOREFLAG : BitVec 32 := 0x80

/-- `__WIFCONTINUED (status)`. -/
def WIFCONTINUED (status : BitVec 32) : Prop := status = W_CONTINUED

/-- `__WCOREDUMP (status)`. -/
def WCOREDUMP (status : BitVec 32) : BitVec 32 := status &&& WCOREFLAG

/-- `__W_EXITCODE (ret, sig)`. -/
def W_EXITCODE (ret sig : BitVec 32) : BitVec 32 := (ret <<< 8) ||| sig

/-- `__W_STOPCODE (sig)`. -/
def W_STOPCODE (sig : BitVec 32) : BitVec 32 := (sig <<< 8) ||| 0x7f

instance instDecidableWIFEXITED (status : BitVec 32) : Decidable (WIFEXITED status) :=
  inferInstanceAs (Decidable (_ = _))

instance instDecidableWIFSIGNALED (status : BitVec 32) : Decidable (WIFSIGNALED status) :=
  inferInstanceAs (Decidable (_ < _))

instance instDecidableWIFSTOPPED (status : BitVec 32) : Decidable (WIFSTOPPED status) :=
  inferInstanceAs (Decidable (_ = _))

/-! ### The macros as numbers -/

section Numbers

variable (status : BitVec 32)

/-- The low seven bits. -/
@[simp] theorem toNat_WTERMSIG : (WTERMSIG status).toNat = status.toNat % 128 := by
  exact Nat.and_two_pow_sub_one_eq_mod status.toNat 7

/-- The second byte. -/
@[simp] theorem toNat_WEXITSTATUS : (WEXITSTATUS status).toNat = status.toNat / 256 % 256 := by
  have hmsb : (status &&& 0xff00).msb = false := by
    rw [BitVec.msb_and, show (0xff00 : BitVec 32).msb = false from rfl, Bool.and_false]
  rw [WEXITSTATUS, BitVec.sshiftRight_eq_of_msb_false hmsb, BitVec.toNat_ushiftRight,
    BitVec.toNat_and, Nat.shiftRight_and_distrib, Nat.shiftRight_eq_div_pow]
  exact Nat.and_two_pow_sub_one_eq_mod (status.toNat / 256) 8

/-- The low seven bits are clear. -/
theorem WIFEXITED_iff : WIFEXITED status ↔ status.toNat % 128 = 0 := by
  rw [WIFEXITED, ← BitVec.toNat_inj, toNat_WTERMSIG]
  rfl

/-- The low seven bits are set. -/
theorem WIFSTOPPED_iff : WIFSTOPPED status ↔ status.toNat % 128 = 127 := by
  show WTERMSIG status = 0x7f ↔ _
  rw [← BitVec.toNat_inj, toNat_WTERMSIG]
  rfl

/-- Over the largest number the `signed char` is negative, and the shift takes 0 + 1 to zero. -/
theorem WIFSIGNALED_iff :
    WIFSIGNALED status ↔ status.toNat % 128 ≠ 0 ∧ status.toNat % 128 ≠ 127 := by
  have hsum : ((status &&& 0x7f) + 1).toNat = status.toNat % 128 + 1 := by
    have hlow := toNat_WTERMSIG status
    rw [WTERMSIG] at hlow
    have hone : (1 : BitVec 32).toNat = 1 := rfl
    rw [BitVec.toNat_add, hlow, hone]
    exact Nat.mod_eq_of_lt (by omega)
  have hchar : (((status &&& 0x7f) + 1).setWidth 8).toNat = status.toNat % 128 + 1 := by
    rw [BitVec.toNat_setWidth, hsum]
    exact Nat.mod_eq_of_lt (by omega)
  rw [WIFSIGNALED, BitVec.toInt_sshiftRight, BitVec.toInt_signExtend_of_le (by decide),
    BitVec.toInt_eq_toNat_cond, hchar, Int.shiftRight_eq_div_pow]
  split <;> omega

/-- The bit above them, at its place. -/
@[simp] theorem toNat_WCOREDUMP : (WCOREDUMP status).toNat = status.toNat / 128 % 2 * 128 := by
  have hbit := Nat.and_two_pow status.toNat 7
  rw [Nat.toNat_testBit] at hbit
  exact hbit

end Numbers

/-! ### `union wait` -/

/-- `__BYTE_ORDER`. -/
inductive ByteOrder where
  | little
  | big
  deriving DecidableEq

/-- The named bit fields of both structs. -/
inductive WaitField where
  | termsig
  | coredump
  | retcode
  | stopval
  | stopsig
  deriving DecidableEq

/-- `__wait_terminated`, in the order of the declaration. `none` is the unnamed field. -/
def waitTerminated : ByteOrder → List (Option WaitField × Nat)
  | .little => [(some .termsig, 7), (some .coredump, 1), (some .retcode, 8), (none, 16)]
  | .big => [(none, 16), (some .retcode, 8), (some .coredump, 1), (some .termsig, 7)]

/-- `__wait_stopped`. -/
def waitStopped : ByteOrder → List (Option WaitField × Nat)
  | .little => [(some .stopval, 8), (some .stopsig, 8), (none, 16)]
  | .big => [(none, 16), (some .stopsig, 8), (some .stopval, 8)]

/-- The fields of a declaration with their values in `w_status`. -/
def bitFields (order : ByteOrder) (layout : List (Option WaitField × Nat)) (w_status : BitVec 32) :
    List (Option WaitField × Nat) :=
  let widths := layout.map Prod.snd
  let values :=
    if order = .little then BitFields.lowFirst widths w_status.toNat
    else BitFields.highFirst widths 32 w_status.toNat
  (layout.map Prod.fst).zip values

/-- `w.w_termsig`, `w.w_coredump`, `w.w_retcode`, `w.w_stopval` and `w.w_stopsig`. -/
def unionWait (order : ByteOrder) (w_status : BitVec 32) (field : WaitField) : Option Nat :=
  (bitFields order (waitTerminated order) w_status
    ++ bitFields order (waitStopped order) w_status).lookup (some field)

/-! ### What a status is for -/

/-- `_NSIG` of `bits/signum.h`, one more than the last signal. -/
def NSIG : Nat := 129

/-- The number of a signal that terminates a process. -/
abbrev TermSignal := {sig : BitVec 8 // 0 < sig.toNat ∧ sig.toNat < NSIG}

/-- A change of the state of a child, as `wait` reports it. -/
inductive ChildEvent where
  | exited (code : BitVec 8)
  | signaled (sig : TermSignal) (core : Bool)
  | stopped (sig : BitVec 8)
  | continued
  deriving DecidableEq

/-- The status that the macros make for an event. -/
def statusOf : ChildEvent → BitVec 32
  | .exited code => W_EXITCODE (code.setWidth 32) 0
  | .signaled sig core =>
      W_EXITCODE 0 (sig.val.setWidth 32) ||| (if core then WCOREFLAG else 0)
  | .stopped sig => W_STOPCODE (sig.setWidth 32)
  | .continued => W_CONTINUED

/-- The signal of a status that passes `__WIFSIGNALED`. -/
def termSignal (status : BitVec 32) (h : WIFSIGNALED status) : TermSignal :=
  ⟨(WTERMSIG status).setWidth 8, by
    obtain ⟨hzero, hstop⟩ := (WIFSIGNALED_iff status).mp h
    rw [BitVec.toNat_setWidth, toNat_WTERMSIG, NSIG]
    omega⟩

/-- What a caller makes of a status when it asks the macros in this order. -/
def report (status : BitVec 32) : Option ChildEvent :=
  if WIFEXITED status then some (.exited ((WEXITSTATUS status).setWidth 8))
  else if h : WIFSIGNALED status then
    some (.signaled (termSignal status h) (decide (WCOREDUMP status ≠ 0)))
  else if WIFSTOPPED status then some (.stopped ((WSTOPSIG status).setWidth 8))
  else none

/-- A status that says nothing beside its event: no bits above the second byte, no core flag on a
normal exit, no exit code beside a signal, and no core flag on a stop. -/
def Tidy (status : BitVec 32) : Prop :=
  status.toNat < 2 ^ 16
    ∧ (WIFEXITED status ∨ WIFSTOPPED status → WCOREDUMP status = 0)
    ∧ (WIFSIGNALED status → WEXITSTATUS status = 0)

end GlibcPorts.Process
