import Mathlib.Algebra.Group.Int.Defs
import Mathlib.Algebra.Group.Nat.Defs

/-!
# `GlibcPorts.Abi`: the sizes of the C types

The port runs on 32-bit and on 64-bit machines. The sizes that differ are those of `long` and of
pointers.
-/

set_option autoImplicit false

namespace GlibcPorts

/-- The 32-bit and the 64-bit ABI. -/
inductive Abi where
  | ilp32
  | lp64
deriving DecidableEq, Repr

namespace Abi

/-- The bits of an `unsigned long`. -/
def longBits : Abi → Nat
  | ilp32 => 32
  | lp64 => 64

/-- The values of a `long`. -/
def IsLong (abi : Abi) (n : Int) : Prop :=
  -2 ^ (abi.longBits - 1) ≤ n ∧ n < 2 ^ (abi.longBits - 1)

instance (abi : Abi) (n : Int) : Decidable (abi.IsLong n) :=
  inferInstanceAs (Decidable (_ ∧ _))

/-- `ULONG_MAX`. -/
def ulongMax (abi : Abi) : Nat := 2 ^ abi.longBits - 1

/-- `(unsigned long) i` for an `int`. -/
def ulongOfInt (abi : Abi) (i : Int32) : Nat := (i.toInt % 2 ^ abi.longBits).toNat

/-- `(int) n` for an `unsigned long`. -/
def intOfUlong (n : Nat) : Int32 := Int32.ofNat n

end Abi

end GlibcPorts
