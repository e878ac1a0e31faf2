import GlibcPorts.Abi
import GlibcPorts.Errno
import GlibcPorts.Lib.Intervals
import GlibcPorts.Lib.Records

/-!
# `GlibcPorts.Vmmap.ReadonlyArea`: whether memory cannot be written

`__readonly_area` of `kfreebsd/readonly-area.c`, which `printf` asks about a format with `%n`. The
kernel reports the map of the process as records of type `struct kinfo_vmentry`, in no particular
order. The function takes the bytes that an entry has of the area from `size`, and the area is
read-only when none is left.

The type comes from `<sys/user.h>` of the kernel, which is not part of the sources, so `Headers`
has the offsets of the fields that the code reads and the bits it tests. That these fields lie in
front of `kve_path`, which comes last and is cut, is what the code relies on.

The subtraction from `size` is a parameter of the loop (`readonlyAreaWith`). In C it wraps
(`wrapSub`). With `checkedSub` the loop leaves its memory when `size` underflows.
-/

set_option autoImplicit false

namespace GlibcPorts.Vmmap

open Lib

/-- What the code takes from headers outside the sources. -/
structure Headers where
  /-- The offset of `kve_structsize` in `struct kinfo_vmentry`, and of the other fields. -/
  kveStructsizeOff : Nat
  kveStartOff : Nat
  kveEndOff : Nat
  kveProtectionOff : Nat
  kvePathOff : Nat
  kveStructsizeOff_le : kveStructsizeOff + 4 ≤ kvePathOff
  kveStartOff_le : kveStartOff + 8 ≤ kvePathOff
  kveEndOff_le : kveEndOff + 8 ≤ kvePathOff
  kveProtectionOff_le : kveProtectionOff + 4 ≤ kvePathOff
  KVME_PROT_READ : BitVec 32
  KVME_PROT_WRITE : BitVec 32

/-- `(uintptr_t) n`. -/
def uintptr (abi : Abi) (n : Nat) : Nat := n % 2 ^ abi.longBits

/-- `!(prot & KVME_PROT_READ) || (prot & KVME_PROT_WRITE)`. -/
def notReadonly (H : Headers) (prot : Int) : Bool :=
  BitVec.ofInt 32 prot &&& H.KVME_PROT_READ = 0 ∨ BitVec.ofInt 32 prot &&& H.KVME_PROT_WRITE ≠ 0

/-! ### The map of the process -/

/-- The bytes of one `struct kinfo_vmentry`, cut behind its `kve_path`. -/
structure KinfoVmentry (H : Headers) where
  bytes : List UInt8
  structsize : intAt bytes H.kveStructsizeOff = bytes.length
  pathOff_le : H.kvePathOff ≤ bytes.length

namespace KinfoVmentry

variable {H : Headers}

def kveProtection (kve : KinfoVmentry H) : Int := intAt kve.bytes H.kveProtectionOff

/-- `kve_start` and `kve_end`, as pointers. -/
def span (abi : Abi) (kve : KinfoVmentry H) : Span where
  lo := uintptr abi (leNat ((kve.bytes.drop H.kveStartOff).take 8))
  hi := uintptr abi (leNat ((kve.bytes.drop H.kveEndOff).take 8))

/-- The memory of the entry is readable, and not writable. -/
def readonly (kve : KinfoVmentry H) : Bool := !notReadonly H kve.kveProtection

/-- The number of bytes of the record. -/
def width (kve : KinfoVmentry H) : Nat := kve.bytes.length

theorem width_pos (kve : KinfoVmentry H) : 0 < kve.width := by
  have hoff := H.kveStructsizeOff_le
  have hle := kve.pathOff_le
  unfold width
  omega

end KinfoVmentry

/-- The records as the kernel stores them. -/
def mapBytes {H : Headers} (map : List (KinfoVmentry H)) : List UInt8 :=
  map.flatMap KinfoVmentry.bytes

/-! ### `__readonly_area` -/

/-- `a - b`, for a `size_t`. -/
def wrapSub (abi : Abi) (a b : Nat) : Option Nat :=
  some ((a + 2 ^ abi.longBits - b) % 2 ^ abi.longBits)

/-- `a - b`, if it does not underflow. -/
def checkedSub (a b : Nat) : Option Nat := if b ≤ a then some (a - b) else none

/-- What `__sysctl` says: the size of the map, or nothing when it fails, and what it stores in a
buffer of so many bytes, with the number of bytes that are the map. -/
structure VmEnv where
  vmmapLen : Option Nat
  vmmap : Nat → Option (List UInt8 × Nat)

/-- What `__readonly_area` returns, and the `errno` that it sets. -/
inductive AreaResult where
  | returned (r : Int) (errno : Option Errno)
  | fault
  | running
deriving DecidableEq, Repr

section ReadonlyArea

variable (H : Headers) (abi : Abi) (sub : Nat → Nat → Option Nat)

/-- Takes the overlap from `size`, for an entry that has not all of the area. -/
def subOverlap (area entry : Span) (size : Nat) : Option Nat :=
  if entry.lo ≤ area.lo then sub size (entry.hi - area.lo)
  else if entry.hi ≥ area.hi then sub size (area.hi - entry.lo)
  else sub size (entry.hi - entry.lo)

/-- What an entry does to `size`. The loop is left with the first, and goes on with the second. -/
def takeEntry (area entry : Span) (unusable : Bool) (size : Nat) : Option (Nat ⊕ Nat) :=
  if entry.lo < area.hi ∧ entry.hi > area.lo then
    if unusable then some (.inl size)
    else if entry.lo ≤ area.lo ∧ entry.hi ≥ area.hi then some (.inl 0)
    else (subOverlap sub area entry size).map fun size =>
      if size = 0 then .inl size else .inr size
  else some (.inr size)

/-- The body of the loop, for the record at the offset `p`. -/
def areaTurn (mem : List UInt8) (area : Span) (size p : Nat) : Option (Nat ⊕ Nat) := do
  let _ ← readInt mem (p + H.kveStructsizeOff)
  let start ← readLe mem (p + H.kveStartOff) 8
  let stop ← readLe mem (p + H.kveEndOff) 8
  let protection ← readInt mem (p + H.kveProtectionOff)
  takeEntry sub area ⟨uintptr abi start, uintptr abi stop⟩ (notReadonly H protection) size

/-- `__readonly_area`. -/
def readonlyAreaWith (env : VmEnv) (ptr size : Nat) : AreaResult :=
  let ptrEnd := uintptr abi (ptr + size)
  match env.vmmapLen with
  | none => .returned 1 (some ENOSYS)
  | some kveLen =>
      match env.vmmap kveLen with
      | none => .returned 1 (some ENOSYS)
      | some (mem, kveLen) =>
          match walk (fun p => readInt mem (p + H.kveStructsizeOff))
            (areaTurn H abi sub mem ⟨ptr, ptrEnd⟩) kveLen (kveLen + 1) size 0 with
          | .stopped _ size | .ended _ size => .returned (if size = 0 then 1 else -1) none
          | .fault => .fault
          | .running => .running

def readonlyArea (env : VmEnv) (ptr size : Nat) : AreaResult :=
  readonlyAreaWith H abi (wrapSub abi) env ptr size

end ReadonlyArea

end GlibcPorts.Vmmap
