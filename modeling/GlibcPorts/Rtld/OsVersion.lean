import Mathlib.Algebra.Group.Nat.Defs

/-!
# `GlibcPorts.Rtld.OsVersion`: the version of the kernel

`_dl_discover_osversion` of `dl-sysdep.c` turns the release date of the kernel, the decimal number
`<major><two digit minor><three digits>`, into a number with a byte for each part.
`DL_SYSDEP_OSCHECK` of `dl-osinfo.h` stops a program on a kernel that is older than the C library
needs, and keeps the version for the libraries that the program loads. Their notes are compared
with it as the comment in `kernel-features.h` has it.
-/

set_option autoImplicit false

namespace GlibcPorts.Rtld

/-- `_dl_discover_osversion`, for what `sysctl` stores, if it succeeds. -/
def dlDiscoverOsversion : Option (BitVec 32) → BitVec 32
  | none => -1
  | some version =>
      (version.sdiv 100000 <<< 16) ||| ((version.srem 100000).sdiv 1000 <<< 8)
        ||| version.srem 200

/-- The messages of `FATAL`. -/
inductive OsFatal where
  | kernelTooOld
  | cannotDetermineKernelVersion
deriving DecidableEq

/-- `DL_SYSDEP_OSCHECK`, for the version `required` that the library is built for: the new
`GLRO(dl_osversion)`. It is an unsigned number, the other two are `int`. -/
def dlSysdepOscheck (required dl_osversion : BitVec 32) (sysctl : Option (BitVec 32)) :
    Except OsFatal (BitVec 32) :=
  let version := dlDiscoverOsversion sysctl
  if 0 ≤ version.toInt then
    let dl_osversion :=
      if dl_osversion = 0 ∨ version.toNat < dl_osversion.toNat then version else dl_osversion
    if 0 < required.toInt ∧ version.toInt < required.toInt then .error .kernelTooOld
    else .ok dl_osversion
  else if 0 < required.toInt then .error .cannotDetermineKernelVersion
  else .ok dl_osversion

/-- The words of an ABI note that name the oldest kernel: `abi_note[5]` to `abi_note[7]`. -/
structure AbiNote where
  major : BitVec 32
  minor : BitVec 32
  subminor : BitVec 32

/-- `osversion` of a note. -/
def AbiNote.osversion (note : AbiNote) : BitVec 32 :=
  (note.major &&& 0xff) * 65536 + (note.minor &&& 0xff) * 256 + (note.subminor &&& 0xff)

/-- Whether a library with a note for this system can be loaded. -/
def loadable (dl_osversion : BitVec 32) (note : AbiNote) : Bool :=
  ¬ (dl_osversion ≠ 0 ∧ dl_osversion.toNat < note.osversion.toNat)

/-- The start of a program that loads a library. `assumed` is the version that the program is told
to assume, or zero. -/
def startAndLoad (required assumed : BitVec 32) (sysctl : Option (BitVec 32)) (note : AbiNote) :
    Except OsFatal Bool :=
  (dlSysdepOscheck required assumed sysctl).map fun dl_osversion => loadable dl_osversion note

end GlibcPorts.Rtld
