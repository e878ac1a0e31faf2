import GlibcPorts.Abi
import GlibcPorts.Lib.ByteField

/-!
# `GlibcPorts.Mount.Statfsconv`: what the kernel says of a file system

The conversions of `kfreebsd/statfsconv.c`. The kernel describes a file system with a
`struct statfs_fbsd5`, and programs see a `struct statfs`, a `struct statvfs` or their 64-bit
variants. The variants differ in the width of the counts of blocks and files, so `Statfs abi w`
is `struct statfs` when `w` is the width of `unsigned long`, and `struct statfs64` when it is 64.

The macro `MIN` compares two operands after the usual conversions of C. For an unsigned 64-bit
operand and `ULONG_MAX` these are to 64 bits without a sign (`minUlong`). For a signed one they
depend on the machine (`minUlongSigned`): where `unsigned long` has 32 bits, its maximum becomes
a signed number too, else the operand loses its sign.
-/

set_option autoImplicit false

namespace GlibcPorts.Mount

open Lib

/-- The size of the name of a type of file systems, with its NUL. -/
def MFSNAMELEN : Nat := 16

/-- The size of the name of a mounted file system or directory. -/
def MNAMELEN : Nat := 88

/-- The largest `unsigned short`. -/
def USHRT_MAX : BitVec 32 := 65535

/-- Mounted read only. -/
def MNT_RDONLY : BitVec 64 := 0x1

/-- Written synchronously. -/
def MNT_SYNCHRONOUS : BitVec 64 := 0x2

/-- Without programs. -/
def MNT_NOEXEC : BitVec 64 := 0x4

/-- Without set-user-id programs. -/
def MNT_NOSUID : BitVec 64 := 0x8

/-- Without times of access. -/
def MNT_NOATIME : BitVec 64 := 0x10000000

/-- `MNT_RDONLY` in `f_flag`. -/
def ST_RDONLY : Nat := 1

/-- `MNT_NOSUID` in `f_flag`. -/
def ST_NOSUID : Nat := 2

/-- `MNT_NOEXEC` in `f_flag`. -/
def ST_NOEXEC : Nat := 8

/-- `MNT_SYNCHRONOUS` in `f_flag`. -/
def ST_SYNCHRONOUS : Nat := 16

/-- `MNT_NOATIME` in `f_flag`. -/
def ST_NOATIME : Nat := 0x10000000

/-- `__fsid_t`, which is two integers. -/
structure FsidT where
  val0 : BitVec 32
  val1 : BitVec 32
deriving DecidableEq, Repr

/-- `struct statfs_fbsd5`, without what it has to spare. -/
structure StatfsFbsd5 where
  fVersion : BitVec 32
  fType : BitVec 32
  fFlags : BitVec 64
  fBsize : BitVec 64
  fIosize : BitVec 64
  fBlocks : BitVec 64
  fBfree : BitVec 64
  fBavail : BitVec 64
  fFiles : BitVec 64
  fFfree : BitVec 64
  fSyncwrites : BitVec 64
  fAsyncwrites : BitVec 64
  fSyncreads : BitVec 64
  fAsyncreads : BitVec 64
  fNamemax : BitVec 32
  fOwner : BitVec 32
  fFsid : FsidT
  fFstypename : ByteField MFSNAMELEN
  fMntfromname : ByteField MNAMELEN
  fMntonname : ByteField MNAMELEN
deriving DecidableEq, Repr

/-- `struct statfs`, or `struct statfs64`. -/
structure Statfs (abi : Abi) (w : Nat) where
  fVersion : BitVec abi.longBits
  fBsize : BitVec abi.longBits
  fIosize : BitVec abi.longBits
  fBlocks : BitVec w
  fBfree : BitVec w
  fBavail : BitVec w
  fFiles : BitVec w
  fFfree : BitVec w
  fFsid : FsidT
  fOwner : BitVec 32
  fType : BitVec 32
  fFlags : BitVec 32
  fSyncwrites : BitVec abi.longBits
  fAsyncwrites : BitVec abi.longBits
  fFstypename : ByteField 16
  fMntonname : ByteField 80
  fSyncreads : BitVec abi.longBits
  fAsyncreads : BitVec abi.longBits
  fNamemax : BitVec 16
  fMntfromname : ByteField 80
deriving DecidableEq, Repr

/-- `struct statvfs`, or `struct statvfs64`, without `f_spare`. -/
structure Statvfs (abi : Abi) (w : Nat) where
  fBsize : BitVec abi.longBits
  fFrsize : BitVec abi.longBits
  fBlocks : BitVec w
  fBfree : BitVec w
  fBavail : BitVec w
  fFiles : BitVec w
  fFfree : BitVec w
  fFavail : BitVec w
  /-- The eight bytes from `f_fsid` on. With a 32-bit `unsigned long` the last four are those of
  `__f_unused`. -/
  fFsid : FsidT
  fFlag : BitVec abi.longBits
  fNamemax : BitVec abi.longBits
deriving DecidableEq, Repr

/-! ### `MIN` -/

/-- `ULONG_MAX`, as a number of 64 bits. -/
def ulongMax64 (abi : Abi) : BitVec 64 := BitVec.ofNat 64 abi.ulongMax

/-- `MIN (x, ULONG_MAX)`, for a `uint64_t`. -/
def minUlong (abi : Abi) (x : BitVec 64) : BitVec 64 :=
  if x.ult (ulongMax64 abi) then x else ulongMax64 abi

/-- `MIN (x, ULONG_MAX)`, for an `int64_t`. -/
def minUlongSigned (abi : Abi) (x : BitVec 64) : BitVec 64 :=
  match abi with
  | .ilp32 => if x.slt (ulongMax64 .ilp32) then x else ulongMax64 .ilp32
  | .lp64 => if x.ult (ulongMax64 .lp64) then x else ulongMax64 .lp64

/-- `MIN (x, USHRT_MAX)`, for a `uint32_t`. -/
def minUshrt (x : BitVec 32) : BitVec 32 := if x.ult USHRT_MAX then x else USHRT_MAX

/-- The first bytes of an array, as `memcpy` copies them into a shorter one. -/
def firstBytes {n : Nat} (f : ByteField n) (k : Nat) (h : k ≤ n) : ByteField k where
  bytes := f.bytes.take k
  length_bytes := by rw [List.length_take, f.length_bytes, Nat.min_eq_left h]

/-! ### The conversions -/

section Conversions

variable (abi : Abi) (pk : StatfsFbsd5)

/-- What `struct statfs` and `struct statfs64` have in common. The arguments are the members that
differ. -/
def statfsWith {w : Nat} (fBlocks fBfree fBavail fFiles fFfree : BitVec w) : Statfs abi w where
  fVersion := pk.fVersion.setWidth _
  fBsize := (minUlong abi pk.fBsize).setWidth _
  fIosize := (minUlong abi pk.fIosize).setWidth _
  fBlocks := fBlocks
  fBfree := fBfree
  fBavail := fBavail
  fFiles := fFiles
  fFfree := fFfree
  fFsid := pk.fFsid
  fOwner := pk.fOwner
  fType := pk.fType
  fFlags := pk.fFlags.setWidth 32
  fSyncwrites := (minUlong abi pk.fSyncwrites).setWidth _
  fAsyncwrites := (minUlong abi pk.fAsyncwrites).setWidth _
  fFstypename := firstBytes pk.fFstypename 16 (by decide)
  fMntonname := firstBytes pk.fMntonname 80 (by decide)
  fSyncreads := (minUlong abi pk.fSyncreads).setWidth _
  fAsyncreads := (minUlong abi pk.fAsyncreads).setWidth _
  fNamemax := (minUshrt pk.fNamemax).setWidth 16
  fMntfromname := firstBytes pk.fMntfromname 80 (by decide)

/-- `__statfs5_to_statfs`. -/
def statfs5ToStatfs : Statfs abi abi.longBits :=
  statfsWith abi pk ((minUlong abi pk.fBlocks).setWidth _) ((minUlong abi pk.fBfree).setWidth _)
    ((minUlongSigned abi pk.fBavail).setWidth _) ((minUlong abi pk.fFiles).setWidth _)
    ((minUlongSigned abi pk.fFfree).setWidth _)

/-- `__statfs5_to_statfs64`. -/
def statfs5ToStatfs64 : Statfs abi 64 :=
  statfsWith abi pk pk.fBlocks pk.fBfree pk.fBavail pk.fFiles pk.fFfree

/-- `f_flag` of `struct statvfs`. -/
def statvfsFlag (fFlags : BitVec 64) : Nat :=
  (if fFlags &&& MNT_RDONLY ≠ 0 then ST_RDONLY else 0)
    ||| (if fFlags &&& MNT_NOSUID ≠ 0 then ST_NOSUID else 0)
    ||| (if fFlags &&& MNT_NOEXEC ≠ 0 then ST_NOEXEC else 0)
    ||| (if fFlags &&& MNT_SYNCHRONOUS ≠ 0 then ST_SYNCHRONOUS else 0)
    ||| (if fFlags &&& MNT_NOATIME ≠ 0 then ST_NOATIME else 0)

/-- What `struct statvfs` and `struct statvfs64` have in common. `f_favail` is `f_ffree`. -/
def statvfsWith {w : Nat} (fBlocks fBfree fBavail fFiles fFfree : BitVec w) : Statvfs abi w where
  fBsize := (minUlong abi pk.fBsize).setWidth _
  fFrsize := (minUlong abi pk.fBsize).setWidth _
  fBlocks := fBlocks
  fBfree := fBfree
  fBavail := fBavail
  fFiles := fFiles
  fFfree := fFfree
  fFavail := fFfree
  fFsid := pk.fFsid
  fFlag := BitVec.ofNat _ (statvfsFlag pk.fFlags)
  fNamemax := pk.fNamemax.setWidth _

/-- `__statfs5_to_statvfs`. -/
def statfs5ToStatvfs : Statvfs abi abi.longBits :=
  statvfsWith abi pk ((minUlong abi pk.fBlocks).setWidth _) ((minUlong abi pk.fBfree).setWidth _)
    ((minUlongSigned abi pk.fBavail).setWidth _) ((minUlong abi pk.fFiles).setWidth _)
    ((minUlongSigned abi pk.fFfree).setWidth _)

/-- `__statfs5_to_statvfs64`. -/
def statfs5ToStatvfs64 : Statvfs abi 64 :=
  statvfsWith abi pk pk.fBlocks pk.fBfree pk.fBavail pk.fFiles pk.fFfree

end Conversions

/-! ### The sizes of the records -/

/-- `sizeof (struct statfs_fbsd5)`. -/
def sizeofStatfsFbsd5 : Nat := 472

/-- `sizeof (struct statfs)`. -/
def sizeofStatfs : Abi → Nat
  | .ilp32 => 256
  | .lp64 => 320

/-- `sizeof (struct statfs64)`. -/
def sizeofStatfs64 : Abi → Nat
  | .ilp32 => 276
  | .lp64 => 320

end GlibcPorts.Mount
