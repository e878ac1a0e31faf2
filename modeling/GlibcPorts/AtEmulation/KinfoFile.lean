import GlibcPorts.AtEmulation.Resolution
import GlibcPorts.Lib.Records

/-!
# `GlibcPorts.AtEmulation.KinfoFile`: the table of the open files

The kernel reports the descriptors of a process as records of type `struct kinfo_file`. The
type comes from `<sys/user.h>` of the kernel, which is not part of the sources, so `Headers` has
the offsets of the fields that the code reads and the constants it compares them with. That a
field is an `int` in front of `kf_path`, which comes last, is what the code relies on.

A `KinfoFile` is one record: its `kf_structsize` is the number of its bytes, and a NUL ends its
`kf_path` inside it.
-/

set_option autoImplicit false

namespace GlibcPorts.AtEmulation

open Lib

/-- What the code takes from headers outside the sources. -/
structure Headers where
  /-- The offset of `kf_structsize` in `struct kinfo_file`, and of the other fields. -/
  kfStructsizeOff : Nat
  kfTypeOff : Nat
  kfFdOff : Nat
  kfVnodeTypeOff : Nat
  kfPathOff : Nat
  kfStructsizeOff_le : kfStructsizeOff + 4 ≤ kfPathOff
  kfTypeOff_le : kfTypeOff + 4 ≤ kfPathOff
  kfFdOff_le : kfFdOff + 4 ≤ kfPathOff
  kfVnodeTypeOff_le : kfVnodeTypeOff + 4 ≤ kfPathOff
  KF_TYPE_VNODE : Int
  KF_VTYPE_VDIR : Int
  MKNOD_VER : Int

/-- The bytes of one `struct kinfo_file`, cut behind its `kf_path` and padded. -/
structure KinfoFile (H : Headers) where
  bytes : List UInt8
  structsize : intAt bytes H.kfStructsizeOff = bytes.length
  nul : 0 ∈ bytes.drop H.kfPathOff

namespace KinfoFile

variable {H : Headers}

/-- The descriptor. -/
def kfFd (kf : KinfoFile H) : Int := intAt kf.bytes H.kfFdOff

/-- What it is open on. -/
def kfType (kf : KinfoFile H) : Int := intAt kf.bytes H.kfTypeOff

/-- The type of the file. -/
def kfVnodeType (kf : KinfoFile H) : Int := intAt kf.bytes H.kfVnodeTypeOff

/-- The path it was opened by. -/
def kfPath (kf : KinfoFile H) : CString := CString.upToNul (kf.bytes.drop H.kfPathOff)

/-- The record is one of a directory. -/
def isDir (kf : KinfoFile H) : Bool :=
  kf.kfType == H.KF_TYPE_VNODE && kf.kfVnodeType == H.KF_VTYPE_VDIR

/-- The number of bytes of the record. -/
def width (kf : KinfoFile H) : Nat := kf.bytes.length

/-- The fields in front of `kf_path` lie in the record. -/
theorem pathOff_lt_width (kf : KinfoFile H) : H.kfPathOff < kf.width := by
  by_contra hle
  have hnil : kf.bytes.drop H.kfPathOff = [] := List.drop_eq_nil_of_le (Nat.not_lt.mp hle)
  have hnul := kf.nul
  rw [hnil] at hnul
  exact List.not_mem_nil hnul

/-- A record takes room. -/
theorem width_pos (kf : KinfoFile H) : 0 < kf.width :=
  Nat.lt_of_le_of_lt (Nat.zero_le _) kf.pathOff_lt_width

end KinfoFile

/-- The records as the kernel stores them. -/
def tableBytes {H : Headers} (table : List (KinfoFile H)) : List UInt8 :=
  table.flatMap KinfoFile.bytes

/-- What the first record of `fd` says of it. -/
def descriptors {H : Headers} (table : List (KinfoFile H)) (fd : Int) : Descriptor :=
  match table.find? fun kf => kf.kfFd == fd with
  | none => .closed
  | some kf => if kf.isDir then .directory kf.kfPath else .other

end GlibcPorts.AtEmulation
