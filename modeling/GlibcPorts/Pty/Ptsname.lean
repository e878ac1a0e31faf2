import GlibcPorts.Errno
import GlibcPorts.Lib.ByteField

/-!
# `GlibcPorts.Pty.Ptsname`: the name of the slave of a pseudo terminal

The functions of `kfreebsd/ptsname.c` and `kfreebsd/unlockpt.c`. The kernel has the name of each
character device (`kern.devname`). `__ptsname_internal` writes that name behind `/dev/`, puts a `t`
on its first character, and looks whether there is a character device of this name.

The buffer is a list of bytes, and `none` as a result is an access outside of it.
-/

set_option autoImplicit false

namespace GlibcPorts.Pty

open Lib
open Lib.CString (writeAt readAt)

/-- The directory of the devices. -/
def PATH_DEV : List UInt8 := asciiChars "/dev/"

/-- `_PATH_TTY`, which the size of the buffer is counted by. -/
def PATH_TTY : List UInt8 := asciiChars "/dev/tty"

/-- The bits of the type of a file. -/
def S_IFMT : BitVec 16 := 0o170000

/-- A character device. -/
def S_IFCHR : BitVec 16 := 0o020000

/-- The file is a character device. -/
def S_ISCHR (mode : BitVec 16) : Bool := mode &&& S_IFMT == S_IFCHR

/-- `sizeof (_PATH_TTY) + 2`. -/
def slaveRoom : Nat := PATH_TTY.length + 1 + 2

/-- The `errno` of a call that failed. -/
abbrev Failure := { errno : Errno // errno ≠ 0 }

/-- The fields of `struct stat64` that the functions read. -/
structure DevStat where
  stMode : BitVec 16
  stRdev : BitVec 32
deriving DecidableEq, Repr

/-- What the kernel says about descriptors, device numbers and paths. -/
structure TtyKernel where
  fstat : Int → Except Failure DevStat
  /-- `kern.devname`. -/
  devname : BitVec 32 → Except Failure CString
  stat : CString → Except Failure DevStat

/-- What a function returns, with `errno` and the buffer after it. -/
structure PtsResult where
  ret : Errno
  errno : Errno
  buf : List UInt8
deriving DecidableEq, Repr

/-- `__set_errno (e); return e;`, and `return errno` behind a call that failed with `e`. -/
def PtsResult.fail (e : Errno) (buf : List UInt8) : PtsResult := ⟨e, e, buf⟩

section Functions

variable (k : TtyKernel)

/-- The check of the path that was built. -/
def checkSlave (errno : Errno) (buf : List UInt8) : Option PtsResult := do
  let path ← readAt buf 0
  match k.stat path with
  | .error e => return .fail e buf
  | .ok st => if S_ISCHR st.stMode then return ⟨0, errno, buf⟩ else return .fail ENOTTY buf

/-- `__sysctlbyname ("kern.devname", p, &room, ...)` at the offset `p`, and what follows it. A name
that does not fit is copied as far as it does. -/
def buildSlave (rdev : BitVec 32) (errno : Errno) (buf : List UInt8) (p room : Nat) :
    Option PtsResult :=
  match k.devname rdev with
  | .error e => some (.fail e buf)
  | .ok name => do
      let buf ← writeAt buf p (name.bytes.take room)
      if room < name.bytes.length then return .fail ENOMEM buf
      else
        let buf ← writeAt buf p (asciiChars "t")
        checkSlave k errno buf

/-- `__ptsname_internal`. `buf` is `none` for `NULL`, and `errno` is what it is before the call. -/
def ptsnameInternal (fd : Int) (buf : Option (List UInt8)) (buflen : Nat) (errno : Errno) :
    Option PtsResult :=
  match buf with
  | none => some (.fail EINVAL [])
  | some buf =>
      match k.fstat fd with
      | .error e => some (.fail e buf)
      | .ok st =>
          if !S_ISCHR st.stMode then some (.fail ENOTTY buf)
          else if buflen < slaveRoom then some (.fail ERANGE buf)
          else do
            let buf ← writeAt buf 0 PATH_DEV
            buildSlave k st.stRdev errno buf PATH_DEV.length (buflen - PATH_DEV.length)

/-- `ptsname`: the string it returns, or `none` for `NULL`. `buffer` is the static one. -/
def ptsname (fd : Int) (buffer : List UInt8) (errno : Errno) : Option (Option CString) := do
  let r ← ptsnameInternal k fd (some buffer) slaveRoom errno
  if r.ret ≠ 0 then return none
  else
    let name ← readAt r.buf 0
    return some name

/-- `__unlockpt`: -1 with an `errno`, or 0. -/
def unlockpt (fd : Int) : Except Errno Unit :=
  match k.fstat fd with
  | .error e => .error e
  | .ok st => if S_ISCHR st.stMode then .ok () else .error ENOTTY

end Functions

end GlibcPorts.Pty
