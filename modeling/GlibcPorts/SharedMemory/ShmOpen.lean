import GlibcPorts.Lib.CString
import GlibcPorts.Errno
import Mathlib.Data.Finset.Erase
import Mathlib.Data.Finset.Insert

/-!
# `GlibcPorts.SharedMemory.ShmOpen`: `shm_open`

The function of `kfreebsd/shm_open.c`. It makes the system call of its own name, and where the
kernel does not have it, it opens a file: the file has to be a regular one, and `fcntl` marks its
descriptor.

A `Process` has its open descriptors and its `errno`. What the kernel answers to the calls is a
parameter. A call that opens a descriptor returns one that was not open before, and a call that
fails leaves an `errno` other than 0.
-/

set_option autoImplicit false

namespace GlibcPorts.SharedMemory

open Lib

/-- The bits of the access mode. -/
def O_ACCMODE : BitVec 32 := 0o3

/-- Write only. -/
def O_WRONLY : BitVec 32 := 0o1

/-- Not through a symbolic link. -/
def O_NOFOLLOW : BitVec 32 := 0o400
def FPOSIXSHM : BitVec 32 := O_NOFOLLOW

/-- The bits of the type of a file. -/
def S_IFMT : BitVec 16 := 0o170000

/-- A regular file. -/
def S_IFREG : BitVec 16 := 0o100000

def S_ISREG (mode : BitVec 16) : Bool := mode &&& S_IFMT == S_IFREG

/-- The `errno` of a call that failed. -/
abbrev Failure := { errno : Errno // errno ≠ 0 }

/-- A descriptor that was not open. -/
abbrev NewFd (fds : Finset Nat) := { fd : Nat // fd ∉ fds }

/-- What the calls of the function return. -/
structure ShmKernel where
  /-- `__syscall_shm_open`. -/
  shmOpen : CString → BitVec 32 → BitVec 16 → (fds : Finset Nat) → Except Failure (NewFd fds)
  /-- `__open`. -/
  openFile : CString → BitVec 32 → BitVec 16 → (fds : Finset Nat) → Except Failure (NewFd fds)
  /-- `__fstat`: the `st_mode` of the file. -/
  fstat : Nat → Except Failure (BitVec 16)
  /-- `__fcntl (fd, F_SETFL, flags)`. -/
  setFl : Nat → BitVec 32 → Except Failure Unit
  /-- `__close`: its error, if it reports one. The descriptor is closed all the same. -/
  close : Nat → Option Failure

/-- The open descriptors of a process, and its `errno`. -/
structure Process where
  fds : Finset Nat
  errno : Errno
deriving DecidableEq

namespace Process

/-- `__set_errno (errno)`. -/
def setErrno (errno : Errno) (p : Process) : Process := { p with errno := errno }

/-- The process behind a call that opened `fd`. -/
def opened (fd : Nat) (p : Process) : Process := { p with fds := insert fd p.fds }

/-- `__close (fd)`. -/
def close (k : ShmKernel) (fd : Nat) (p : Process) : Process where
  fds := p.fds.erase fd
  errno :=
    match k.close fd with
    | none => p.errno
    | some e => e

end Process

section ShmOpen

variable (k : ShmKernel) (name : CString) (oflag : BitVec 32) (mode : BitVec 16)

/-- `__fstat (fd, &stab) != 0 || !S_ISREG (stab.st_mode)`. -/
def notRegular (fd : Nat) (p : Process) : Bool × Process :=
  match k.fstat fd with
  | .error e => (true, p.setErrno e)
  | .ok stMode => (!S_ISREG stMode, p)

/-- `__fcntl (fd, F_SETFL, (int) FPOSIXSHM) != 0`. -/
def notMarked (fd : Nat) (p : Process) : Bool × Process :=
  match k.setFl fd FPOSIXSHM with
  | .error e => (true, p.setErrno e)
  | .ok () => (false, p)

/-- What the fallback does with a file that it opened. -/
def checkFile (fd : Nat) (p : Process) : Int × Process :=
  let (bad, p) := notRegular k fd p
  if bad then (-1, (p.close k fd).setErrno EINVAL)
  else
    let (bad, p) := notMarked k fd p
    if bad then (-1, p.close k fd) else (fd, p)

/-- The part of the function for a kernel without the system call. -/
def shmOpenFallback (p : Process) : Int × Process :=
  -- The error number is the result here. It is not stored in `errno`.
  if oflag &&& O_ACCMODE = O_WRONLY then (EINVAL, p)
  else
    match k.openFile name oflag mode p.fds with
    | .error e => (-1, p.setErrno e)
    | .ok fd => checkFile k fd (p.opened fd)

/-- `shm_open`. -/
def shmOpen (p : Process) : Int × Process :=
  match k.shmOpen name oflag mode p.fds with
  | .ok fd => (fd, p.opened fd)
  | .error e =>
      let p := p.setErrno e
      if e = ENOSYS then shmOpenFallback k name oflag mode p else (-1, p)

end ShmOpen

end GlibcPorts.SharedMemory
