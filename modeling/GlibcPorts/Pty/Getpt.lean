import GlibcPorts.Errno
import GlibcPorts.Lib.ByteField
import GlibcPorts.Lib.Transition

/-!
# `GlibcPorts.Pty.Getpt`: opening a master pseudo terminal

`__posix_openpt` of `kfreebsd/getpt.c` has no device that gives out the next free terminal. It
builds the paths of all masters in `buf`, one after the other, and opens each until the kernel lets
it. `Openpt` is what is left of a call: it waits for the answer to an `__open`, or it is over.

`terminals` is the system of all processes. What the kernel answers to `__open` is a parameter. Of
the files that are open, the system has those that `__posix_openpt` opened. Between two tries of a
process the others run. A process has one thread here, and does not fork while it has a master open.
-/

set_option autoImplicit false

namespace GlibcPorts.Pty

open Lib
open Lib.CString (writeAt readAt)

/-- The prefix of the masters. -/
def PATH_PTY : List UInt8 := asciiChars "/dev/pty"

/-- Read and write. -/
def O_RDWR : BitVec 32 := 0o2

/-- The terminal does not become the controlling one. -/
def O_NOCTTY : BitVec 32 := 0o100000

/-- `__libc_ptyname1`. -/
def libcPtyname1 : List UInt8 := asciiChars "pqrs"

/-- `__libc_ptyname2`. -/
def libcPtyname2 : List UInt8 := asciiChars "0123456789abcdefghijklmnopqrstuv"

/-- `sizeof (buf)`. -/
def bufSize : Nat := PATH_PTY.length + 1 + 2

/-- What `__open` returns. -/
inductive Answer where
  | opened (fd : Nat)
  | refused (errno : Errno)
deriving DecidableEq, Repr

/-- What is left of a call of `__posix_openpt`. -/
inductive Openpt where
  /-- Before `__open (path, oflag)`. -/
  | asks (path : CString) (oflag : BitVec 32) (next : Answer → Openpt)
  /-- It returned `fd`, and asked for `TIOCSCTTY` or did not. -/
  | opened (fd : Nat) (tiocsctty : Bool)
  /-- It returned -1. -/
  | failed (errno : Errno)
  /-- It went outside `buf`. -/
  | fault

section Loops

variable (oflag : BitVec 32)

/-- The body of the loops behind `__open`. `next` is the next turn. -/
def turn (next : Openpt) : Answer → Openpt
  | .opened fd => .opened fd (oflag &&& O_NOCTTY == 0)
  | .refused errno => if errno = ENOENT then .failed errno else next

/-- The loop over `__libc_ptyname2`, from `q` on. `rest` is what follows it. -/
def seriesFrom (rest : List UInt8 → Openpt) : List UInt8 → List UInt8 → Openpt
  | [], buf => rest buf
  | q :: qs, buf =>
      match writeAt buf (PATH_PTY.length + 1) [q] with
      | none => .fault
      | some buf =>
          match readAt buf 0 with
          | none => .fault
          | some path => .asks path oflag (turn oflag (seriesFrom rest qs buf))

/-- The loop over `__libc_ptyname1`, from `p` on. -/
def terminalsFrom : List UInt8 → List UInt8 → Openpt
  | [], _ => .failed ENOENT
  | p :: ps, buf =>
      match writeAt buf PATH_PTY.length [p] with
      | none => .fault
      | some buf => seriesFrom oflag (terminalsFrom ps) libcPtyname2 buf

/-- `__posix_openpt`. `stack` is what `buf` has before. -/
def posixOpenpt (stack : List UInt8) : Openpt :=
  match writeAt stack 0 PATH_PTY with
  | none => .fault
  | some buf =>
      match writeAt buf (PATH_PTY.length + 2) [0] with
      | none => .fault
      | some buf => terminalsFrom oflag libcPtyname1 buf

end Loops

/-- A path that a process has open. -/
structure OpenFile (Process : Type) where
  path : CString
  process : Process
  fd : Nat
deriving DecidableEq, Repr

/-- The answers that the kernel may give to `__open (path, oflag)` of a process, when these files
are open. -/
abbrev OpenKernel (Process : Type) :=
  List (OpenFile Process) → Process → CString → BitVec 32 → Answer → Bool

/-- The files that are open, and the call that each process is in. -/
structure Terminals (Process : Type) where
  files : List (OpenFile Process)
  call : Process → Option Openpt

/-- What a process does. -/
inductive PtyStep (Process : Type) where
  /-- The process calls `__posix_openpt`. -/
  | openpt (p : Process) (oflag : BitVec 32) (stack : List UInt8)
  /-- The next `__open`, with what the kernel answers. -/
  | name (p : Process) (answer : Answer)
  /-- The process is done with the result. -/
  | leave (p : Process)
  /-- The process closes a descriptor. -/
  | close (p : Process) (fd : Nat)
deriving DecidableEq

/-- The process that does it. -/
def PtyStep.process {Process : Type} : PtyStep Process → Process
  | .openpt p _ _ | .name p _ | .leave p | .close p _ => p

section Terminals

variable {Process : Type} [DecidableEq Process] (kernel : OpenKernel Process)

/-- The descriptor, if there is one, is open from now on. -/
def Terminals.take (t : Terminals Process) (p : Process) (path : CString) :
    Answer → Terminals Process
  | .opened fd => { t with files := ⟨path, p, fd⟩ :: t.files }
  | .refused _ => t

/-- The process is in this call from now on. -/
def Terminals.goto (t : Terminals Process) (p : Process) (call : Option Openpt) :
    Terminals Process :=
  { t with call := Function.update t.call p call }

/-- `close (fd)`. -/
def Terminals.close (t : Terminals Process) (p : Process) (fd : Nat) : Terminals Process :=
  { t with files := t.files.filter fun f => !(f.process = p && f.fd = fd) }

/-- The state behind a step. -/
def ptyStep : PtyStep Process → Terminals Process → Option (Terminals Process)
  | .openpt p oflag stack, t =>
      if (t.call p).isNone ∧ stack.length = bufSize then
        some (t.goto p (some (posixOpenpt oflag stack)))
      else none
  | .name p answer, t =>
      match t.call p with
      | some (.asks path oflag next) =>
          if kernel t.files p path oflag answer then
            some ((t.take p path answer).goto p (some (next answer)))
          else none
      | _ => none
  | .leave p, t =>
      match t.call p with
      | some (.opened _ _) => some (t.goto p none)
      | some (.failed _) => some (t.goto p none)
      | _ => none
  | .close p fd, t => if (t.call p).isNone then some (t.close p fd) else none

/-- All processes, when nobody has a master. -/
def terminals : System (Terminals Process) (PtyStep Process) where
  init t := t = ⟨[], fun _ => none⟩
  step := ptyStep kernel

end Terminals

end GlibcPorts.Pty
