import GlibcPorts.Errno
import GlibcPorts.Lib.Transition

/-!
# `GlibcPorts.Process.Iopl`: `iopl`

A process may use the I/O ports while it has `/dev/io` open. `iopl` of `kfreebsd/i386/iopl.c` opens
that device for the level 3 and closes it for the level 0, and keeps the descriptor in
`__iopl_fd`. It never makes that -1 again.

`ioSystem` has the calls of `iopl` between other calls of the same process that open and close
files. A number that was closed may come back for another file. The program closes only what it
opened itself.
-/

set_option autoImplicit false

namespace GlibcPorts.Process

open Lib

/-- What a descriptor is open on. -/
inductive IoFile where
  /-- `/dev/io`, opened by `iopl`. -/
  | devIo
  /-- A file that the program opened. -/
  | other
deriving DecidableEq, Repr

/-- A call of `iopl`: what it returned, and what it did to the descriptors. -/
inductive IoEvent where
  /-- `iopl (3)`, which may have set `errno`, and may have opened a descriptor. -/
  | raise (ret : Int) (errno : Option Errno) (opened : Option Nat)
  /-- `iopl (0)`, which may have closed a number, and what that was open on. -/
  | drop (ret : Int) (closed : Option (Nat × Option IoFile))
  /-- Another level: -1, with `EINVAL`. -/
  | invalid
deriving DecidableEq, Repr

/-- The descriptors of a process, `__iopl_fd` (`none` is -1), and the calls of `iopl` it made. -/
structure IoState where
  fds : Nat → Option IoFile
  ioplFd : Option Nat
  log : List IoEvent

/-- A call of `iopl`, or what the program does with files of its own. -/
inductive IoStep where
  /-- `iopl`, with what `__open` returns, and whether `__close` reports an error. -/
  | iopl (level : Int) (opens : Except Errno Nat) (closeFails : Bool)
  /-- The program opens another file. -/
  | openFile (fd : Nat)
  /-- The program closes a file of its own. -/
  | closeFile (fd : Nat)

/-- One more event. -/
def IoState.record (s : IoState) (e : IoEvent) : IoState := { s with log := s.log ++ [e] }

/-- The case of the level 3. `__open` returns a number that is not in use. -/
def ioplRaise (s : IoState) : Except Errno Nat → Option IoState
  | opens =>
      if s.ioplFd ≠ none then some (s.record (.raise 0 none none))
      else
        match opens with
        | .error e => some (s.record (.raise (-1) (some (if e = EACCES then EPERM else e)) none))
        | .ok fd =>
            if s.fds fd ≠ none then none
            else
              some { (s.record (.raise 0 none (some fd))) with
                fds := Function.update s.fds fd (some .devIo), ioplFd := some fd }

/-- The case of the level 0. An error of `__close` closes the descriptor all the same, but for a
number that is not open. -/
def ioplDrop (s : IoState) (closeFails : Bool) : IoState :=
  match s.ioplFd with
  | none => s.record (.drop 0 none)
  | some fd =>
      match s.fds fd with
      | none => s.record (.drop 1 (some (fd, none)))
      | some file =>
          { (s.record (.drop (if closeFails then 1 else 0) (some (fd, some file)))) with
            fds := Function.update s.fds fd none }

/-- `iopl` of `i386/iopl.c`, and the steps of the program. -/
def ioStep : IoStep → IoState → Option IoState
  | .iopl level opens closeFails, s =>
      if level = 3 then ioplRaise s opens
      else if level = 0 then some (ioplDrop s closeFails)
      else some (s.record .invalid)
  | .openFile fd, s =>
      if s.fds fd = none then some { s with fds := Function.update s.fds fd (some .other) }
      else none
  | .closeFile fd, s =>
      if s.fds fd = some .other then some { s with fds := Function.update s.fds fd none } else none

/-- A process that did not call `iopl` yet. -/
def ioSystem : System IoState IoStep where
  init s := (∀ fd, s.fds fd ≠ some .devIo) ∧ s.ioplFd = none ∧ s.log = []
  step := ioStep

end GlibcPorts.Process
